import K3rs.Lib.Transition

/-!
# Leader election

Servers that share one store elect a leader with a lease: `try_acquire_or_renew` reads the
lease, decides, and writes it back without a condition on what is stored by then; the loop
of `start` raises or drops the server's leader flag when the call has returned.

`Election` is the store's lease, a clock in nanoseconds and the servers by their ids.  Each
call is a sequence of steps, so that the calls of different servers interleave, and the
store may fail a read, or a write before or after it took effect.
-/

namespace K3rs

open Transition

/-- A second, in nanoseconds. -/
def second : ℕ := 1000000000

/-- `LEADER_LEASE_TTL_SECS`. -/
def LEADER_LEASE_TTL_SECS : ℕ := 15

/-- `LEADER_RENEW_INTERVAL_DIVISOR`. -/
def LEADER_RENEW_INTERVAL_DIVISOR : ℕ := 3

/-- `LeaderElection::renew_interval`. -/
def renewInterval : ℕ := LEADER_LEASE_TTL_SECS / LEADER_RENEW_INTERVAL_DIVISOR * second

/-- `Lease`. -/
structure Lease where
  id : String
  holderId : String
  acquiredAt : ℕ
  renewAt : ℕ
  ttlSeconds : ℕ
  deriving DecidableEq, Repr

namespace Lease

/-- `Lease::is_expired`, at a given time. -/
def isExpired (lease : Lease) (now : ℕ) : Bool :=
  decide (now > lease.renewAt + lease.ttlSeconds * second)

theorem isExpired_eq_false {lease : Lease} {now : ℕ} :
    lease.isExpired now = false ↔ now ≤ lease.renewAt + lease.ttlSeconds * second := by
  rw [isExpired, decide_eq_false_iff_not, not_lt]

end Lease

/-! ## A call -/

/-- The lease that a server acquires. -/
def newLease (serverId : String) (now : ℕ) : Lease where
  id := "controller-leader"
  holderId := serverId
  acquiredAt := now
  renewAt := now
  ttlSeconds := LEADER_LEASE_TTL_SECS

/-- What `try_acquire_or_renew` writes, given its start, the time of its expiry test and the
lease it read; `none` when another server leads. -/
def leaseToWrite (serverId : String) (now atTest : ℕ) : Option Lease → Option Lease
  | some lease =>
      if lease.holderId = serverId then some { lease with renewAt := now }
      else if lease.isExpired atTest then some (newLease serverId now)
      else none
  | none => some (newLease serverId now)

/-- Where a server is in its election loop.  `now` is the time at which its current call
started, `lastCall` that of its last one. -/
inductive ElectionPhase where
  | down
  /-- Waiting for the next tick of the interval. -/
  | waiting (lastCall : ℕ)
  | getting (now : ℕ)
  | deciding (now : ℕ) (read : Option Lease)
  | putting (now : ℕ) (lease : Lease)
  /-- `try_acquire_or_renew` has returned, and the flag is not set yet. -/
  | returned (now : ℕ) (result : Except Unit Bool)
  deriving DecidableEq, Repr

/-- A server: its place in the loop and its leader flag. -/
structure ElectionServer where
  phase : ElectionPhase
  isLeader : Bool
  deriving DecidableEq, Repr

/-- Outcomes of a `put`. -/
inductive PutOutcome where
  | ok
  | err (landed : Bool)
  deriving DecidableEq, Repr

/-- The write took effect. -/
def PutOutcome.landed : PutOutcome → Bool
  | ok => true
  | err landed => landed

/-! ## The system -/

/-- The shared lease, the clock and the servers by their `server_id`. -/
structure Election where
  clock : ℕ
  lease : Option Lease
  servers : String → ElectionServer

/-- Steps of the clock and of the servers. -/
inductive ElectionStep where
  | tick (elapsed : ℕ)
  | start (serverId : String)
  | stop (serverId : String)
  /-- The interval ticks and the server calls `try_acquire_or_renew`. -/
  | call (serverId : String)
  | get (serverId : String) (ok : Bool)
  | test (serverId : String)
  | put (serverId : String) (outcome : PutOutcome)
  /-- The loop sets the flag to the result of the call. -/
  | finish (serverId : String)
  deriving DecidableEq, Repr

namespace Election

/-- An empty store and no server running. -/
def init : Election where
  clock := 0
  lease := none
  servers _ := ⟨.down, false⟩

/-- One server moves on. -/
def set (e : Election) (serverId : String) (server : ElectionServer) : Election :=
  { e with servers := Function.update e.servers serverId server }

/-- The server goes to another phase of its loop and keeps its flag. -/
def goto (e : Election) (serverId : String) (phase : ElectionPhase) : Election :=
  e.set serverId ⟨phase, (e.servers serverId).isLeader⟩

/-- One step.  A step that a server is not ready for changes nothing. -/
def step (e : Election) : ElectionStep → Election
  | .tick elapsed => { e with clock := e.clock + elapsed }
  | .start i =>
      match (e.servers i).phase with
      | .down => e.set i ⟨.waiting e.clock, false⟩
      | _ => e
  | .stop i => e.set i ⟨.down, false⟩
  | .call i =>
      match (e.servers i).phase with
      | .waiting _ => e.goto i (.getting e.clock)
      | _ => e
  | .get i ok =>
      match (e.servers i).phase with
      | .getting now =>
          if ok then e.goto i (.deciding now e.lease) else e.goto i (.returned now (.error ()))
      | _ => e
  | .test i =>
      match (e.servers i).phase with
      | .deciding now read =>
          match leaseToWrite i now e.clock read with
          | some lease => e.goto i (.putting now lease)
          | none => e.goto i (.returned now (.ok false))
      | _ => e
  | .put i outcome =>
      match (e.servers i).phase with
      | .putting now lease =>
          let result := match outcome with
            | .ok => .ok true
            | .err _ => .error ()
          { e with lease := if outcome.landed then some lease else e.lease }.goto i
            (.returned now result)
      | _ => e
  | .finish i =>
      match (e.servers i).phase with
      | .returned now result => e.set i ⟨.waiting now, decide (result = .ok true)⟩
      | _ => e

/-- No two servers' flags are up. -/
def OneLeader (e : Election) : Prop :=
  ∀ i j, (e.servers i).isLeader → (e.servers j).isLeader → i = j

/-- The calls of a server are at most `renew_interval` apart: time does not pass over a
server's next call. -/
def OnSchedule (e : Election) : ElectionStep → Prop
  | .tick elapsed =>
      ∀ i lastCall, (e.servers i).phase = .waiting lastCall →
        e.clock + elapsed ≤ lastCall + renewInterval
  | _ => True

/-- A call whose result is not in the flag yet. -/
def InCall (server : ElectionServer) : Prop :=
  match server.phase with
  | .down => False
  | .waiting _ => False
  | .returned _ (.ok true) => True
  | _ => server.isLeader

/-- A write of the lease finds none, the server's own or an expired one, and comes before
what it writes would expire; the stored lease does not expire during a call of the leader. -/
def Guarded (e : Election) : ElectionStep → Prop
  | .tick elapsed =>
      ∀ i, InCall (e.servers i) → ∀ lease ∈ e.lease, lease.isExpired (e.clock + elapsed) = false
  | .put i outcome =>
      ∀ now new, (e.servers i).phase = .putting now new → outcome.landed = true →
        (∀ lease ∈ e.lease, lease.holderId = i ∨ lease.isExpired e.clock = true) ∧
          e.clock ≤ now + LEADER_LEASE_TTL_SECS * second
  | _ => True

/-! ## The invariant -/

/-- The stored lease is the server's and has not expired. -/
def Held (clock : ℕ) (stored : Option Lease) (serverId : String) : Prop :=
  ∃ lease ∈ stored, lease.holderId = serverId ∧ lease.isExpired clock = false

/-- The stored lease was written by the server's call that started at `now`. -/
def HeldSince (clock : ℕ) (stored : Option Lease) (serverId : String) (now : ℕ) : Prop :=
  ∃ lease ∈ stored, lease.holderId = serverId ∧ lease.renewAt = now ∧
    lease.isExpired clock = false

/-- Every lease is given the same time to live. -/
def FixedTtl (stored : Option Lease) : Prop :=
  ∀ lease ∈ stored, lease.ttlSeconds = LEADER_LEASE_TTL_SECS

/-- A server whose flag is up, or is about to be, holds the lease; between two calls it is
the one its last call wrote. -/
def ServerOk (clock : ℕ) (stored : Option Lease) (serverId : String) (server : ElectionServer) :
    Prop :=
  match server.phase with
  | .down => server.isLeader = false
  | .waiting lastCall => server.isLeader → HeldSince clock stored serverId lastCall
  | .getting _ => server.isLeader → Held clock stored serverId
  | .deciding _ read => FixedTtl read ∧ (server.isLeader → Held clock stored serverId)
  | .putting now lease =>
      (lease.holderId = serverId ∧ lease.renewAt = now ∧
        lease.ttlSeconds = LEADER_LEASE_TTL_SECS) ∧
      (server.isLeader → Held clock stored serverId)
  | .returned now result =>
      (result = .ok true → HeldSince clock stored serverId now) ∧
      (server.isLeader → Held clock stored serverId)

/-- The invariant of the guarded runs. -/
structure Inv (e : Election) : Prop where
  ttl : FixedTtl e.lease
  servers : ∀ i, ServerOk e.clock e.lease i (e.servers i)

theorem inv_init : Inv init where
  ttl := by simp [FixedTtl, init]
  servers _ := rfl

variable {clock : ℕ} {stored : Option Lease} {i j : String}

theorem HeldSince.held {now : ℕ} (h : HeldSince clock stored i now) : Held clock stored i := by
  obtain ⟨lease, hmem, hholder, -, hfresh⟩ := h
  exact ⟨lease, hmem, hholder, hfresh⟩

/-- Two servers do not hold the lease at once. -/
theorem Held.unique (hi : Held clock stored i) (hj : Held clock stored j) : i = j := by
  obtain ⟨l₁, hmem₁, rfl, -⟩ := hi
  obtain ⟨l₂, hmem₂, rfl, -⟩ := hj
  exact congrArg Lease.holderId (Option.mem_unique hmem₁ hmem₂)

/-- A server whose flag is up holds the lease, whatever it is doing. -/
theorem ServerOk.held {server : ElectionServer} (h : ServerOk clock stored i server)
    (hleader : server.isLeader = true) : Held clock stored i := by
  obtain ⟨phase, isLeader⟩ := server
  cases phase with
  | down => exact absurd hleader (by simpa [ServerOk] using h)
  | waiting lastCall => exact (h hleader).held
  | getting now => exact h hleader
  | deciding now read => exact h.2 hleader
  | putting now lease => exact h.2 hleader
  | returned now result => exact h.2 hleader

theorem Inv.oneLeader {e : Election} (h : Inv e) : e.OneLeader := by
  intro i j hi hj
  exact ((h.servers i).held hi).unique ((h.servers j).held hj)

/-- One server moves, the lease stays. -/
theorem Inv.set {e : Election} (h : Inv e) {server : ElectionServer}
    (hserver : ServerOk e.clock e.lease i server) : Inv (e.set i server) := by
  refine ⟨h.ttl, fun j => ?_⟩
  by_cases hj : j = i
  · subst hj
    simpa [Election.set] using hserver
  · simpa [Election.set, Function.update_of_ne hj] using h.servers j

/-- What a call writes names the server and the start of the call. -/
theorem leaseToWrite_spec {now atTest : ℕ} {read : Option Lease} {lease : Lease}
    (hread : FixedTtl read) (h : leaseToWrite i now atTest read = some lease) :
    lease.holderId = i ∧ lease.renewAt = now ∧ lease.ttlSeconds = LEADER_LEASE_TTL_SECS := by
  cases read with
  | none =>
      cases h
      exact ⟨rfl, rfl, rfl⟩
  | some current =>
      simp only [leaseToWrite] at h
      split_ifs at h with hown hexpired
      · cases h
        exact ⟨hown, rfl, hread current rfl⟩
      · cases h
        exact ⟨rfl, rfl, rfl⟩

/-! ## Steps -/

theorem ttl_pos : renewInterval ≤ LEADER_LEASE_TTL_SECS * second := by decide

/-- Time passes: on schedule the lease of a waiting leader lives on, and the guard covers a
leader in a call. -/
theorem ServerOk.tick {server : ElectionServer} {elapsed : ℕ} (httl : FixedTtl stored)
    (hwait : ∀ lastCall, server.phase = .waiting lastCall →
      clock + elapsed ≤ lastCall + renewInterval)
    (hcall : InCall server → ∀ lease ∈ stored, lease.isExpired (clock + elapsed) = false)
    (h : ServerOk clock stored i server) : ServerOk (clock + elapsed) stored i server := by
  have hheld : InCall server → Held clock stored i → Held (clock + elapsed) stored i := by
    rintro hin ⟨lease, hmem, hholder, -⟩
    exact ⟨lease, hmem, hholder, hcall hin lease hmem⟩
  have hsince : InCall server → ∀ now, HeldSince clock stored i now →
      HeldSince (clock + elapsed) stored i now := by
    rintro hin now ⟨lease, hmem, hholder, hnow, -⟩
    exact ⟨lease, hmem, hholder, hnow, hcall hin lease hmem⟩
  obtain ⟨phase, isLeader⟩ := server
  cases phase with
  | down => exact h
  | waiting lastCall =>
      -- the lease was renewed at the last call, and the next one is due before it expires
      intro hleader
      obtain ⟨lease, hmem, hholder, hnow, -⟩ := h hleader
      refine ⟨lease, hmem, hholder, hnow, Lease.isExpired_eq_false.mpr ?_⟩
      rw [hnow, httl lease hmem]
      exact (hwait lastCall rfl).trans (Nat.add_le_add_left ttl_pos lastCall)
  | getting now =>
      intro hleader
      exact hheld hleader (h hleader)
  | deciding now read =>
      refine ⟨h.1, fun hleader => ?_⟩
      exact hheld hleader (h.2 hleader)
  | putting now lease =>
      refine ⟨h.1, fun hleader => ?_⟩
      exact hheld hleader (h.2 hleader)
  | returned now result =>
      constructor
      · rintro rfl
        exact hsince trivial now (h.1 rfl)
      · intro hleader
        have hin : InCall ⟨.returned now result, isLeader⟩ := by
          unfold InCall
          split <;> trivial
        exact hheld hin (h.2 hleader)

theorem Inv.tick {e : Election} (h : Inv e) {elapsed : ℕ} (hs : e.OnSchedule (.tick elapsed))
    (hg : e.Guarded (.tick elapsed)) : Inv (e.step (.tick elapsed)) where
  ttl := h.ttl
  servers i := (h.servers i).tick h.ttl (hs i) (hg i)

/-- A write that finds the lease free, its own or expired finds no other leader. -/
theorem Held.of_free {e : Election} (h : Held e.clock e.lease j)
    (hfree : ∀ lease ∈ e.lease, lease.holderId = i ∨ lease.isExpired e.clock = true) :
    j = i := by
  obtain ⟨lease, hmem, rfl, hfresh⟩ := h
  rcases hfree lease hmem with hown | hexpired
  · exact hown
  · rw [hfresh] at hexpired
    cases hexpired

/-- A server that neither leads nor is about to is right about any lease. -/
theorem ServerOk.of_not_held {server : ElectionServer} (h : ServerOk clock stored j server)
    (hnot : ¬ Held clock stored j) (clock' : ℕ) (stored' : Option Lease) :
    ServerOk clock' stored' j server := by
  have hleader : server.isLeader = false := by
    cases hl : server.isLeader with
    | false => rfl
    | true => exact absurd (h.held hl) hnot
  obtain ⟨phase, isLeader⟩ := server
  subst hleader
  cases phase with
  | down => rfl
  | waiting lastCall => exact fun hl => absurd hl (by simp)
  | getting now => exact fun hl => absurd hl (by simp)
  | deciding now read => exact ⟨h.1, fun hl => absurd hl (by simp)⟩
  | putting now lease => exact ⟨h.1, fun hl => absurd hl (by simp)⟩
  | returned now result =>
      refine ⟨fun hr => absurd (h.1 hr).held hnot, fun hl => absurd hl (by simp)⟩

theorem Inv.put {e : Election} (h : Inv e) {outcome : PutOutcome}
    (hg : e.Guarded (.put i outcome)) : Inv (e.step (.put i outcome)) := by
  cases hphase : (e.servers i).phase with
  | putting now lease =>
      have hi := h.servers i
      simp only [ServerOk, hphase] at hi
      obtain ⟨⟨hholder, hnow, httl⟩, hleader⟩ := hi
      cases hlanded : outcome.landed with
      | false =>
          have hout : outcome = .err false := by
            cases outcome with
            | ok => cases hlanded
            | err landed => exact congrArg PutOutcome.err hlanded
          subst hout
          -- the store is as before, and the call will answer with an error
          simp only [step, hphase, hlanded]
          exact h.set ⟨nofun, hleader⟩
      | true =>
          obtain ⟨hfree, htime⟩ := hg now lease hphase hlanded
          have hsince : HeldSince e.clock (some lease) i now := by
            refine ⟨lease, rfl, hholder, hnow, Lease.isExpired_eq_false.mpr ?_⟩
            rw [hnow, httl]
            exact htime
          simp only [step, hphase, hlanded, if_true]
          refine ⟨?_, fun j => ?_⟩
          · intro l hl
            cases hl
            exact httl
          · by_cases hj : j = i
            · subst hj
              simp only [goto, Election.set, Function.update_self]
              exact ⟨fun _ => hsince, fun _ => hsince.held⟩
            · -- the lease it overwrites was not another server's
              simp only [goto, Election.set, Function.update_of_ne hj]
              exact (h.servers j).of_not_held (fun hheld => hj (hheld.of_free hfree)) _ _
  | _ => simpa only [step, hphase] using h

theorem Inv.step {e : Election} (h : Inv e) {input : ElectionStep} (hs : e.OnSchedule input)
    (hg : e.Guarded input) : Inv (e.step input) := by
  cases input with
  | tick elapsed => exact h.tick hs hg
  | put i outcome => exact h.put hg
  | start i =>
      simp only [Election.step]
      split
      · exact h.set nofun
      · exact h
  | stop i => exact h.set rfl
  | call i =>
      have hi := h.servers i
      simp only [Election.step]
      split
      · exact h.set fun hl => hi.held hl
      · exact h
  | get i ok =>
      have hi := h.servers i
      simp only [Election.step]
      split
      · split_ifs
        · exact h.set ⟨h.ttl, fun hl => hi.held hl⟩
        · exact h.set ⟨nofun, fun hl => hi.held hl⟩
      · exact h
  | test i =>
      have hi := h.servers i
      simp only [Election.step]
      split
      case h_1 now read hphase =>
          have hread : FixedTtl read := by
            simp only [ServerOk, hphase] at hi
            exact hi.1
          split
          case h_1 lease hlease =>
              exact h.set ⟨leaseToWrite_spec hread hlease, fun hl => hi.held hl⟩
          case h_2 => exact h.set ⟨nofun, fun hl => hi.held hl⟩
      case h_2 => exact h
  | finish i =>
      have hi := h.servers i
      simp only [Election.step]
      split
      case h_1 now result hphase =>
          simp only [ServerOk, hphase] at hi
          exact h.set fun hl => hi.1 (of_decide_eq_true hl)
      case h_2 => exact h

/-! ## Mutual exclusion -/

/-- **Leader mutual exclusion.**  In every run on schedule in which a lease is only written
over none, the server's own or an expired one, and does not expire during a call of the
leader, at no time two flags are up. -/
theorem one_leader {steps : List ElectionStep}
    (h : Admitted step (fun e input => e.OnSchedule input ∧ e.Guarded input) init steps) :
    Along step OneLeader init steps := by
  have hinv : Along step Inv init steps :=
    along_of_admitted Inv (fun e input hok he => he.step hok.1 hok.2) inv_init h
  exact hinv.mono fun e he => he.oneLeader

/-- The steps of one successful call. -/
def acquire (serverId : String) : List ElectionStep :=
  [.call serverId, .get serverId true, .test serverId, .put serverId .ok, .finish serverId]

/-- A server that becomes leader and renews its lease after five seconds. -/
theorem one_leader_renewed :
    ((run step init (.start "a" :: acquire "a" ++ .tick (5 * second) :: acquire "a")).servers
        "a").isLeader = true ∧
      Along step OneLeader init
        (.start "a" :: acquire "a" ++ .tick (5 * second) :: acquire "a") := by
  refine ⟨by decide, one_leader ?_⟩
  simp only [acquire, List.cons_append, List.nil_append, Admitted, OnSchedule, Guarded,
    true_and, and_true]
  refine ⟨?_, ?_, ?_⟩
  · simp [step, goto, Election.set, init, leaseToWrite]
  · constructor
    · intro i lastCall
      by_cases hi : i = "a"
      · subst hi
        simp only [step, goto, Election.set, init, leaseToWrite, Function.update_self,
          ElectionPhase.waiting.injEq, if_true]
        rintro rfl
        decide
      · simp [hi, step, goto, Election.set, init, leaseToWrite]
    · intro i hin
      by_cases hi : i = "a"
      · simp [hi, step, goto, Election.set, init, leaseToWrite, InCall] at hin
      · simp [hi, step, goto, Election.set, init, leaseToWrite, InCall] at hin
  · simp [step, goto, Election.set, init, leaseToWrite, PutOutcome.landed, newLease]

/-- Two servers read the empty store and then both write: both lead. -/
theorem one_leader_fails_race :
    ¬ ∀ steps, Admitted step OnSchedule init steps → Along step OneLeader init steps := by
  intro h
  have hboth := h [.start "a", .start "b", .call "a", .call "b", .get "a" true, .get "b" true,
    .test "a", .test "b", .put "a" .ok, .put "b" .ok, .finish "a", .finish "b"]
    (by simp [Admitted, OnSchedule]) _ (List.prefix_refl _) "a" "b"
    (by decide) (by decide)
  revert hboth
  decide

end Election

end K3rs
