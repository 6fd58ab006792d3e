import K3rs.Server.LeaderElection

/-!
# Controllers on the leader

`start_server` spawns a task that starts the controllers when the server becomes the leader and
aborts them when it no longer is.  It reads the leader flag from the watch channel that the election
loop sends to.  An aborted controller ends at its next `await`: one that is being polled goes on up
to there.

`Cluster` is the election with the process of every server: the channel, the gate and the
controllers' tasks.  Steps of the election, the gates and the tasks come in any order, and a server
or the task of its election may stop at any time.

In every run a server has at most one set of controllers that are not aborted, and its gate, left
alone, comes to a rest at which they run if and only if the flag is up
(`controllers_follow_leader`).  Where the election has one leader, the controllers run on one server
among those whose gates are at rest (`controllers_on_one_server`).
-/

namespace K3rs

open Transition

/-! ## Controllers -/

/-- The controllers of a server. -/
inductive Controller where
  | node
  | deployment
  | replicaSet
  | daemonSet
  | job
  | cronJob
  | hpa
  | eviction
  | vpc
  | endpoint
  | backup
  deriving DecidableEq, Repr

/-- What `start_server` starts, in the order of the `handles`. -/
def leaderControllers (backupDir : Option String) : List Controller :=
  [.node, .deployment, .replicaSet, .daemonSet, .job, .cronJob, .hpa, .eviction, .vpc, .endpoint] ++
    match backupDir with
    | some _ => [.backup]
    | none => []

/-- What the task of a controller is doing. -/
inductive TaskState where
  /-- It is at an `await`. -/
  | idle
  /-- It runs up to its next `await`. -/
  | polled
  /-- It has returned or panicked. -/
  | ended
  /-- It was aborted while it was polled. -/
  | aborted
  deriving DecidableEq, Repr

/-- What happens to a task by itself. -/
inductive TaskEvent where
  | poll
  | await
  | finish
  deriving DecidableEq, Repr

/-- A controller's task. -/
structure ControllerTask where
  controller : Controller
  state : TaskState
  deriving DecidableEq, Repr

namespace ControllerTask

/-- `JoinHandle::abort`; `none` when nothing of the task is left. -/
def abort (t : ControllerTask) : Option ControllerTask :=
  match t.state with
  | .polled => some { t with state := .aborted }
  | .aborted => some t
  | .idle => none
  | .ended => none

/-- One event of the task. -/
def next (t : ControllerTask) (event : TaskEvent) : Option ControllerTask :=
  match t.state, event with
  | .idle, .poll => some { t with state := .polled }
  | .polled, .await => some { t with state := .idle }
  | .polled, .finish => some { t with state := .ended }
  | .aborted, .await => none
  | .aborted, .finish => none
  | _, _ => some t

/-- The task was not aborted. -/
def isCurrent (t : ControllerTask) : Bool := decide (t.state ≠ .aborted)

end ControllerTask

/-- One event of the task at a position. -/
def nextAt (event : TaskEvent) : ℕ → List ControllerTask → List ControllerTask
  | _, [] => []
  | 0, t :: rest => (t.next event).toList ++ rest
  | k + 1, t :: rest => t :: nextAt event k rest

/-- The abort of the first task that is not aborted. -/
def abortNext : List ControllerTask → Option (List ControllerTask)
  | [] => none
  | t :: rest =>
      if t.isCurrent then some (t.abort.toList ++ rest)
      else (abortNext rest).map (t :: ·)

/-- The controllers that are not aborted. -/
def currentOf (tasks : List ControllerTask) : List Controller :=
  (tasks.filter ControllerTask.isCurrent).map ControllerTask.controller

/-! ## A server -/

/-- Where the gate is in its loop. -/
inductive GatePoint where
  | off
  /-- `while !*rx.borrow()` -/
  | checkLeader
  /-- `rx.changed().await` in that loop. -/
  | awaitLeader
  | raise
  | starting (left : List Controller)
  /-- `while *rx.borrow()` -/
  | checkLost
  /-- `rx.changed().await` in that loop. -/
  | awaitLost
  | lower
  | aborting
  | returned
  deriving DecidableEq, Repr

/-- The process of a server: the watch channel of its election, the version of it that the gate has
seen, the gate, the flag of `AppState` and the controllers' tasks. -/
structure ServerProcess where
  value : Bool
  version : ℕ
  closed : Bool
  seen : ℕ
  gate : GatePoint
  isLeader : Bool
  tasks : List ControllerTask
  deriving DecidableEq, Repr

namespace ServerProcess

variable (p : ServerProcess)

/-- No process. -/
def down : ServerProcess := ⟨false, 0, true, 0, .off, false, []⟩

/-- A process that has come up. -/
def booted : ServerProcess := ⟨false, 0, false, 0, .checkLeader, false, []⟩

/-- `leader_tx.send`. -/
def send (value : Bool) : ServerProcess := { p with value := value, version := p.version + 1 }

/-- `rx.changed().await`, which may have to wait; `gate` is where it goes on. -/
def changed (gate : GatePoint) : ServerProcess :=
  if p.seen ≠ p.version then { p with seen := p.version, gate := gate }
  else if p.closed then { p with gate := .returned }
  else p

/-- One step of the gate. -/
def gateStep (controllers : List Controller) : ServerProcess :=
  match p.gate with
  | .off => p
  | .checkLeader => { p with gate := if p.value then .raise else .awaitLeader }
  | .awaitLeader => p.changed .checkLeader
  | .raise => { p with isLeader := true, gate := .starting controllers }
  | .starting (c :: left) =>
      { p with tasks := p.tasks ++ [⟨c, .idle⟩], gate := .starting left }
  | .starting [] => { p with gate := .checkLost }
  | .checkLost => { p with gate := if p.value then .awaitLost else .lower }
  | .awaitLost => p.changed .checkLost
  | .lower => { p with isLeader := false, gate := .aborting }
  | .aborting =>
      match abortNext p.tasks with
      | some tasks => { p with tasks := tasks }
      | none => { p with gate := .checkLeader }
  | .returned => p

/-- The controllers that are not aborted. -/
def current : List Controller := currentOf p.tasks

/-- The gate waits, and the election still sends. -/
def Settled : Prop :=
  (p.gate = .awaitLeader ∨ p.gate = .awaitLost) ∧ p.seen = p.version ∧ p.closed = false

instance : Decidable p.Settled :=
  inferInstanceAs (Decidable ((p.gate = .awaitLeader ∨ p.gate = .awaitLost) ∧
    p.seen = p.version ∧ p.closed = false))

end ServerProcess

/-! ## The cluster -/

/-- The election and the servers' processes. -/
structure Cluster where
  election : Election
  processes : String → ServerProcess

/-- Steps of the election, of its task on a server, of the gates and of the tasks. -/
inductive ClusterStep where
  | election (s : ElectionStep)
  /-- The election's task on the server panics, which drops the sender. -/
  | panic (serverId : String)
  | gate (serverId : String)
  | task (serverId : String) (k : ℕ) (event : TaskEvent)
  deriving DecidableEq, Repr

namespace Cluster

/-- No server is up. -/
def init : Cluster := ⟨Election.init, fun _ => .down⟩

/-- One server's process moves on. -/
def set (c : Cluster) (serverId : String) (p : ServerProcess) : Cluster :=
  { c with processes := Function.update c.processes serverId p }

/-- One step of the election.  `start` and `stop` are those of the process, and `finish` sends the
flag. -/
def electionStep (c : Cluster) (s : ElectionStep) : Cluster :=
  let stepped := { c with election := c.election.step s }
  match s with
  | .start i =>
      match (c.processes i).gate with
      | .off => stepped.set i .booted
      | _ => c
  | .stop i => stepped.set i .down
  | .finish i =>
      match (c.election.servers i).phase with
      | .returned _ result => stepped.set i ((c.processes i).send (decide (result = .ok true)))
      | _ => stepped
  | _ => stepped

/-- One step. -/
def step (controllers : List Controller) (c : Cluster) : ClusterStep → Cluster
  | .election s => c.electionStep s
  | .panic i =>
      { c with election := c.election.step (.stop i) }.set i { c.processes i with closed := true }
  | .gate i => c.set i ((c.processes i).gateStep controllers)
  | .task i k event =>
      c.set i { c.processes i with tasks := nextAt event k (c.processes i).tasks }

end Cluster

/-! ## What a process keeps -/

theorem currentOf_append (l₁ l₂ : List ControllerTask) :
    currentOf (l₁ ++ l₂) = currentOf l₁ ++ currentOf l₂ := by
  unfold currentOf
  rw [List.filter_append, List.map_append]

theorem currentOf_next (t : ControllerTask) (event : TaskEvent) :
    currentOf (t.next event).toList = currentOf [t] := by
  obtain ⟨controller, state⟩ := t
  cases state <;> cases event <;> rfl

/-- What a task does by itself leaves the set of controllers as it is. -/
theorem currentOf_nextAt (event : TaskEvent) (tasks : List ControllerTask) :
    ∀ k, currentOf (nextAt event k tasks) = currentOf tasks := by
  induction tasks with
  | nil => intro k; cases k <;> rfl
  | cons t rest ih =>
      intro k
      cases k with
      | zero =>
          show currentOf ((t.next event).toList ++ rest) = currentOf ([t] ++ rest)
          rw [currentOf_append, currentOf_append, currentOf_next]
      | succ k =>
          show currentOf ([t] ++ nextAt event k rest) = currentOf ([t] ++ rest)
          rw [currentOf_append, currentOf_append, ih k]

/-- An abort takes the first controller, if there is one. -/
theorem abortNext_spec (tasks : List ControllerTask) :
    match abortNext tasks with
    | none => currentOf tasks = []
    | some left => ∃ c, currentOf tasks = c :: currentOf left := by
  induction tasks with
  | nil => rfl
  | cons t rest ih =>
      obtain ⟨controller, state⟩ := t
      unfold abortNext
      cases state with
      | aborted =>
          show match (abortNext rest).map (_ :: ·) with
            | none => currentOf rest = []
            | some left => ∃ c, currentOf rest = c :: currentOf left
          cases h : abortNext rest with
          | none =>
              rw [h] at ih
              exact ih
          | some left =>
              rw [h] at ih
              exact ih
      | idle => exact ⟨controller, rfl⟩
      | polled => exact ⟨controller, rfl⟩
      | ended => exact ⟨controller, rfl⟩

namespace ServerProcess

variable {controllers : List Controller} {p : ServerProcess}

/-- No controllers, and the flag is down. -/
def Stopped (p : ServerProcess) : Prop := p.current = [] ∧ p.isLeader = false

/-- All controllers, and the flag is up. -/
def Running (controllers : List Controller) (p : ServerProcess) : Prop :=
  p.current = controllers ∧ p.isLeader = true

/-- What holds at a place of the gate. -/
def HoldsAt (controllers : List Controller) (p : ServerProcess) : GatePoint → Prop
  | .off => p.closed = true ∧ p.Stopped
  | .checkLeader => p.Stopped
  | .awaitLeader => p.Stopped ∧ (p.seen = p.version → p.value = false)
  | .raise => p.Stopped
  | .starting left => p.current ++ left = controllers ∧ p.isLeader = true
  | .checkLost => p.Running controllers
  | .awaitLost => p.Running controllers ∧ (p.seen = p.version → p.value = true)
  | .lower => p.Running controllers
  | .aborting => p.current <:+ controllers ∧ p.isLeader = false
  | .returned => p.closed = true ∧ (p.Stopped ∨ p.Running controllers)

/-- The invariant of a process. -/
structure Sound (controllers : List Controller) (p : ServerProcess) : Prop where
  seen_le : p.seen ≤ p.version
  place : p.HoldsAt controllers p.gate

theorem sound_down : Sound controllers down := ⟨le_rfl, rfl, rfl, rfl⟩

theorem sound_booted : Sound controllers booted := ⟨le_rfl, rfl, rfl⟩

/-- It is about the controllers, the flag and the channel. -/
theorem HoldsAt.congr {q : ServerProcess} (hcurrent : q.current = p.current)
    (hisLeader : q.isLeader = p.isLeader) (hclosed : q.closed = p.closed)
    (hseen : q.seen = p.seen) (hversion : q.version = p.version) (hvalue : q.value = p.value)
    {gate : GatePoint} (h : p.HoldsAt controllers gate) : q.HoldsAt controllers gate := by
  cases gate <;>
    simpa only [HoldsAt, Stopped, Running, hcurrent, hisLeader, hclosed, hseen, hversion, hvalue]
      using h

theorem Sound.task (h : p.Sound controllers) (event : TaskEvent) (k : ℕ) :
    Sound controllers { p with tasks := nextAt event k p.tasks } := by
  have hcurrent : current { p with tasks := nextAt event k p.tasks } = p.current :=
    currentOf_nextAt event p.tasks k
  exact ⟨h.seen_le, h.place.congr hcurrent rfl rfl rfl rfl rfl⟩

theorem Sound.close (h : p.Sound controllers) : Sound controllers { p with closed := true } := by
  refine ⟨h.seen_le, ?_⟩
  have hplace := h.place
  show HoldsAt controllers { p with closed := true } p.gate
  cases hgate : p.gate with
  | off =>
      rw [hgate] at hplace
      exact ⟨rfl, hplace.2⟩
  | returned =>
      rw [hgate] at hplace
      exact ⟨rfl, hplace.2⟩
  | _ =>
      rw [hgate] at hplace
      exact hplace

/-- What is sent has not been seen. -/
theorem Sound.send (h : p.Sound controllers) (value : Bool) : Sound controllers (p.send value) := by
  have hunseen : p.seen ≠ p.version + 1 := by have := h.seen_le; omega
  refine ⟨h.seen_le.trans (Nat.le_succ _), ?_⟩
  have hplace := h.place
  show HoldsAt controllers (p.send value) p.gate
  cases hgate : p.gate with
  | awaitLeader =>
      rw [hgate] at hplace
      exact ⟨hplace.1, fun hseen => absurd hseen hunseen⟩
  | awaitLost =>
      rw [hgate] at hplace
      exact ⟨hplace.1, fun hseen => absurd hseen hunseen⟩
  | _ =>
      rw [hgate] at hplace
      exact hplace

theorem Sound.changed (h : p.Sound controllers) {gate : GatePoint}
    (hgate : HoldsAt controllers { p with seen := p.version, gate := gate } gate)
    (hreturned : p.Stopped ∨ p.Running controllers) : Sound controllers (p.changed gate) := by
  unfold ServerProcess.changed
  split_ifs with hseen hclosed
  · exact ⟨le_rfl, hgate⟩
  · exact ⟨h.seen_le, hclosed, hreturned⟩
  · exact h

/-- **A step of the gate.** -/
theorem Sound.gateStep (h : p.Sound controllers) : Sound controllers (p.gateStep controllers) := by
  obtain ⟨value, version, closed, seen, gate, isLeader, tasks⟩ := p
  obtain ⟨hle, hplace⟩ := h
  cases gate with
  | off => exact ⟨hle, hplace⟩
  | returned => exact ⟨hle, hplace⟩
  | checkLeader =>
      cases value with
      | true => exact ⟨hle, hplace⟩
      | false => exact ⟨hle, hplace, fun _ => rfl⟩
  | awaitLeader => exact Sound.changed ⟨hle, hplace⟩ hplace.1 (.inl hplace.1)
  | raise =>
      have hcurrent : currentOf tasks = [] := hplace.1
      refine ⟨hle, ?_, rfl⟩
      show currentOf tasks ++ controllers = controllers
      rw [hcurrent, List.nil_append]
  | starting left =>
      obtain ⟨hcurrent, hflag⟩ := hplace
      cases left with
      | nil => exact ⟨hle, (List.append_nil _).symm.trans hcurrent, hflag⟩
      | cons c left =>
          refine ⟨hle, ?_, hflag⟩
          -- the controller that starts moves from what is left to what runs
          show currentOf (tasks ++ [⟨c, .idle⟩]) ++ left = controllers
          rw [currentOf_append, List.append_assoc]
          exact hcurrent
  | checkLost =>
      cases value with
      | true => exact ⟨hle, hplace, fun _ => rfl⟩
      | false => exact ⟨hle, hplace⟩
  | awaitLost => exact Sound.changed ⟨hle, hplace⟩ hplace.1 (.inr hplace.1)
  | lower =>
      have hcurrent : currentOf tasks = controllers := hplace.1
      exact ⟨hle, hcurrent ▸ List.suffix_rfl, rfl⟩
  | aborting =>
      obtain ⟨hcurrent, hflag⟩ := hplace
      have hspec := abortNext_spec tasks
      unfold ServerProcess.gateStep
      dsimp only
      cases hnext : abortNext tasks with
      | none =>
          rw [hnext] at hspec
          exact ⟨hle, hspec, hflag⟩
      | some left =>
          rw [hnext] at hspec
          obtain ⟨c, hcons⟩ := hspec
          refine ⟨hle, (List.suffix_cons c (currentOf left)).trans ?_, hflag⟩
          rw [← hcons]
          exact hcurrent

/-- Whatever its gate is doing, a server has no controller twice. -/
theorem Sound.part_of (h : p.Sound controllers) : p.current <:+: controllers := by
  have hplace := h.place
  have hnil : p.current = [] → p.current <:+: controllers := fun hc => hc ▸ List.nil_infix
  have hall : p.current = controllers → p.current <:+: controllers := fun hc => hc ▸ List.infix_rfl
  cases hgate : p.gate with
  | off => exact hnil (by rw [hgate] at hplace; exact hplace.2.1)
  | checkLeader => exact hnil (by rw [hgate] at hplace; exact hplace.1)
  | awaitLeader => exact hnil (by rw [hgate] at hplace; exact hplace.1.1)
  | raise => exact hnil (by rw [hgate] at hplace; exact hplace.1)
  | starting left =>
      rw [hgate] at hplace
      exact List.IsPrefix.isInfix ⟨left, hplace.1⟩
  | checkLost => exact hall (by rw [hgate] at hplace; exact hplace.1)
  | awaitLost => exact hall (by rw [hgate] at hplace; exact hplace.1.1)
  | lower => exact hall (by rw [hgate] at hplace; exact hplace.1)
  | aborting =>
      rw [hgate] at hplace
      exact hplace.1.isInfix
  | returned =>
      rw [hgate] at hplace
      exact hplace.2.elim (fun hs => hnil hs.1) fun hr => hall hr.1

/-- At rest the controllers run, and the flag of `AppState` is up, as the channel says. -/
theorem Sound.settled (h : p.Sound controllers) (hs : p.Settled) :
    p.current = (if p.value then controllers else []) ∧ p.isLeader = p.value := by
  have hplace := h.place
  obtain ⟨hgate | hgate, hseen, -⟩ := hs
  · rw [hgate] at hplace
    rw [hplace.2 hseen]
    exact hplace.1
  · rw [hgate] at hplace
    rw [hplace.2 hseen]
    exact hplace.1

/-! ## A gate that is left alone -/

/-- The steps that a gate needs to come to a rest. -/
def toSettle (controllers : List Controller) (p : ServerProcess) : ℕ :=
  let unread := if p.seen = p.version then 0 else 2
  match p.gate, p.value with
  | .off, _ => 0
  | .checkLeader, true => controllers.length + 4 + unread
  | .checkLeader, false => 1 + unread
  | .awaitLeader, true => if p.seen = p.version then 0 else controllers.length + 5
  | .awaitLeader, false => unread
  | .raise, true => controllers.length + 3 + unread
  | .raise, false => 2 * controllers.length + 6 + unread
  | .starting left, true => left.length + 2 + unread
  | .starting left, false => left.length + controllers.length + 5 + unread
  | .checkLost, true => 1 + unread
  | .checkLost, false => controllers.length + 4 + unread
  | .awaitLost, true => unread
  | .awaitLost, false => if p.seen = p.version then 0 else controllers.length + 5
  | .lower, true => 2 * controllers.length + 6 + unread
  | .lower, false => controllers.length + 3 + unread
  | .aborting, true => p.current.length + controllers.length + 5 + unread
  | .aborting, false => p.current.length + 2 + unread
  | .returned, _ => 0

/-- A gate reads the channel and does not close it. -/
theorem gateStep_channel :
    (p.gateStep controllers).value = p.value ∧ (p.gateStep controllers).closed = p.closed := by
  unfold ServerProcess.gateStep ServerProcess.changed
  repeat' split
  all_goals exact ⟨rfl, rfl⟩

/-- A gate at rest waits. -/
theorem Settled.gateStep (hs : p.Settled) : p.gateStep controllers = p := by
  obtain ⟨hgate | hgate, hseen, hclosed⟩ := hs
  · unfold ServerProcess.gateStep ServerProcess.changed
    simp [hgate, hseen, hclosed]
  · unfold ServerProcess.gateStep ServerProcess.changed
    simp [hgate, hseen, hclosed]

/-- **Progress.**  A gate that is not at rest comes closer to it. -/
theorem Sound.progress (h : p.Sound controllers) (hclosed : p.closed = false)
    (hs : ¬p.Settled) : toSettle controllers (p.gateStep controllers) < toSettle controllers p := by
  have hplace := h.place
  have hopen : p.closed ≠ true := by rw [hclosed]; exact Bool.false_ne_true
  have hunread : p.gate = .awaitLeader ∨ p.gate = .awaitLost → p.seen ≠ p.version :=
    fun hgate hseen => hs ⟨hgate, hseen, hclosed⟩
  unfold ServerProcess.gateStep
  cases hgate : p.gate with
  | off =>
      rw [hgate] at hplace
      exact absurd hplace.1 hopen
  | returned =>
      rw [hgate] at hplace
      exact absurd hplace.1 hopen
  | checkLeader => cases hvalue : p.value <;> simp [toSettle, hgate, hvalue]
  | awaitLeader =>
      have hne := hunread (.inl hgate)
      cases hvalue : p.value <;> simp [ServerProcess.changed, toSettle, hgate, hvalue, hne]
  | raise =>
      cases hvalue : p.value <;> simp only [toSettle, hgate, hvalue] <;> omega
  | starting left =>
      cases left <;> cases hvalue : p.value <;>
        simp only [toSettle, hgate, hvalue, List.length_nil, List.length_cons] <;> omega
  | checkLost => cases hvalue : p.value <;> simp [toSettle, hgate, hvalue]
  | awaitLost =>
      have hne := hunread (.inr hgate)
      cases hvalue : p.value <;> simp [ServerProcess.changed, toSettle, hgate, hvalue, hne]
  | lower =>
      rw [hgate] at hplace
      have hlength : p.current.length = controllers.length := by rw [hplace.1]
      unfold ServerProcess.current at hlength
      cases hvalue : p.value <;>
        simp only [toSettle, ServerProcess.current, hgate, hvalue, hlength] <;> omega
  | aborting =>
      have hspec := abortNext_spec p.tasks
      cases hnext : abortNext p.tasks with
      | none =>
          rw [hnext] at hspec
          cases hvalue : p.value <;>
            simp [toSettle, ServerProcess.current, hgate, hvalue, hspec]
      | some left =>
          rw [hnext] at hspec
          obtain ⟨c, hcurrent⟩ := hspec
          cases hvalue : p.value <;>
            simp [toSettle, ServerProcess.current, hgate, hvalue, hcurrent]

theorem Sound.toSettle_le (h : p.Sound controllers) :
    toSettle controllers p ≤ 2 * controllers.length + 8 := by
  have hcurrent : p.current.length ≤ controllers.length := h.part_of.length_le
  have hplace := h.place
  cases hgate : p.gate with
  | starting left =>
      rw [hgate] at hplace
      have hleft : left.length ≤ controllers.length := by
        rw [← hplace.1, List.length_append]
        omega
      cases hvalue : p.value <;> simp only [toSettle, hgate, hvalue] <;> split <;> omega
  | off => simp [toSettle, hgate]
  | returned => simp [toSettle, hgate]
  | _ => cases hvalue : p.value <;> simp only [toSettle, hgate, hvalue] <;> split <;> omega

/-- **A gate settles.** -/
theorem Sound.settles {m : ℕ} : ∀ {p : ServerProcess}, p.Sound controllers → p.closed = false →
    toSettle controllers p ≤ m → Settled ((ServerProcess.gateStep · controllers)^[m] p) := by
  induction m with
  | zero =>
      intro p h hclosed hm
      by_contra hs
      exact absurd (h.progress hclosed hs) (by omega)
  | succ m ih =>
      intro p h hclosed hm
      rw [Function.iterate_succ_apply]
      refine ih h.gateStep (gateStep_channel.2.trans hclosed) ?_
      by_cases hs : p.Settled
      · -- nothing is left to do, and nothing is done
        have hzero : toSettle controllers p = 0 := by
          obtain ⟨hgate | hgate, hseen, -⟩ := hs <;> cases hvalue : p.value <;>
            simp [toSettle, hgate, hseen, hvalue]
        rw [hs.gateStep, hzero]
        exact Nat.zero_le m
      · have := h.progress hclosed hs
        omega

end ServerProcess

/-! ## The election under the gates -/

namespace Election

/-- A server's flag stays as it is, and a server that is down stays down. -/
def KeepsFlags (e e' : Election) : Prop :=
  ∀ i, (e'.servers i).isLeader = (e.servers i).isLeader ∧
    (e.servers i = ⟨.down, false⟩ → e'.servers i = ⟨.down, false⟩)

theorem keepsFlags_goto (e : Election) (lease : Option Lease) {j : String} (phase : ElectionPhase)
    (hj : (e.servers j).phase ≠ .down) :
    KeepsFlags e ({ e with lease := lease }.goto j phase) := by
  intro i
  unfold goto Election.set
  by_cases hij : i = j
  · subst hij
    refine ⟨by simp, fun hdown => absurd (congrArg ElectionServer.phase hdown) hj⟩
  · simp [Function.update_of_ne hij]

/-- Only a start, a stop and the end of a call change a flag. -/
theorem keepsFlags_step (e : Election) {s : ElectionStep}
    (hs : ∀ i, s ≠ .start i ∧ s ≠ .stop i ∧ s ≠ .finish i) : KeepsFlags e (e.step s) := by
  have hrefl : KeepsFlags e e := fun i => ⟨rfl, id⟩
  cases s with
  | tick elapsed => exact fun i => ⟨rfl, id⟩
  | start i => exact absurd rfl (hs i).1
  | stop i => exact absurd rfl (hs i).2.1
  | finish i => exact absurd rfl (hs i).2.2
  | call i =>
      simp only [Election.step]
      split
      case h_1 hphase => exact keepsFlags_goto e e.lease _ (by simp [hphase])
      case h_2 => exact hrefl
  | get i ok =>
      simp only [Election.step]
      split
      case h_1 hphase =>
          have hup : (e.servers i).phase ≠ .down := by simp [hphase]
          split
          · exact keepsFlags_goto e e.lease _ hup
          · exact keepsFlags_goto e e.lease _ hup
      case h_2 => exact hrefl
  | test i =>
      simp only [Election.step]
      split
      case h_1 hphase =>
          have hup : (e.servers i).phase ≠ .down := by simp [hphase]
          split
          · exact keepsFlags_goto e e.lease _ hup
          · exact keepsFlags_goto e e.lease _ hup
      case h_2 => exact hrefl
  | put i outcome =>
      simp only [Election.step]
      split
      case h_1 hphase => exact keepsFlags_goto e _ _ (by simp [hphase])
      case h_2 => exact hrefl

end Election

namespace Cluster

variable {controllers : List Controller} {c : Cluster}

/-- The channel has the flag of the election, until the election's task is gone. -/
def Linked (p : ServerProcess) (server : ElectionServer) : Prop :=
  if p.closed then server = ⟨.down, false⟩ else p.value = server.isLeader

/-- The invariant of all runs. -/
structure Wired (controllers : List Controller) (c : Cluster) : Prop where
  sound : ∀ i, (c.processes i).Sound controllers
  linked : ∀ i, Linked (c.processes i) (c.election.servers i)

theorem wired_init : Wired controllers init where
  sound _ := ServerProcess.sound_down
  linked _ := rfl

/-- One server's process moves on, and the others' elections do not. -/
theorem Wired.set (h : c.Wired controllers) {e : Election} {i : String} {p : ServerProcess}
    (hsound : p.Sound controllers) (hlinked : Linked p (e.servers i))
    (hothers : ∀ j, j ≠ i → e.servers j = c.election.servers j) :
    Wired controllers ({ c with election := e }.set i p) := by
  constructor
  · intro j
    by_cases hj : j = i
    · subst hj
      simpa [Cluster.set] using hsound
    · simpa [Cluster.set, Function.update_of_ne hj] using h.sound j
  · intro j
    by_cases hj : j = i
    · subst hj
      simpa [Cluster.set] using hlinked
    · simpa [Cluster.set, Function.update_of_ne hj, hothers j hj] using h.linked j

theorem Linked.keepsFlags {p : ServerProcess} {e e' : Election} (he : e.KeepsFlags e') {i : String}
    (h : Linked p (e.servers i)) : Linked p (e'.servers i) := by
  unfold Linked at h ⊢
  split_ifs with hclosed
  · rw [if_pos hclosed] at h
    exact (he i).2 h
  · rw [if_neg hclosed] at h
    exact h.trans (he i).1.symm

theorem Wired.electionStep (h : c.Wired controllers) (s : ElectionStep) :
    (c.electionStep s).Wired controllers := by
  have hquiet : (∀ i, s ≠ .start i ∧ s ≠ .stop i ∧ s ≠ .finish i) →
      Wired controllers { c with election := c.election.step s } := fun hs =>
    ⟨h.sound, fun i => (h.linked i).keepsFlags (c.election.keepsFlags_step hs)⟩
  cases s with
  | start i =>
      simp only [Cluster.electionStep]
      split
      case h_1 hgate =>
          have hplace := (h.sound i).place
          rw [hgate] at hplace
          have hdown : c.election.servers i = ⟨.down, false⟩ := by
            have hlinked := h.linked i
            unfold Linked at hlinked
            rwa [if_pos hplace.1] at hlinked
          refine h.set ServerProcess.sound_booted ?_ fun j hj => ?_
          · simp [Linked, ServerProcess.booted, Election.step, hdown, Election.set]
          · simp [Election.step, hdown, Election.set, Function.update_of_ne hj]
      case h_2 => exact h
  | stop i =>
      refine h.set ServerProcess.sound_down ?_ fun j hj => ?_
      · simp [Linked, ServerProcess.down, Election.step, Election.set]
      · simp [Election.step, Election.set, Function.update_of_ne hj]
  | finish i =>
      simp only [Cluster.electionStep]
      split
      case h_1 now result hphase =>
          have hopen : (c.processes i).closed = false := by
            by_contra hclosed
            have hlinked := h.linked i
            unfold Linked at hlinked
            rw [if_pos (by simpa using hclosed)] at hlinked
            rw [hlinked] at hphase
            cases hphase
          refine h.set ((h.sound i).send _) ?_ fun j hj => ?_
          · simp [Linked, ServerProcess.send, hopen, Election.step, hphase, Election.set]
          · simp [Election.step, hphase, Election.set, Function.update_of_ne hj]
      case h_2 hphase =>
          have hsame : c.election.step (.finish i) = c.election := by simp only [Election.step]
          rw [hsame]
          exact h
  | tick elapsed => exact hquiet (by simp)
  | call i => exact hquiet (by simp)
  | get i ok => exact hquiet (by simp)
  | test i => exact hquiet (by simp)
  | put i outcome => exact hquiet (by simp)

/-- **One step.** -/
theorem Wired.step (h : c.Wired controllers) (s : ClusterStep) :
    (c.step controllers s).Wired controllers := by
  cases s with
  | election s => exact h.electionStep s
  | panic i =>
      refine h.set (h.sound i).close ?_ fun j hj => ?_
      · simp [Linked, Election.step, Election.set]
      · simp [Election.step, Election.set, Function.update_of_ne hj]
  | gate i =>
      refine h.set (h.sound i).gateStep ?_ fun j _ => rfl
      have hlinked := h.linked i
      unfold Linked at hlinked ⊢
      rwa [ServerProcess.gateStep_channel.1, ServerProcess.gateStep_channel.2]
  | task i k event => exact h.set ((h.sound i).task event k) (h.linked i) fun j _ => rfl

theorem wired_run (steps : List ClusterStep) :
    (run (step controllers) init steps).Wired controllers :=
  invariant_run (Wired controllers) (fun _ s _ h => h.step s) wired_init
    (admitted_true (step controllers) init steps)

/-- A gate that is left alone for a while. -/
theorem run_gate (c : Cluster) (i : String) (m : ℕ) :
    (run (step controllers) c (List.replicate m (.gate i))).election = c.election ∧
      (run (step controllers) c (List.replicate m (.gate i))).processes i =
        (ServerProcess.gateStep · controllers)^[m] (c.processes i) := by
  induction m generalizing c with
  | zero => exact ⟨rfl, rfl⟩
  | succ m ih =>
      rw [List.replicate_succ, run_cons, Function.iterate_succ_apply]
      obtain ⟨helection, hprocess⟩ := ih (c.step controllers (.gate i))
      refine ⟨helection, hprocess.trans ?_⟩
      simp [step, Cluster.set]

/-- A server whose gate is at rest runs the controllers if and only if its flag is up. -/
theorem Wired.settled (h : c.Wired controllers) {i : String} (hs : (c.processes i).Settled) :
    (c.processes i).current = (if (c.election.servers i).isLeader then controllers else []) ∧
      (c.processes i).isLeader = (c.election.servers i).isLeader := by
  have hlinked := h.linked i
  unfold Linked at hlinked
  rw [if_neg (by rw [hs.2.2]; exact Bool.false_ne_true)] at hlinked
  rw [← hlinked]
  exact (h.sound i).settled hs

/-- The calls of the election are on time and guarded. -/
def Admits (c : Cluster) : ClusterStep → Prop
  | .election s => c.election.OnSchedule s ∧ c.election.Guarded s
  | _ => True

theorem inv_step (h : c.election.Inv) {s : ClusterStep} (hs : c.Admits s) :
    (c.step controllers s).election.Inv := by
  cases s with
  | election s =>
      have hinv := h.step hs.1 hs.2
      show (c.electionStep s).election.Inv
      cases s with
      | start i =>
          simp only [Cluster.electionStep]
          split
          · exact hinv
          · exact h
      | finish i =>
          simp only [Cluster.electionStep]
          split
          · exact hinv
          · exact hinv
      | _ => exact hinv
  | panic i => exact (h.step trivial trivial : (c.election.step (.stop i)).Inv)
  | gate i => exact h
  | task i k event => exact h

/-- At rest, controllers run on one server. -/
def OneRuns (c : Cluster) : Prop :=
  ∀ i j, (c.processes i).Settled → (c.processes j).Settled →
    (c.processes i).current ≠ [] → (c.processes j).current ≠ [] → i = j

/-- **Controllers on one server.**  In every run in which the calls of the election are on time and
guarded, at no time two servers whose gates are at rest have controllers that are not aborted. -/
theorem controllers_on_one_server (backupDir : Option String) {steps : List ClusterStep}
    (h : Admitted (step (leaderControllers backupDir)) Admits init steps) :
    Along (step (leaderControllers backupDir)) OneRuns init steps := by
  have halong := along_of_admitted
    (fun c => c.Wired (leaderControllers backupDir) ∧ c.election.Inv)
    (fun c s hok hc => ⟨hc.1.step s, inv_step hc.2 hok⟩) ⟨wired_init, Election.inv_init⟩ h
  refine halong.mono fun c hc i j hi hj hrunsi hrunsj => hc.2.oneLeader i j ?_ ?_
  · by_contra hflag
    rw [(hc.1.settled hi).1, if_neg hflag] at hrunsi
    exact hrunsi rfl
  · by_contra hflag
    rw [(hc.1.settled hj).1, if_neg hflag] at hrunsj
    exact hrunsj rfl

/-- A server that comes up, becomes the leader and starts its controllers. -/
def elected (serverId : String) (gateSteps : ℕ) : List ClusterStep :=
  .election (.start serverId) :: (Election.acquire serverId).map .election ++
    List.replicate gateSteps (.gate serverId)

theorem controllers_on_one_server_elected :
    let c := run (step (leaderControllers none)) init (elected "a" 16)
    (c.processes "a").Settled ∧ (c.processes "a").current = leaderControllers none ∧
      Along (step (leaderControllers none)) OneRuns init (elected "a" 16) := by
  refine ⟨by decide, by decide, controllers_on_one_server none ?_⟩
  simp [elected, Election.acquire, List.replicate, Admitted, Admits, Election.OnSchedule,
    Election.Guarded, step, electionStep, Cluster.set, Election.step, Election.goto, Election.set,
    init, Election.init, leaseToWrite, newLease, PutOutcome.landed, ServerProcess.down]

end Cluster

end K3rs
