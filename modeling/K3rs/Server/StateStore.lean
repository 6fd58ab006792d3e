import K3rs.Lib.KeyValue
import K3rs.Lib.Transition
import K3rs.Server.EventLog

/-!
# The state store and its event log

`StateStore::put` and `delete` write to the database and then emit an event; each of the two
is atomic, and other calls may come in between.  The state keeps the calls that have written
and not yet emitted, and two history variables: all events that were emitted, and all
mutations in the order in which they were written.

The contents of the database are the written mutations over the initial contents, and once
all calls have returned the events are a permutation of them.  So what remains to compare is,
for each key, which mutation came last in either order (`store_log_agree_iff`).
-/

namespace K3rs

open Transition

/-- A call of `StateStore::put` or `StateStore::delete`. -/
inductive Mutation where
  | put (key : String) (value : List UInt8)
  | delete (key : String)
  deriving DecidableEq, Repr

/-- The contents of the database. -/
abbrev Database := KeyValue String (List UInt8)

namespace Mutation

/-- The key that is written. -/
def key : Mutation → String
  | put key _ => key
  | delete key => key

/-- What is under the key then. -/
def result : Mutation → Option (List UInt8)
  | put _ value => some value
  | delete _ => none

/-- The write to the database. -/
def apply (db : Database) : Mutation → Database
  | put key value => db.insert key value
  | delete key => db.erase key

/-- The type of the event that the call emits. -/
def eventType : Mutation → EventType
  | put _ _ => .put
  | delete _ => .delete

/-- A mutation is its key and what it leaves there. -/
theorem eq_of_key_result {m m' : Mutation} (hkey : m.key = m'.key)
    (hresult : m.result = m'.result) : m = m' := by
  cases m <;> cases m' <;> simp_all [key, result]

theorem lookup_apply (db : Database) (m : Mutation) (k : String) :
    (m.apply db).lookup k = if k = m.key then m.result else db.lookup k := by
  cases m with
  | put key value => exact db.lookup_insert key k value
  | delete key => exact db.lookup_erase key k

/-- The last of some mutations that writes a key. -/
def lastOn (k : String) (ms : List Mutation) : Option Mutation :=
  ms.reverse.find? fun m => decide (m.key = k)

theorem lastOn_concat (k : String) (ms : List Mutation) (m : Mutation) :
    lastOn k (ms ++ [m]) = if m.key = k then some m else lastOn k ms := by
  rw [lastOn, List.reverse_append]
  simp only [List.reverse_singleton, List.singleton_append, List.find?_cons]
  split_ifs with h
  · simp [h]
  · simp [h, lastOn]

theorem lastOn_isSome {k : String} {ms : List Mutation} :
    (lastOn k ms).isSome ↔ ∃ m ∈ ms, m.key = k := by
  simp [lastOn, List.find?_isSome]

theorem key_of_lastOn {k : String} {ms : List Mutation} {m : Mutation} (h : lastOn k ms = some m) :
    m.key = k := by simpa using List.find?_some h

/-- What some mutations leave under a key is what the last one that writes it does. -/
theorem lookup_foldl_apply (k : String) (ms : List Mutation) (db : Database) :
    KeyValue.lookup (ms.foldl apply db) k =
      ((lastOn k ms).map result).getD (db.lookup k) := by
  induction ms using List.reverseRecOn with
  | nil => rfl
  | append_singleton ms m ih =>
      rw [List.foldl_append, List.foldl_cons, List.foldl_nil, lookup_apply, lastOn_concat]
      by_cases h : m.key = k
      · rw [if_pos h.symm, if_pos h]
        rfl
      · rw [if_neg (Ne.symm h), if_neg h]
        exact ih

end Mutation

/-- The mutation that an event tells of. -/
def WatchEvent.mutation (e : WatchEvent) : Mutation :=
  match e.eventType with
  | .put => .put e.key (e.value.getD [])
  | .delete => .delete e.key

/-- Replaying events over some contents. -/
def replay (db : Database) (events : List WatchEvent) : Database :=
  (events.map WatchEvent.mutation).foldl Mutation.apply db

/-- `StateStore` and the calls under way. -/
structure StateStore where
  db : Database
  eventLog : EventLog
  /-- The calls that have written and not yet emitted. -/
  pending : List (ℕ × Mutation)
  /-- History variable: the events, in the order of their sequence numbers. -/
  emitted : List WatchEvent
  /-- History variable: the mutations, in the order of their writes. -/
  written : List Mutation

/-- The steps of the calls. -/
inductive StoreStep where
  /-- The write of a call, which the database may refuse. -/
  | write (call : ℕ) (m : Mutation) (ok : Bool)
  /-- The event of a call. -/
  | emit (call : ℕ)
  deriving DecidableEq, Repr

namespace StateStore

/-- `StateStore::new` on a database with some contents. -/
def new (db : Database) : StateStore where
  db := db
  eventLog := .new 10000
  pending := []
  emitted := []
  written := []

variable (st : StateStore)

/-- One step.  A refused write ends its call. -/
def step : StoreStep → StateStore
  | .write call m ok =>
      if ok = true ∧ call ∉ st.pending.map Prod.fst then
        { st with
          db := m.apply st.db
          pending := st.pending ++ [(call, m)]
          written := st.written ++ [m] }
      else st
  | .emit call =>
      match st.pending.find? fun c => decide (c.1 = call) with
      | some (_, m) =>
          { st with
            eventLog := st.eventLog.emit m.eventType m.key m.result
            pending := st.pending.eraseP fun c => decide (c.1 = call)
            emitted := st.emitted ++ [st.eventLog.nextEvent m.eventType m.key m.result] }
      | none => st

/-- The events are in the order of their sequence numbers, and replaying them over the initial
contents gives the database. -/
def Agrees (initial : Database) : Prop :=
  st.emitted.Pairwise (fun a b => a.seq < b.seq) ∧ replay initial st.emitted = st.db

/-- The last mutation of every key is also the last one that the log has for it. -/
def LastLogged : Prop :=
  ∀ key, Mutation.lastOn key (st.emitted.map WatchEvent.mutation) = Mutation.lastOn key st.written

/-- What holds in every state. -/
structure Inv (initial : Database) : Prop where
  increasing : st.emitted.Pairwise fun a b => a.seq < b.seq
  le_seq : ∀ e ∈ st.emitted, e.seq ≤ st.eventLog.seq
  contents : st.written.foldl Mutation.apply initial = st.db
  perm : (st.emitted.map WatchEvent.mutation ++ st.pending.map Prod.snd).Perm st.written

theorem inv_new (initial : Database) : (new initial).Inv initial where
  increasing := List.Pairwise.nil
  le_seq := by simp [new]
  contents := rfl
  perm := List.Perm.refl _

variable {st}

theorem mutation_nextEvent (log : EventLog) (m : Mutation) :
    (log.nextEvent m.eventType m.key m.result).mutation = m := by
  cases m <;> rfl

/-- **The step lemma.** -/
theorem Inv.step {initial : Database} (h : st.Inv initial) (s : StoreStep) :
    (st.step s).Inv initial := by
  cases s with
  | write call m ok =>
      simp only [StateStore.step]
      split_ifs with hok
      · refine ⟨h.increasing, h.le_seq, ?_, ?_⟩
        · rw [List.foldl_append, h.contents]
          rfl
        · rw [List.map_append, ← List.append_assoc]
          exact h.perm.append_right [m]
      · exact h
  | emit call =>
      simp only [StateStore.step]
      split
      case h_1 c m hfind =>
          have hnew : ∀ e ∈ st.emitted, e.seq < st.eventLog.seq + 1 :=
            fun e he => Nat.lt_succ_of_le (h.le_seq e he)
          refine ⟨?_, ?_, h.contents, ?_⟩
          · refine List.pairwise_append.mpr ⟨h.increasing, List.pairwise_singleton _ _, ?_⟩
            intro a ha b hb
            rw [List.mem_singleton.mp hb]
            exact hnew a ha
          · intro e he
            rcases List.mem_append.mp he with he | he
            · exact (hnew e he).le
            · rw [List.mem_singleton.mp he]
              exact le_rfl
          · -- the call moves from the pending ones to the events
            obtain ⟨hcall, before, after, hpending, hbefore⟩ :=
              List.find?_eq_some_iff_append.mp hfind
            have herase : st.pending.eraseP (fun c => decide (c.1 = call)) = before ++ after := by
              rw [hpending, List.eraseP_append_right _ fun b hb => by simpa using hbefore b hb,
                List.eraseP_cons, hcall, cond_true]
            have hperm := h.perm
            rw [hpending, List.map_append, List.map_cons] at hperm
            rw [herase, List.map_append, List.map_append, List.map_singleton, mutation_nextEvent,
              List.append_assoc]
            refine List.Perm.trans ?_ hperm
            refine List.Perm.append_left _ ?_
            rw [List.singleton_append]
            exact List.perm_middle.symm
      case h_2 => exact h

/-- **Log and store agree** once all calls have returned, if and only if for every key the
call that wrote it last and the call that was logged last for it leave the same there. -/
theorem store_log_agree_iff (initial : Database) (steps : List StoreStep)
    (hreturned : (run step (new initial) steps).pending = []) :
    (run step (new initial) steps).Agrees initial ↔ (run step (new initial) steps).LastLogged := by
  have hinv : (run step (new initial) steps).Inv initial :=
    invariant_run (fun st => st.Inv initial) (fun st s _ h => h.step s) (inv_new initial)
      (admitted_true step (new initial) steps)
  generalize run step (new initial) steps = st at hinv hreturned
  have hperm : (st.emitted.map WatchEvent.mutation).Perm st.written := by
    have h := hinv.perm
    rwa [hreturned, List.map_nil, List.append_nil] at h
  have hlast : ∀ key, (Mutation.lastOn key (st.emitted.map WatchEvent.mutation)).isSome ↔
      (Mutation.lastOn key st.written).isSome := by
    intro key
    rw [Mutation.lastOn_isSome, Mutation.lastOn_isSome]
    exact exists_congr fun m => and_congr_left fun _ => hperm.mem_iff
  rw [Agrees, and_iff_right hinv.increasing, replay, ← hinv.contents]
  constructor
  · intro heq key
    have hkey := congrArg (KeyValue.lookup · key) heq
    simp only [Mutation.lookup_foldl_apply] at hkey
    -- a key that was written is in both orders, and the last mutation is what it leaves
    cases hlog : Mutation.lastOn key (st.emitted.map WatchEvent.mutation) with
    | none =>
        cases hwrite : Mutation.lastOn key st.written with
        | none => rfl
        | some m => exact absurd ((hlast key).mpr (by rw [hwrite]; rfl)) (by rw [hlog]; simp)
    | some m =>
        cases hwrite : Mutation.lastOn key st.written with
        | none => exact absurd ((hlast key).mp (by rw [hlog]; rfl)) (by rw [hwrite]; simp)
        | some m' =>
            rw [hlog, hwrite] at hkey
            refine congrArg some (Mutation.eq_of_key_result ?_ hkey)
            rw [Mutation.key_of_lastOn hlog, Mutation.key_of_lastOn hwrite]
  · intro h
    refine KeyValue.ext_lookup fun key => ?_
    rw [Mutation.lookup_foldl_apply, Mutation.lookup_foldl_apply, h key]

/-- Two calls for different keys, with their events the other way round. -/
theorem store_log_agree_two_keys :
    (run step (new ∅) [.write 0 (.put "a" [49]) true, .write 1 (.put "b" [50]) true, .emit 1,
      .emit 0]).Agrees ∅ := by
  refine (store_log_agree_iff ∅ _ rfl).mpr fun key => ?_
  simp only [run, List.foldl, step, new]
  by_cases ha : "a" = key
  · subst ha
    rfl
  · by_cases hb : "b" = key
    · subst hb
      rfl
    · simp [Mutation.lastOn, Mutation.key, WatchEvent.mutation, EventLog.nextEvent,
        Mutation.eventType, ha, hb]

/-- Two calls for one key, written in one order and logged in the other. -/
theorem store_log_agree_fails_race :
    ¬ ∀ (initial : Database) (steps : List StoreStep),
      (run step (new initial) steps).pending = [] → (run step (new initial) steps).Agrees initial := by
  intro h
  have hagree := h ∅ [.write 0 (.put "a" [49]) true, .write 1 (.put "a" [50]) true, .emit 1,
    .emit 0] rfl
  have hkey := congrArg (KeyValue.lookup · "a") hagree.2
  revert hkey
  decide

end StateStore

end K3rs
