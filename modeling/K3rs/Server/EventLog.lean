import Mathlib.Data.List.DropRight
import K3rs.Lib.Broadcast

/-!
# The event log

`EventLog` numbers every change of the server's store and keeps the most recent ones for
clients that connect later.  Sequence numbers are 64-bit in the source and count writes to
a disk; they are natural numbers here.

The log's broadcast sender has no state of its own: what a `send` does to a subscriber is
`Broadcast.Receiver.send` with `channelCapacity`.
-/

namespace K3rs

open Broadcast

/-- `EventType`. -/
inductive EventType where
  | put
  | delete
  deriving DecidableEq, Repr

/-- `WatchEvent`. -/
structure WatchEvent where
  seq : ℕ
  eventType : EventType
  key : String
  value : Option (List UInt8)
  deriving DecidableEq, Repr

/-- `EventLogInner`. -/
structure EventLog where
  seq : ℕ
  /-- Recent events, oldest first. -/
  events : List WatchEvent
  maxEvents : ℕ
  deriving DecidableEq, Repr

/-- The size given to `broadcast::channel` in `EventLog::new`. -/
def channelCapacity : ℕ := 1024

namespace EventLog

/-- `EventLog::new`. -/
def new (maxEvents : ℕ) : EventLog where
  seq := 0
  events := []
  maxEvents := maxEvents

variable (log : EventLog)

/-- The event that the next `emit` records. -/
def nextEvent (eventType : EventType) (key : String) (value : Option (List UInt8)) :
    WatchEvent where
  seq := log.seq + 1
  eventType := eventType
  key := key
  value := value

/-- `EventLog::emit`, without the broadcast. -/
def emit (eventType : EventType) (key : String) (value : Option (List UInt8)) : EventLog :=
  -- ring buffer: remove the oldest if at capacity
  let kept := if log.events.length ≥ log.maxEvents then log.events.eraseIdx 0 else log.events
  { log with
    seq := log.seq + 1
    events := kept ++ [log.nextEvent eventType key value] }

/-- `EventLog::current_seq`. -/
def currentSeq : ℕ := log.seq

/-- `EventLog::events_since`. -/
def eventsSince (fromSeq : ℕ) : List WatchEvent :=
  log.events.filter fun e => decide (e.seq > fromSeq)

/-- The buffered events are in order and not newer than the counter. -/
structure Ordered : Prop where
  increasing : log.events.Pairwise fun a b => a.seq < b.seq
  le_seq : ∀ e ∈ log.events, e.seq ≤ log.seq

theorem ordered_new (maxEvents : ℕ) : (new maxEvents).Ordered where
  increasing := List.Pairwise.nil
  le_seq := by simp [new]

variable {log}

theorem Ordered.emit (h : log.Ordered) (eventType : EventType) (key : String)
    (value : Option (List UInt8)) : (log.emit eventType key value).Ordered := by
  have hkept : (if log.events.length ≥ log.maxEvents then log.events.eraseIdx 0
      else log.events).Sublist log.events := by
    split_ifs
    · exact List.eraseIdx_sublist log.events 0
    · exact List.Sublist.refl log.events
  constructor
  · refine List.pairwise_append.mpr ⟨h.increasing.sublist hkept, List.pairwise_singleton _ _, ?_⟩
    intro a ha b hb
    rw [List.mem_singleton.mp hb]
    exact Nat.lt_succ_of_le (h.le_seq a (hkept.subset ha))
  · intro e he
    rcases List.mem_append.mp he with he | he
    · exact Nat.le_succ_of_le (h.le_seq e (hkept.subset he))
    · rw [List.mem_singleton.mp he]
      exact le_rfl

/-! ## The window -/

/-- What an `emit` is called with. -/
structure Emission where
  eventType : EventType
  key : String
  value : Option (List UInt8)
  deriving DecidableEq, Repr

/-- The log after a sequence of `emit`s. -/
def emitAll (log : EventLog) (emissions : List Emission) : EventLog :=
  emissions.foldl (fun log m => log.emit m.eventType m.key m.value) log

/-- An event under its number. -/
def Emission.numbered (m : Emission) (seq : ℕ) : WatchEvent where
  seq := seq
  eventType := m.eventType
  key := m.key
  value := m.value

/-- The events of a sequence of `emit`s, numbered from 1. -/
def emittedEvents (emissions : List Emission) : List WatchEvent :=
  (emissions.zipIdx 1).map fun m => m.1.numbered m.2

@[simp] theorem length_emittedEvents (emissions : List Emission) :
    (emittedEvents emissions).length = emissions.length := by
  rw [emittedEvents, List.length_map, List.length_zipIdx]

theorem emittedEvents_concat (emissions : List Emission) (m : Emission) :
    emittedEvents (emissions ++ [m]) =
      emittedEvents emissions ++ [m.numbered (emissions.length + 1)] := by
  rw [emittedEvents, List.zipIdx_append, List.map_append, Nat.add_comm]
  rfl

/-- The numbers are contiguous and begin with 1. -/
theorem map_seq_emittedEvents (emissions : List Emission) :
    (emittedEvents emissions).map WatchEvent.seq = List.range' 1 emissions.length := by
  rw [emittedEvents, List.map_map]
  exact List.zipIdx_map_snd 1 emissions

/-- **The window law**: the counter is the number of emitted events, and the buffer holds the
last of them, as many as there is room for. -/
structure Windowed (log : EventLog) (emitted : List WatchEvent) : Prop where
  seq_eq : log.seq = emitted.length
  events_eq : log.events = emitted.rtake log.maxEvents

theorem windowed_new (maxEvents : ℕ) : (new maxEvents).Windowed [] where
  seq_eq := rfl
  events_eq := (List.rtake_nil maxEvents).symm

/-- One `emit`: the oldest event makes room for the new one. -/
theorem Windowed.emit {emitted : List WatchEvent} (h : log.Windowed emitted)
    (hroom : 1 ≤ log.maxEvents) (eventType : EventType) (key : String)
    (value : Option (List UInt8)) :
    (log.emit eventType key value).Windowed
      (emitted ++ [log.nextEvent eventType key value]) := by
  obtain ⟨k, hk⟩ := Nat.exists_eq_add_of_le' hroom
  have hkept : (if log.events.length ≥ log.maxEvents then log.events.eraseIdx 0
      else log.events) = emitted.rtake k := by
    rw [h.events_eq, hk, List.rtake, List.rtake, List.length_drop]
    split_ifs with hfull
    · rw [List.eraseIdx_zero, List.tail_drop]
      congr 1
      omega
    · -- not yet full: nothing has been dropped
      rw [Nat.sub_eq_zero_of_le (by omega), Nat.sub_eq_zero_of_le (by omega)]
  constructor
  · show log.seq + 1 = _
    rw [List.length_append, List.length_singleton, h.seq_eq]
  · show _ ++ _ = _
    rw [hkept]
    show _ = List.rtake _ log.maxEvents
    rw [hk, List.rtake_concat_succ]

/-- **A run of `emit`s.** -/
theorem windowed_emitAll {maxEvents : ℕ} (hroom : 1 ≤ maxEvents) (emissions : List Emission) :
    ((new maxEvents).emitAll emissions).maxEvents = maxEvents ∧
      ((new maxEvents).emitAll emissions).Windowed (emittedEvents emissions) := by
  induction emissions using List.reverseRecOn with
  | nil => exact ⟨rfl, windowed_new maxEvents⟩
  | append_singleton init m ih =>
      obtain ⟨hmax, hwindow⟩ := ih
      rw [emitAll, List.foldl_append, List.foldl_cons, List.foldl_nil, ← emitAll,
        emittedEvents_concat]
      refine ⟨hmax, ?_⟩
      have hseq := hwindow.seq_eq
      rw [length_emittedEvents] at hseq
      rw [← hseq]
      exact hwindow.emit (hroom.trans_eq hmax.symm) m.eventType m.key m.value

/-- What is dropped from the front of a numbered list is what has the smaller numbers. -/
theorem drop_eq_filter_seq : ∀ (emitted : List WatchEvent) (start n : ℕ),
    emitted.map WatchEvent.seq = List.range' (start + 1) emitted.length →
      emitted.drop n = emitted.filter fun e => decide (start + n < e.seq) := by
  intro emitted
  induction emitted with
  | nil => exact fun _ _ _ => List.drop_nil
  | cons e rest ih =>
      intro start n h
      rw [List.map_cons, List.length_cons, List.range'_succ, List.cons.injEq] at h
      obtain ⟨hseq, hrest⟩ := h
      cases n with
      | zero =>
          have hall : ∀ e' ∈ e :: rest, decide (start + 0 < e'.seq) = true := by
            intro e' he'
            have hmem : e'.seq ∈ List.range' (start + 1) (rest.length + 1) := by
              rw [List.range'_succ, ← hrest, ← hseq, ← List.map_cons]
              exact List.mem_map_of_mem he'
            rw [List.mem_range'_1] at hmem
            exact decide_eq_true hmem.1
          rw [List.filter_eq_self.mpr hall, List.drop_zero]
      | succ n =>
          have hfirst : decide (start + (n + 1) < e.seq) = false := by
            rw [hseq]
            exact decide_eq_false (by omega)
          rw [List.drop_succ_cons, List.filter_cons_of_neg (by rw [hfirst]; exact Bool.false_ne_true),
            ih (start + 1) n hrest]
          refine List.filter_congr fun e' _ => ?_
          rw [Nat.add_right_comm, Nat.add_assoc start n 1]

/-- **What a client is given.**  After any sequence of `emit`s the counter is their number, and
`events_since` returns those emitted events that are newer than what the client has seen and
have not been dropped, in order and each once; their numbers are contiguous and begin with 1. -/
theorem eventsSince_emitAll {maxEvents : ℕ} (hroom : 1 ≤ maxEvents) (emissions : List Emission)
    (fromSeq : ℕ) :
    ((new maxEvents).emitAll emissions).currentSeq = emissions.length ∧
      ((new maxEvents).emitAll emissions).eventsSince fromSeq =
        (emittedEvents emissions).filter (fun e =>
          decide (max fromSeq (emissions.length - maxEvents) < e.seq)) ∧
      (emittedEvents emissions).map WatchEvent.seq = List.range' 1 emissions.length := by
  obtain ⟨hmax, hwindow⟩ := windowed_emitAll hroom emissions
  have hseqs := map_seq_emittedEvents emissions
  refine ⟨hwindow.seq_eq.trans (length_emittedEvents emissions), ?_, hseqs⟩
  rw [← length_emittedEvents emissions] at hseqs
  rw [eventsSince, hwindow.events_eq, hmax, List.rtake, length_emittedEvents,
    drop_eq_filter_seq _ 0 _ hseqs, List.filter_filter]
  refine List.filter_congr fun e _ => ?_
  rw [← Bool.decide_and, decide_eq_decide, max_lt_iff, Nat.zero_add]

/-- Three events for a buffer of two. -/
theorem eventsSince_emitAll_three :
    1 ≤ 2 ∧ ((new 2).emitAll [⟨.put, "a", none⟩, ⟨.put, "b", none⟩, ⟨.delete, "a", none⟩]).currentSeq
        = 3 ∧
      ((new 2).emitAll [⟨.put, "a", none⟩, ⟨.put, "b", none⟩, ⟨.delete, "a", none⟩]).eventsSince 0 =
        (emittedEvents [⟨.put, "a", none⟩, ⟨.put, "b", none⟩, ⟨.delete, "a", none⟩]).filter
          (fun e => decide (max 0 (3 - 2) < e.seq)) ∧
      (emittedEvents [⟨.put, "a", none⟩, ⟨.put, "b", none⟩, ⟨.delete, "a", none⟩]).map
        WatchEvent.seq = List.range' 1 3 :=
  ⟨by decide, eventsSince_emitAll (by decide) _ 0⟩

end EventLog

end K3rs
