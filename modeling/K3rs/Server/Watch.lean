import K3rs.Lib.Transition
import K3rs.Server.EventLog

/-!
# Watch streams

`watch_events` first reads the buffered events and then subscribes to new ones; the stream
it returns is the buffered events followed by what the subscription yields, both filtered
by the client's key prefix.  The two calls are separate steps, and other requests may emit
between them.  Errors of the subscription are dropped from the stream.

`WatchState` is the event log together with one such stream: what the client has received,
and, as a history variable, the events that it is owed.
-/

namespace K3rs

open Broadcast Transition

/-! ## The handler -/

/-- `WatchQuery`. -/
structure WatchQuery where
  keyPrefix : Option String := none
  seq : Option ℕ := none
  deriving DecidableEq, Repr

namespace WatchQuery

variable (query : WatchQuery)

/-- `query.seq.unwrap_or(0)`. -/
def fromSeq : ℕ := query.seq.getD 0

/-- The filter of both halves of the stream. -/
def selects (e : WatchEvent) : Bool :=
  let text := query.keyPrefix.getD ""
  text.isEmpty || text.toList.isPrefixOf e.key.toList

/-- The client asked for this event. -/
def wants (e : WatchEvent) : Bool := decide (e.seq > query.fromSeq) && query.selects e

end WatchQuery

/-- How far `watch_events` has come. -/
inductive Watch where
  | requested
  /-- `events_since` has returned, `subscribe` has not been called. -/
  | buffered (events : List WatchEvent)
  /-- The stream: the rest of the buffered half, and the subscription. -/
  | streaming (bufferedStream : List WatchEvent) (rx : Receiver WatchEvent)
  deriving DecidableEq, Repr

/-- The log and one watch stream. -/
structure WatchState where
  log : EventLog
  watch : Watch
  /-- What the client has received. -/
  received : List WatchEvent
  /-- History variable: the events the client asked for that were in the buffer when
  `events_since` ran or were emitted later. -/
  due : List WatchEvent
  deriving DecidableEq, Repr

/-- Steps of the server and of the client. -/
inductive WatchStep where
  | emit (eventType : EventType) (key : String) (value : Option (List UInt8))
  | eventsSince
  | subscribe
  | read
  deriving DecidableEq, Repr

namespace Watch

/-- `watch_events` reads the buffer. -/
def eventsSince (query : WatchQuery) (log : EventLog) : Watch → Watch
  | requested => buffered (log.eventsSince query.fromSeq)
  | watch => watch

/-- `watch_events` subscribes and returns the stream. -/
def subscribe (query : WatchQuery) : Watch → Watch
  | buffered events => streaming (events.filter query.selects) {}
  | watch => watch

/-- An event reaches the subscription, if there is one. -/
def broadcast (e : WatchEvent) : Watch → Watch
  | streaming bufferedStream rx => streaming bufferedStream (rx.send channelCapacity e)
  | watch => watch

/-- The client polls the stream: its next event, if any, and the stream after it. -/
def read (query : WatchQuery) : Watch → List WatchEvent × Watch
  | streaming (e :: rest) rx => ([e], streaming rest rx)
  | streaming [] rx =>
      ((Receiver.message rx.recv.1).filter query.selects, streaming [] rx.recv.2)
  | watch => ([], watch)

/-- `events_since` has run. -/
def begun : Watch → Bool
  | requested => false
  | _ => true

end Watch

namespace WatchState

/-- The server has just been started: `StateStore::new` keeps 10 000 events. -/
def start : WatchState where
  log := EventLog.new 10000
  watch := .requested
  received := []
  due := []

/-- One step. -/
def step (query : WatchQuery) (st : WatchState) : WatchStep → WatchState
  | .emit eventType key value =>
      let e := st.log.nextEvent eventType key value
      { st with
        log := st.log.emit eventType key value
        watch := st.watch.broadcast e
        due := if st.watch.begun && query.wants e then st.due ++ [e] else st.due }
  | .eventsSince =>
      { st with
        watch := st.watch.eventsSince query st.log
        due := if st.watch.begun then st.due
          else (st.log.eventsSince query.fromSeq).filter query.wants }
  | .subscribe => { st with watch := st.watch.subscribe query }
  | .read =>
      { st with
        watch := (st.watch.read query).2
        received := st.received ++ (st.watch.read query).1 }

/-- **Delivery.**  The events owed are in increasing order of their numbers, what the client
received of them is a first part of them, and it receives all of them if it goes on
reading. -/
structure Delivers (query : WatchQuery) (st : WatchState) : Prop where
  increasing : st.due.Pairwise fun a b => a.seq < b.seq
  received_prefix : st.received.filter query.wants <+: st.due
  eventually : ∃ n, ∀ m ≥ n,
    (run (step query) st (.subscribe :: List.replicate m .read)).received.filter query.wants =
      st.due

/-- A step that loses no event the client asked for: nothing that matches is emitted between
`events_since` and `subscribe`, and none is pushed out of a full channel. -/
def KeepsUp (query : WatchQuery) (st : WatchState) : WatchStep → Prop
  | .emit eventType key value =>
      match st.watch with
      | .requested => True
      | .buffered _ => query.wants (st.log.nextEvent eventType key value) = false
      | .streaming _ rx =>
          rx.unread.length < channelCapacity ∨ ∀ e ∈ rx.unread.head?, query.wants e = false
  | _ => True

/-! ## What is still to come -/

variable {query : WatchQuery}

theorem filter_wants_selects (events : List WatchEvent) :
    (events.filter query.selects).filter query.wants = events.filter query.wants := by
  rw [List.filter_filter]
  congr 1
  funext e
  cases h : query.selects e with
  | true => rw [Bool.and_true]
  | false => simp [WatchQuery.wants, h]

end WatchState

namespace Watch

variable {query : WatchQuery}

/-- What the client asked for and the stream still holds. -/
def outstanding (query : WatchQuery) : Watch → List WatchEvent
  | requested => []
  | buffered events => events.filter query.wants
  | streaming bufferedStream rx => (bufferedStream ++ rx.unread).filter query.wants

/-- The number of reads that empty the stream. -/
def backlog : Watch → ℕ
  | streaming bufferedStream rx => bufferedStream.length + rx.backlog
  | _ => 0

theorem outstanding_subscribe (watch : Watch) :
    (watch.subscribe query).outstanding query = watch.outstanding query := by
  cases watch with
  | requested => rfl
  | buffered events =>
      simp only [subscribe, outstanding, List.append_nil]
      exact WatchState.filter_wants_selects events
  | streaming bufferedStream rx => rfl

/-- A read hands over the first event of the stream and keeps the rest. -/
theorem outstanding_read (watch : Watch) :
    (watch.read query).1.filter query.wants ++ (watch.read query).2.outstanding query =
      watch.outstanding query := by
  match watch with
  | requested => rfl
  | buffered events => rfl
  | streaming (e :: rest) rx => simp only [read, outstanding, ← List.filter_append]; rfl
  | streaming [] rx =>
      simp only [read, outstanding, List.nil_append]
      rw [WatchState.filter_wants_selects, ← List.filter_append, rx.message_recv]

theorem backlog_read (watch : Watch) : (watch.read query).2.backlog = watch.backlog - 1 := by
  match watch with
  | requested => rfl
  | buffered events => rfl
  | streaming (e :: rest) rx => simp only [read, backlog, List.length_cons]; omega
  | streaming [] rx => simp only [read, backlog, List.length_nil, rx.backlog_recv]; omega

/-- A stream without backlog owes nothing. -/
theorem outstanding_of_backlog {watch : Watch} (h : watch.backlog = 0)
    (hbuffered : ∀ events, watch ≠ buffered events) : watch.outstanding query = [] := by
  cases watch with
  | requested => rfl
  | buffered events => exact absurd rfl (hbuffered events)
  | streaming bufferedStream rx =>
      obtain ⟨hb, hrx⟩ := Nat.add_eq_zero_iff.mp h
      obtain ⟨hu, -⟩ := Nat.add_eq_zero_iff.mp hrx
      rw [outstanding, List.eq_nil_of_length_eq_zero hb, List.eq_nil_of_length_eq_zero hu]
      rfl

theorem subscribe_ne_buffered (watch : Watch) (events : List WatchEvent) :
    watch.subscribe query ≠ buffered events := by
  cases watch <;> simp [subscribe]

theorem read_ne_buffered {watch : Watch} (h : ∀ events, watch ≠ buffered events)
    (events : List WatchEvent) : (watch.read query).2 ≠ buffered events := by
  match watch with
  | requested => simp [read]
  | buffered events' => exact absurd rfl (h events')
  | streaming (e :: rest) rx => simp [read]
  | streaming [] rx => simp [read]

end Watch

namespace WatchState

variable {query : WatchQuery}

/-- Everything owed has been received or is still held by the stream. -/
def Complete (query : WatchQuery) (st : WatchState) : Prop :=
  st.received.filter query.wants ++ st.watch.outstanding query = st.due

/-- Reading moves events from the stream to the client, and enough reads empty it. -/
theorem run_reads (query : WatchQuery) (n : ℕ) (st : WatchState) (h : ∀ events, st.watch ≠ .buffered events) :
    let last := run (step query) st (List.replicate n .read)
    last.received.filter query.wants ++ last.watch.outstanding query =
        st.received.filter query.wants ++ st.watch.outstanding query ∧
      last.watch.backlog = st.watch.backlog - n ∧
      ∀ events, last.watch ≠ .buffered events := by
  induction n generalizing st with
  | zero => exact ⟨rfl, rfl, h⟩
  | succ n ih =>
      obtain ⟨heq, hlen, hphase⟩ := ih (step query st .read) (Watch.read_ne_buffered h)
      refine ⟨heq.trans ?_, hlen.trans ?_, hphase⟩
      · rw [← st.watch.outstanding_read]
        simp only [step, List.filter_append, List.append_assoc]
      · simp only [step, Watch.backlog_read]
        omega

/-- What the client has received after enough reads. -/
theorem received_after_reads {n : ℕ} {st : WatchState}
    (hn : (st.watch.subscribe query).backlog ≤ n) :
    (run (step query) st (.subscribe :: List.replicate n .read)).received.filter query.wants =
      st.received.filter query.wants ++ st.watch.outstanding query := by
  rw [run_cons]
  obtain ⟨heq, hlen, hphase⟩ :=
    run_reads query n (step query st .subscribe) (st.watch.subscribe_ne_buffered)
  have hzero := hlen.trans (Nat.sub_eq_zero_of_le hn)
  rw [Watch.outstanding_of_backlog hzero hphase, List.append_nil] at heq
  rw [heq, ← st.watch.outstanding_subscribe]
  rfl

/-- What every run keeps: the log and the events owed are in order, and nothing is received
before the request is answered. -/
structure Tidy (st : WatchState) : Prop where
  ordered : st.log.Ordered
  increasing : st.due.Pairwise fun a b => a.seq < b.seq
  due_le : ∀ e ∈ st.due, e.seq ≤ st.log.seq
  received_nil : st.watch = .requested → st.received = []

/-- Delivery is the balance of what is owed, received and held. -/
theorem Tidy.delivers_iff {st : WatchState} (h : st.Tidy) :
    st.Delivers query ↔ st.Complete query := by
  constructor
  · -- after enough reads the stream holds nothing, so what is received is what is owed
    intro hd
    obtain ⟨n, hn⟩ := hd.eventually
    have hall := hn (max n (st.watch.subscribe query).backlog) (le_max_left _ _)
    exact (received_after_reads (le_max_right _ _)).symm.trans hall
  · intro hc
    refine ⟨h.increasing, ⟨_, hc⟩, (st.watch.subscribe query).backlog, fun m hm => ?_⟩
    exact (received_after_reads hm).trans hc

/-! ## Steps -/

theorem tidy_start : start.Tidy where
  ordered := EventLog.ordered_new 10000
  increasing := List.Pairwise.nil
  due_le := by simp [start]
  received_nil _ := rfl

theorem Tidy.emit {st : WatchState} (h : st.Tidy) (eventType : EventType) (key : String)
    (value : Option (List UInt8)) : (step query st (.emit eventType key value)).Tidy := by
  have hlast : ∀ e ∈ st.due, e.seq < (st.log.nextEvent eventType key value).seq := by
    intro e he
    exact Nat.lt_succ_of_le (h.due_le e he)
  refine ⟨h.ordered.emit eventType key value, ?_, ?_, ?_⟩
  · simp only [step]
    split_ifs
    · refine List.pairwise_append.mpr ⟨h.increasing, List.pairwise_singleton _ _, ?_⟩
      intro a ha b hb
      rw [List.mem_singleton.mp hb]
      exact hlast a ha
    · exact h.increasing
  · intro e he
    have hcases : e ∈ st.due ∨ e = st.log.nextEvent eventType key value := by
      simp only [step] at he
      split_ifs at he
      · simpa using he
      · exact Or.inl he
    rcases hcases with he | rfl
    · exact (hlast e he).le
    · exact le_rfl
  · intro hwatch
    apply h.received_nil
    cases hst : st.watch <;> simp [step, hst, Watch.broadcast] at hwatch ⊢

theorem Tidy.eventsSince {st : WatchState} (h : st.Tidy) :
    (step query st .eventsSince).Tidy := by
  cases hbegun : st.watch.begun with
  | true =>
      have hsame : step query st .eventsSince = st := by
        obtain ⟨log, watch, received, due⟩ := st
        cases watch with
        | requested => cases hbegun
        | buffered events => rfl
        | streaming bufferedStream rx => rfl
      rw [hsame]
      exact h
  | false =>
      have hsub : ((st.log.eventsSince query.fromSeq).filter query.wants).Sublist st.log.events :=
        List.filter_sublist.trans List.filter_sublist
      refine ⟨h.ordered, ?_, ?_, ?_⟩
      · simp only [step, hbegun]
        exact h.ordered.increasing.sublist hsub
      · intro e he
        simp only [step, hbegun] at he
        exact h.ordered.le_seq e (hsub.subset he)
      · intro hwatch
        cases hst : st.watch <;> simp [step, hst, Watch.eventsSince] at hwatch

theorem Tidy.step {st : WatchState} (h : st.Tidy) (input : WatchStep) :
    (step query st input).Tidy := by
  cases input with
  | emit eventType key value => exact h.emit eventType key value
  | eventsSince => exact h.eventsSince
  | subscribe =>
      refine ⟨h.ordered, h.increasing, h.due_le, fun hwatch => h.received_nil ?_⟩
      cases hst : st.watch <;> simp [WatchState.step, hst, Watch.subscribe] at hwatch ⊢
  | read =>
      refine ⟨h.ordered, h.increasing, h.due_le, fun hwatch => ?_⟩
      have hst : st.watch = .requested := by
        match hw : st.watch with
        | .requested => rfl
        | .buffered events => simp [WatchState.step, hw, Watch.read] at hwatch
        | .streaming (e :: rest) rx => simp [WatchState.step, hw, Watch.read] at hwatch
        | .streaming [] rx => simp [WatchState.step, hw, Watch.read] at hwatch
      simp [WatchState.step, hst, Watch.read, h.received_nil hst]

/-- An emitted event joins the events owed or is none of the client's. -/
theorem due_emit {st : WatchState} (hbegun : st.watch.begun = true) (eventType : EventType)
    (key : String) (value : Option (List UInt8)) :
    (WatchState.step query st (.emit eventType key value)).due =
      st.due ++ [st.log.nextEvent eventType key value].filter query.wants := by
  simp only [WatchState.step, hbegun, Bool.true_and, List.filter_cons, List.filter_nil]
  split_ifs
  · rfl
  · rw [List.append_nil]

/-- An event sent to the subscription: below the capacity it is added, at the capacity it
takes the place of the oldest one. -/
theorem outstanding_broadcast (bufferedStream : List WatchEvent) (rx : Receiver WatchEvent)
    (e : WatchEvent) :
    (((Watch.streaming bufferedStream rx).broadcast e).outstanding query =
        (Watch.streaming bufferedStream rx).outstanding query ++ [e].filter query.wants) ↔
      rx.unread.length < channelCapacity ∨ ∀ d ∈ rx.unread.head?, query.wants d = false := by
  simp only [Watch.broadcast, Watch.outstanding, List.filter_append]
  by_cases hlt : rx.unread.length < channelCapacity
  · rw [Receiver.unread_send_of_lt hlt, List.filter_append, List.append_assoc]
    exact iff_of_true rfl (Or.inl hlt)
  · rw [Receiver.unread_send_of_le (not_lt.mp hlt), or_iff_right hlt, List.filter_append,
      List.append_assoc, List.append_cancel_left_eq, List.append_cancel_right_eq]
    cases hunread : rx.unread with
    | nil => simp
    | cons d rest =>
        cases hd : query.wants d with
        | false => simp [hd]
        | true =>
            -- one event is missing, so the lengths differ
            refine iff_of_false (fun h => ?_) (by simp [hd])
            rw [List.tail_cons, List.filter_cons_of_pos hd] at h
            exact List.cons_ne_self _ _ h.symm

/-- **An emit keeps the balance** exactly when it loses nothing. -/
theorem complete_emit {st : WatchState} (h : st.Complete query) (eventType : EventType)
    (key : String) (value : Option (List UInt8)) :
    (step query st (.emit eventType key value)).Complete query ↔
      st.KeepsUp query (.emit eventType key value) := by
  unfold Complete at h ⊢
  cases hwatch : st.watch with
  | requested =>
      -- the log records it; `events_since` will find it there
      rw [hwatch] at h
      simpa [step, hwatch, Watch.begun, Watch.broadcast, KeepsUp] using h
  | buffered events =>
      -- the gap: owed already, and there is no subscription to receive it
      rw [due_emit (by rw [hwatch]; rfl), ← h, hwatch]
      simp only [step, hwatch, Watch.broadcast, KeepsUp, List.self_eq_append_right]
      cases hw : query.wants (st.log.nextEvent eventType key value) <;> simp [hw]
  | streaming bufferedStream rx =>
      rw [due_emit (by rw [hwatch]; rfl), ← h, hwatch, List.append_assoc]
      simp only [step, hwatch, KeepsUp, List.append_cancel_left_eq]
      exact outstanding_broadcast bufferedStream rx _

theorem Tidy.complete_step {st : WatchState} (h : st.Tidy) (hc : st.Complete query)
    (input : WatchStep) : (WatchState.step query st input).Complete query ↔
      st.KeepsUp query input := by
  cases input with
  | emit eventType key value => exact complete_emit hc eventType key value
  | eventsSince =>
      refine iff_of_true ?_ trivial
      unfold Complete at hc ⊢
      cases hwatch : st.watch with
      | requested =>
          simp only [WatchState.step, hwatch, h.received_nil hwatch]
          rfl
      | buffered events => simpa [WatchState.step, hwatch, Watch.begun, Watch.eventsSince] using hc
      | streaming bufferedStream rx =>
          simpa [WatchState.step, hwatch, Watch.begun, Watch.eventsSince] using hc
  | subscribe =>
      refine iff_of_true ?_ trivial
      unfold Complete at hc ⊢
      simp only [WatchState.step, Watch.outstanding_subscribe]
      exact hc
  | read =>
      refine iff_of_true ?_ trivial
      unfold Complete at hc ⊢
      simp only [WatchState.step, List.filter_append, List.append_assoc, Watch.outstanding_read]
      exact hc

/-! ## Delivery -/

/-- **Watch delivery.**  A stream delivers along a run exactly when no matching event is
emitted between `events_since` and `subscribe` and none is pushed out of the full channel of
a client that reads too slowly. -/
theorem watch_delivers_iff (query : WatchQuery) (steps : List WatchStep) :
    Along (step query) (Delivers query) start steps ↔
      Admitted (step query) (KeepsUp query) start steps := by
  have hstart : start.Delivers query := (tidy_start.delivers_iff).mpr rfl
  refine along_iff_admitted Tidy (Delivers query) (fun st input h => h.step input) ?_
    tidy_start hstart
  intro st input h hd
  rw [(h.step input).delivers_iff]
  exact h.complete_step (h.delivers_iff.mp hd) input

/-- An event emitted between the two calls of `watch_events` never reaches the client. -/
theorem watch_delivers_fails_gap :
    ¬ ∀ steps, Along (step {}) (Delivers {}) start steps := by
  intro h
  have hd := h [.eventsSince, .emit .put "/registry/pods/default/web" none]
    _ (List.prefix_refl _)
  have hc := ((((tidy_start.step .eventsSince).step
    (.emit .put "/registry/pods/default/web" none)).delivers_iff).mp hd)
  revert hc
  unfold Complete
  decide

end WatchState

end K3rs
