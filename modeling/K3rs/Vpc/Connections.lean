import K3rs.Lib.JsonPrefix
import K3rs.Lib.Lines
import K3rs.Lib.Utf8
import K3rs.Lib.Words
import K3rs.Vpc.Protocol

/-!
# Connections to the daemon

The daemon serves every connection in a task of its own.  A task reads lines, handles the request of
each line under the locks of the allocator and the enforcer, and writes one line back.  Bytes come
in pieces of any size, the tasks take turns in any order, connections break, and the loop that syncs
the VPCs changes the daemon in between.

* `connections_served_in_order`: whatever the interleaving, the responses are those of a daemon that
  handles one request after the other, and on each connection the requests are handled in their
  order, each once, with one line of response for each.
* `vpc_client_call`: a call of the agent is handled at most once; if it returns a response, that is
  what the daemon answered to this request at one moment of the call; and a request that is cut off
  has no effect.
-/

namespace K3rs

open Json Lines Utf8 Words Transition Net

/-! ## Requests -/

/-- `QueryResult`. -/
structure QueryResult where
  guestIpv4 : Ipv4Addr
  ghostIpv6 : Ipv6Addr
  vpcId : UInt16
  vpcName : String

/-- `query`: the allocation in the first pool that has one for the pod. -/
def GhostAllocator.query (a : GhostAllocator) (podId : String) : Option QueryResult :=
  a.pools.entries.findSome? fun pool =>
    (pool.2.allocations.lookup podId).map fun alloc =>
      ⟨alloc.guestIpv4, alloc.ghostIpv6, pool.2.vpcId, pool.1⟩

namespace VpcDaemon

/-- `dispatch`, for all requests; `wgManager` has the public key and the port of the node. -/
def dispatchRequest (wgManager : Option (String × UInt16)) (d : VpcDaemon) (answers : Answers) :
    Protocol.Request → Protocol.Response × VpcDaemon
  | .call request =>
      let r := d.dispatch answers request
      (.answer r.1, r.2)
  | .query podId =>
      match d.allocator.query podId with
      | some r =>
          (.queryResult (ipv4ToString r.guestIpv4) (ipv6ToString r.ghostIpv6) r.vpcId r.vpcName, d)
      | none => (.answer (.error "not_found" ("No allocation for pod '" ++ podId ++ "'")), d)
  | .getRoutes vpcId => (.routes (d.allocator.getRoutes vpcId), d)
  | .listVpcs =>
      match answers.io with
      | .ok () =>
          (.vpcList (d.store.loadVpcs.map fun v => ⟨v.name, v.vpcId, v.ipv4Cidr, v.status⟩), d)
      | .error e => (.answer (.error "store_error" ("Failed to load VPCs: " ++ e)), d)
  | .getWgPublicKey => (.wgPublicKey (wgManager.map Prod.fst) (wgManager.map Prod.snd), d)

/-- What is done for a line: a request is handled, everything else is complained about. -/
def respond (reader : Reader) (wgManager : Option (String × UInt16)) (d : VpcDaemon)
    (answers : Answers) (line : List Char) : Protocol.Response × VpcDaemon :=
  match (reader.fromStr line).bind Protocol.Request.ofJson with
  | some request => d.dispatchRequest wgManager answers request
  | none => (.answer (.error "parse_error" ("Invalid request: " ++ reader.complaint line)), d)

end VpcDaemon

/-! ## Lines -/

/-- The byte that ends a line. -/
def newline : UInt8 := '\n'.toUInt8

/-- A message as it is written. -/
def messageLine (v : Json) : List UInt8 := asBytes (render v) ++ [newline]

/-- The request in a line; a carriage return at the end of the line is white space. -/
def requestLine (bytes : List UInt8) : Option (List Char) :=
  (fromUtf8 bytes).bind fun text => if trim text = [] then none else some (trim text)

/-- What a task does. -/
inductive Handler where
  | running
  | returned
  | failed
  deriving DecidableEq, Repr

/-- A connection, from the side of the daemon.  `received` is all that has come in, and not only
what the task has not read yet. -/
structure Connection where
  inbox : List UInt8 := []
  eof : Bool := false
  handler : Handler := .running
  outbox : List UInt8 := []
  received : List UInt8 := []

/-- What `next_line` has: nothing yet, the end, or a line and what is left. -/
inductive NextLine where
  | blocked
  | ended
  | line (bytes rest : List UInt8)

/-- `next_line`. -/
def Connection.nextLine (c : Connection) : NextLine :=
  match takeLine newline c.inbox with
  | some (bytes, rest) => .line bytes rest
  | none =>
      if c.eof = false then .blocked
      else if c.inbox = [] then .ended
      else .line c.inbox []

/-- A response is written, or the connection fails on the way. -/
def Connection.write (c : Connection) (bytes : List UInt8) : Option ℕ → Connection
  | none => { c with outbox := c.outbox ++ bytes }
  | some n => { c with outbox := c.outbox ++ bytes.take n, handler := .failed }

/-- The requests that have come in, as far as their lines have ended. -/
def Connection.requestLines (c : Connection) : List (List Char) :=
  (streamLines newline c.eof c.received).filterMap requestLine

/-! ## The server -/

section Server

variable {κ : Type} [DecidableEq κ] (reader : Reader) (wgManager : Option (String × UInt16))

/-- A line that was handled. -/
structure ServedLine (κ : Type) where
  conn : κ
  line : List Char
  answers : Answers
  response : Protocol.Response

/-- What was written for it. -/
def ServedLine.wire (e : ServedLine κ) : List UInt8 := messageLine e.response.toJson

/-- What happens to the daemon: a line is handled, or another of its loops changes it. -/
inductive Moment (κ : Type) where
  | served (e : ServedLine κ)
  | background (change : VpcDaemon → VpcDaemon)

/-- What was handled on a connection. -/
def servedOn (k : κ) (log : List (Moment κ)) : List (ServedLine κ) :=
  log.filterMap fun
    | .served e => if e.conn = k then some e else none
    | .background _ => none

/-- The daemon with its connections, and what has happened to it. -/
structure SocketServer (κ : Type) where
  daemon : VpcDaemon
  conns : κ → Connection
  log : List (Moment κ)

/-- What can happen.  A write may fail after some of its bytes (`sent`). -/
inductive SocketEvent (κ : Type) where
  | receive (k : κ) (bytes : List UInt8)
  | shutdown (k : κ)
  | reset (k : κ)
  | handle (k : κ) (answers : Answers) (sent : Option ℕ)
  | background (change : VpcDaemon → VpcDaemon)

namespace SocketServer

/-- A daemon without connections. -/
def new (d : VpcDaemon) : SocketServer κ := ⟨d, fun _ => {}, []⟩

def setConn (s : SocketServer κ) (k : κ) (c : Connection) : SocketServer κ :=
  { s with conns := Function.update s.conns k c }

/-- One turn of the loop of `handle_connection`. -/
def handle (s : SocketServer κ) (k : κ) (answers : Answers) (sent : Option ℕ) : SocketServer κ :=
  let c := s.conns k
  match c.nextLine with
  | .blocked => s
  | .ended => s.setConn k { c with handler := .returned }
  | .line bytes rest =>
      match fromUtf8 bytes with
      | none => s.setConn k { c with handler := .failed }
      | some text =>
          if trim text = [] then s.setConn k { c with inbox := rest }
          else
            let r := s.daemon.respond reader wgManager answers (trim text)
            { daemon := r.2
              conns := Function.update s.conns k
                (Connection.write { c with inbox := rest } (messageLine r.1.toJson) sent)
              log := s.log ++ [.served ⟨k, trim text, answers, r.1⟩] }

/-- One event. -/
def step (s : SocketServer κ) : SocketEvent κ → SocketServer κ
  | .receive k bytes =>
      let c := s.conns k
      if c.eof = true then s
      else s.setConn k { c with inbox := c.inbox ++ bytes, received := c.received ++ bytes }
  | .shutdown k => s.setConn k { s.conns k with eof := true }
  | .reset k =>
      if (s.conns k).handler = .running then s.setConn k { s.conns k with handler := .failed } else s
  | .handle k answers sent =>
      if (s.conns k).handler = .running then s.handle reader wgManager k answers sent else s
  | .background change =>
      { s with daemon := change s.daemon, log := s.log ++ [.background change] }

end SocketServer

/-! ## One after the other -/

/-- A daemon to which these things happen one after the other, with these responses. -/
def Sequential : VpcDaemon → List (Moment κ) → VpcDaemon → Prop
  | d, [], d' => d' = d
  | d, .served e :: rest, d' =>
      e.response = (d.respond reader wgManager e.answers e.line).1 ∧
        Sequential (d.respond reader wgManager e.answers e.line).2 rest d'
  | d, .background change :: rest, d' => Sequential (change d) rest d'

variable {reader wgManager}

omit [DecidableEq κ] in
theorem sequential_append {d d' : VpcDaemon} {pre post : List (Moment κ)} :
    Sequential reader wgManager d (pre ++ post) d' ↔
      ∃ mid, Sequential reader wgManager d pre mid ∧ Sequential reader wgManager mid post d' := by
  induction pre generalizing d with
  | nil =>
      constructor
      · intro h
        exact ⟨d, rfl, h⟩
      · rintro ⟨mid, rfl, h⟩
        exact h
  | cons m pre ih =>
      cases m with
      | served e =>
          show _ ∧ Sequential _ _ _ (pre ++ post) _ ↔ ∃ mid, (_ ∧ _) ∧ _
          rw [ih]
          constructor
          · rintro ⟨he, mid, hpre, hpost⟩
            exact ⟨mid, ⟨he, hpre⟩, hpost⟩
          · rintro ⟨mid, ⟨he, hpre⟩, hpost⟩
            exact ⟨he, mid, hpre, hpost⟩
      | background change => exact ih

theorem servedOn_append (k : κ) (pre post : List (Moment κ)) :
    servedOn k (pre ++ post) = servedOn k pre ++ servedOn k post := List.filterMap_append

theorem servedOn_served_self (e : ServedLine κ) : servedOn e.conn [.served e] = [e] := by
  simp [servedOn]

theorem servedOn_served_of_ne {k : κ} {e : ServedLine κ} (h : e.conn ≠ k) :
    servedOn k [.served e] = [] := by
  simp [servedOn, h]

/-! ## One connection -/

/-- The lines that the task has taken from what came in. -/
def Connection.Consumed (c : Connection) (taken : List (List UInt8)) : Prop :=
  feed newline [] c.received =
      (taken ++ (feed newline [] c.inbox).1, (feed newline [] c.inbox).2) ∨
    c.eof = true ∧ c.inbox = [] ∧ taken = streamLines newline true c.received

namespace Connection

variable {c : Connection} {taken : List (List UInt8)}

/-- What was taken is what came in first. -/
theorem Consumed.isPrefix (h : c.Consumed taken) :
    taken <+: streamLines newline c.eof c.received := by
  rcases h with h | ⟨heof, -, rfl⟩
  · unfold streamLines
    rw [h]
    exact List.IsPrefix.trans (List.prefix_append _ _) (List.prefix_append _ _)
  · rw [heof]

theorem Consumed.receive (h : c.Consumed taken) (heof : c.eof = false) (bytes : List UInt8) :
    Consumed { c with inbox := c.inbox ++ bytes, received := c.received ++ bytes } taken := by
  rcases h with h | ⟨htrue, -⟩
  · refine Or.inl ?_
    show feed newline [] (c.received ++ bytes) =
      (taken ++ (feed newline [] (c.inbox ++ bytes)).1, (feed newline [] (c.inbox ++ bytes)).2)
    rw [feed_append, feed_append [] c.inbox, h, List.append_assoc]
  · rw [heof] at htrue
    cases htrue

/-- `next_line` takes the first line. -/
theorem Consumed.take (h : c.Consumed taken) {bytes rest : List UInt8}
    (hline : c.nextLine = .line bytes rest) :
    Consumed { c with inbox := rest } (taken ++ [bytes]) := by
  unfold nextLine at hline
  cases htake : takeLine newline c.inbox with
  | some r =>
      rw [htake] at hline
      cases hline
      rcases h with h | ⟨-, hnil, -⟩
      · refine Or.inl ?_
        show feed newline [] c.received = _
        rw [h, feed_of_takeLine htake, List.append_assoc]
        rfl
      · rw [hnil] at htake
        cases htake
  | none =>
      rw [htake] at hline
      simp only at hline
      split_ifs at hline with heof hnil
      cases hline
      rcases h with h | ⟨-, hempty, -⟩
      · have hopen := feed_of_notMem (takeLine_eq_none.mp htake) []
        rw [List.nil_append] at hopen
        rw [hopen, List.append_nil] at h
        refine Or.inr ⟨eq_true_of_ne_false heof, rfl, ?_⟩
        show taken ++ [c.inbox] = streamLines newline true c.received
        unfold streamLines
        rw [h, if_pos ⟨rfl, hnil⟩]
      · exact absurd hempty hnil

/-- At the end everything has been taken. -/
theorem Consumed.ended (h : c.Consumed taken) (hended : c.nextLine = .ended) :
    c.eof = true ∧ taken = streamLines newline true c.received := by
  unfold nextLine at hended
  cases htake : takeLine newline c.inbox with
  | some r =>
      rw [htake] at hended
      cases hended
  | none =>
      rw [htake] at hended
      simp only at hended
      split_ifs at hended with heof hnil
      refine ⟨eq_true_of_ne_false heof, ?_⟩
      rcases h with h | ⟨-, -, htaken⟩
      · rw [hnil, feed_nil, List.append_nil] at h
        unfold streamLines
        rw [h, if_neg fun hne => hne.2 rfl, List.append_nil]
      · exact htaken

end Connection

/-- What holds of a connection on which these lines were handled. -/
structure ConnOk (c : Connection) (served : List (ServedLine κ)) : Prop where
  consumed : ∃ taken, c.Consumed taken ∧ served.map ServedLine.line = taken.filterMap requestLine ∧
    (c.handler = .returned → c.eof = true ∧ taken = streamLines newline true c.received)
  written : c.outbox <+: served.flatMap ServedLine.wire
  complete : c.handler ≠ .failed → c.outbox = served.flatMap ServedLine.wire

namespace ConnOk

variable {c : Connection} {served : List (ServedLine κ)}

omit [DecidableEq κ] in
theorem new : ConnOk {} ([] : List (ServedLine κ)) where
  consumed := ⟨[], Or.inl rfl, rfl, fun h => Handler.noConfusion h⟩
  written := List.prefix_rfl
  complete _ := rfl

omit [DecidableEq κ] in
theorem receive (h : ConnOk c served) (heof : c.eof = false) (bytes : List UInt8) :
    ConnOk { c with inbox := c.inbox ++ bytes, received := c.received ++ bytes } served where
  consumed := by
    obtain ⟨taken, htaken, hlines, hreturned⟩ := h.consumed
    refine ⟨taken, htaken.receive heof bytes, hlines, fun hret => ?_⟩
    have htrue := (hreturned hret).1
    rw [heof] at htrue
    cases htrue
  written := h.written
  complete := h.complete

omit [DecidableEq κ] in
theorem shutdown (h : ConnOk c served) : ConnOk { c with eof := true } served where
  consumed := by
    obtain ⟨taken, htaken, hlines, hreturned⟩ := h.consumed
    refine ⟨taken, htaken.imp_right fun hend => ⟨rfl, hend.2⟩, hlines, fun hret => ?_⟩
    exact ⟨rfl, (hreturned hret).2⟩
  written := h.written
  complete := h.complete

omit [DecidableEq κ] in
theorem fail (h : ConnOk c served) : ConnOk { c with handler := .failed } served where
  consumed := by
    obtain ⟨taken, htaken, hlines, -⟩ := h.consumed
    exact ⟨taken, htaken, hlines, fun hret => Handler.noConfusion hret⟩
  written := h.written
  complete hne := absurd rfl hne

omit [DecidableEq κ] in
theorem ended (h : ConnOk c served) (hrun : c.handler = .running) (hended : c.nextLine = .ended) :
    ConnOk { c with handler := .returned } served where
  consumed := by
    obtain ⟨taken, htaken, hlines, -⟩ := h.consumed
    exact ⟨taken, htaken, hlines, fun _ => htaken.ended hended⟩
  written := h.written
  complete _ := h.complete (by rw [hrun]; exact Handler.noConfusion)

omit [DecidableEq κ] in
theorem blank (h : ConnOk c served) (hrun : c.handler = .running) {bytes rest : List UInt8}
    (hline : c.nextLine = .line bytes rest) (hblank : requestLine bytes = none) :
    ConnOk { c with inbox := rest } served where
  consumed := by
    obtain ⟨taken, htaken, hlines, -⟩ := h.consumed
    refine ⟨taken ++ [bytes], htaken.take hline, ?_, fun hret => ?_⟩
    · rw [List.filterMap_append, hlines, List.filterMap_cons_none hblank, List.filterMap_nil,
        List.append_nil]
    · rw [show c.handler = .returned from hret] at hrun
      cases hrun
  written := h.written
  complete := h.complete

omit [DecidableEq κ] in
theorem serve (h : ConnOk c served) (hrun : c.handler = .running) {bytes rest : List UInt8}
    (hline : c.nextLine = .line bytes rest) {e : ServedLine κ} (he : requestLine bytes = some e.line)
    (sent : Option ℕ) :
    ConnOk (Connection.write { c with inbox := rest } e.wire sent)
      (served ++ [e]) := by
  have hwritten : c.outbox = served.flatMap ServedLine.wire :=
    h.complete (by rw [hrun]; exact Handler.noConfusion)
  have hwire : (served ++ [e]).flatMap ServedLine.wire = c.outbox ++ e.wire := by
    rw [List.flatMap_append, List.flatMap_singleton, hwritten]
  obtain ⟨taken, htaken, hlines, -⟩ := h.consumed
  have hnext := htaken.take hline
  have hlines' : (served ++ [e]).map ServedLine.line = (taken ++ [bytes]).filterMap requestLine := by
    rw [List.map_append, List.filterMap_append, hlines, List.filterMap_cons_some he]
    rfl
  cases sent with
  | none =>
      refine ⟨⟨taken ++ [bytes], hnext, hlines', fun hret => ?_⟩, ?_, fun _ => hwire.symm⟩
      · rw [show c.handler = .returned from hret] at hrun
        cases hrun
      · rw [hwire]
        exact List.prefix_rfl
  | some n =>
      refine ⟨⟨taken ++ [bytes], hnext, hlines', fun hret => Handler.noConfusion hret⟩, ?_,
        fun hne => absurd rfl hne⟩
      rw [hwire]
      exact (List.prefix_append_right_inj _).mpr (List.take_prefix n e.wire)

end ConnOk

/-! ## Runs -/

/-- What holds of the daemon and all of its connections. -/
structure ServerOk (reader : Reader) (wgManager : Option (String × UInt16)) (d₀ : VpcDaemon)
    (s : SocketServer κ) : Prop where
  sequential : Sequential reader wgManager d₀ s.log s.daemon
  conns : ∀ k, ConnOk (s.conns k) (servedOn k s.log)

namespace ServerOk

variable {d₀ : VpcDaemon} {s : SocketServer κ}

theorem setConn (h : ServerOk reader wgManager d₀ s) {k : κ} {c : Connection}
    (hc : ConnOk c (servedOn k s.log)) : ServerOk reader wgManager d₀ (s.setConn k c) where
  sequential := h.sequential
  conns k' := by
    show ConnOk (Function.update s.conns k c k') (servedOn k' s.log)
    by_cases hk : k' = k
    · subst hk
      rwa [Function.update_self]
    · rw [Function.update_of_ne hk]
      exact h.conns k'

theorem handle (h : ServerOk reader wgManager d₀ s) {k : κ}
    (hrun : (s.conns k).handler = .running) (answers : Answers) (sent : Option ℕ) :
    ServerOk reader wgManager d₀ (s.handle reader wgManager k answers sent) := by
  cases hline : (s.conns k).nextLine with
  | blocked =>
      simp only [SocketServer.handle, hline]
      exact h
  | ended =>
      simp only [SocketServer.handle, hline]
      exact h.setConn ((h.conns k).ended hrun hline)
  | line bytes rest =>
      cases htext : fromUtf8 bytes with
      | none =>
          simp only [SocketServer.handle, hline, htext]
          exact h.setConn (h.conns k).fail
      | some text =>
          simp only [SocketServer.handle, hline, htext]
          split_ifs with hblank
          · refine h.setConn ((h.conns k).blank hrun hline ?_)
            rw [requestLine, htext, Option.bind_some, if_pos hblank]
          · set e : ServedLine κ := ⟨k, trim text, answers,
              (s.daemon.respond reader wgManager answers (trim text)).1⟩ with he
            have hrequest : requestLine bytes = some e.line := by
              rw [requestLine, htext, Option.bind_some, if_neg hblank]
            constructor
            · exact sequential_append.mpr ⟨s.daemon, h.sequential, rfl, rfl⟩
            · intro k'
              show ConnOk (Function.update s.conns k _ k') (servedOn k' (s.log ++ [.served e]))
              rw [servedOn_append]
              by_cases hk : k' = k
              · subst hk
                rw [Function.update_self, show k' = e.conn from rfl, servedOn_served_self]
                exact (h.conns k').serve hrun hline hrequest sent
              · rw [Function.update_of_ne hk, servedOn_served_of_ne (Ne.symm hk), List.append_nil]
                exact h.conns k'

theorem step (h : ServerOk reader wgManager d₀ s) (event : SocketEvent κ) :
    ServerOk reader wgManager d₀ (s.step reader wgManager event) := by
  cases event with
  | receive k bytes =>
      simp only [SocketServer.step]
      split_ifs with heof
      · exact h
      · exact h.setConn ((h.conns k).receive (eq_false_of_ne_true heof) bytes)
  | shutdown k => exact h.setConn (h.conns k).shutdown
  | reset k =>
      simp only [SocketServer.step]
      split_ifs with hrun
      · exact h.setConn (h.conns k).fail
      · exact h
  | handle k answers sent =>
      simp only [SocketServer.step]
      split_ifs with hrun
      · exact h.handle hrun answers sent
      · exact h
  | background change =>
      constructor
      · exact sequential_append.mpr ⟨s.daemon, h.sequential, rfl⟩
      · intro k
        show ConnOk (s.conns k) (servedOn k (s.log ++ [.background change]))
        rw [servedOn_append]
        exact (List.append_nil (servedOn k s.log)).symm ▸ h.conns k

theorem run (d₀ : VpcDaemon) (events : List (SocketEvent κ)) :
    ServerOk reader wgManager d₀
      (run (SocketServer.step reader wgManager) (SocketServer.new d₀) events) := by
  refine invariant_run (ServerOk reader wgManager d₀) (fun s event _ h => h.step event) ?_
    (admitted_true _ _ events)
  exact ⟨rfl, fun k => ConnOk.new⟩

end ServerOk

/-- **Requests are handled in order**, on any number of connections, with any bytes in any pieces,
and whatever happens in between: the responses are those of a daemon that handles one request after
the other; the lines handled on a connection are the first of those that came in on it, without the
blank ones; and what is written is one line for each of them.  A task that has come to the end of its
connection has handled all lines and written all responses. -/
theorem connections_served_in_order (reader : Reader) (wgManager : Option (String × UInt16))
    (d₀ : VpcDaemon) (events : List (SocketEvent κ)) :
    let s := Transition.run (SocketServer.step reader wgManager) (SocketServer.new d₀) events
    Sequential reader wgManager d₀ s.log s.daemon ∧
      ∀ k, (servedOn k s.log).map ServedLine.line <+: (s.conns k).requestLines ∧
        (s.conns k).outbox <+: (servedOn k s.log).flatMap ServedLine.wire ∧
        ((s.conns k).handler = .running →
          (s.conns k).outbox = (servedOn k s.log).flatMap ServedLine.wire) ∧
        ((s.conns k).handler = .returned →
          (servedOn k s.log).map ServedLine.line = (s.conns k).requestLines ∧
            (s.conns k).outbox = (servedOn k s.log).flatMap ServedLine.wire) := by
  intro s
  have hok : ServerOk reader wgManager d₀ s := ServerOk.run d₀ events
  refine ⟨hok.sequential, fun k => ?_⟩
  obtain ⟨⟨taken, htaken, hlines, hreturned⟩, hwritten, hcomplete⟩ := hok.conns k
  refine ⟨?_, hwritten, fun hrun => ?_, fun hret => ⟨?_, ?_⟩⟩
  · rw [hlines]
    exact htaken.isPrefix.filterMap requestLine
  · exact hcomplete (by rw [hrun]; exact Handler.noConfusion)
  · obtain ⟨heof, hall⟩ := hreturned hret
    rw [hlines, hall, Connection.requestLines, heof]
  · exact hcomplete (by rw [hret]; exact Handler.noConfusion)

end Server

/-! ## Messages in pieces -/

section Messages

variable {v : Json} {bytes : List UInt8}

theorem newline_notMem (v : Json) : newline ∉ asBytes (render v) := by
  intro hmem
  obtain ⟨c, hc, hbyte⟩ := List.mem_flatMap.mp hmem
  have hprintable := printable_render v c hc
  rw [(toUInt8_mem_utf8EncodeChar (by decide)).mp hbyte] at hprintable
  revert hprintable
  decide

/-- What has come of a message is all of it, or part of its text. -/
theorem eq_or_prefix_of_messageLine (h : bytes <+: messageLine v) :
    bytes = messageLine v ∨ bytes <+: asBytes (render v) := by
  unfold messageLine at h ⊢
  rcases List.prefix_concat_iff.mp h with h | h
  · exact Or.inl h
  · exact Or.inr h

theorem streamLines_messageLine (ended : Bool) (v : Json) :
    streamLines newline ended (messageLine v) = [asBytes (render v)] := by
  have hfeed : feed newline [] (messageLine v) = ([asBytes (render v)], []) := by
    unfold messageLine
    rw [feed_line (newline_notMem v)]
    rfl
  unfold streamLines
  rw [hfeed, if_neg fun h => h.2 rfl]
  rfl

/-- Part of a text is at most one line. -/
theorem streamLines_of_prefix (h : bytes <+: asBytes (render v)) (ended : Bool) :
    streamLines newline ended bytes = [] ∨ streamLines newline ended bytes = [bytes] := by
  have hnl : newline ∉ bytes := fun hmem => newline_notMem v (h.subset hmem)
  have hfeed := feed_of_notMem hnl []
  unfold streamLines
  rw [hfeed, List.nil_append, List.nil_append]
  split_ifs
  · exact Or.inr rfl
  · exact Or.inl rfl

/-- The text in some bytes of a message is part of the message. -/
theorem prefix_of_fromUtf8 {cut text : List Char} (h : bytes <+: asBytes text)
    (hcut : fromUtf8 bytes = some cut) : cut <+: text := by
  obtain ⟨rest, hrest⟩ := h
  rw [← asBytes_of_fromUtf8 hcut] at hrest
  obtain ⟨more, rfl, -⟩ := exists_eq_append_of_asBytes hrest
  exact List.prefix_append _ _

theorem requestLine_of_prefix {fields : List (String × Json)} {line : List Char}
    (h : bytes <+: asBytes (render (.obj fields))) (hline : requestLine bytes = some line) :
    line <+: render (.obj fields) := by
  obtain ⟨cut, hcut, hsome⟩ := Option.bind_eq_some_iff.mp hline
  split_ifs at hsome
  cases hsome
  have hprefix := prefix_of_fromUtf8 h hcut
  refine (trim_isPrefix fun c hc => ?_).trans hprefix
  obtain ⟨more, hmore⟩ := hprefix
  cases cut with
  | nil => cases hc
  | cons d cut =>
      cases hc
      obtain ⟨rfl, -⟩ := List.cons.inj hmore
      rfl

/-- Of one message at most one line is handled, and it is part of the message. -/
theorem requestLines_of_message {c : Connection} {fields : List (String × Json)}
    (h : c.received <+: messageLine (.obj fields)) :
    c.requestLines = [] ∨ ∃ line, c.requestLines = [line] ∧ line <+: render (.obj fields) := by
  have hone : ∀ bytes, bytes <+: asBytes (render (.obj fields)) →
      [bytes].filterMap requestLine = [] ∨
        ∃ line, [bytes].filterMap requestLine = [line] ∧ line <+: render (.obj fields) := by
    intro bytes hbytes
    cases hline : requestLine bytes with
    | none => exact Or.inl (List.filterMap_cons_none hline)
    | some line =>
        exact Or.inr ⟨line, List.filterMap_cons_some hline, requestLine_of_prefix hbytes hline⟩
  unfold Connection.requestLines
  rcases eq_or_prefix_of_messageLine h with hall | hpart
  · rw [hall, streamLines_messageLine]
    exact hone _ List.prefix_rfl
  · rcases streamLines_of_prefix hpart c.eof with hlines | hlines
    · rw [hlines]
      exact Or.inl rfl
    · rw [hlines]
      exact hone _ hpart

end Messages

/-! ## Calls of the agent -/

namespace VpcClient

theorem VpcRequest.exists_fields (r : VpcRequest) : ∃ fields, r.toJson = .obj fields := by
  cases r
  all_goals exact ⟨_, rfl⟩

/-- `request`, from the bytes that came before the end: the first line is read, or what there is of
it.  Nothing is an error. -/
def request (reader : Reader) (bytes : List UInt8) : Option VpcResponse :=
  let line := ((takeLine newline bytes).map Prod.fst).getD bytes
  (fromUtf8 line).bind fun text => (reader.fromStr text).bind VpcResponse.ofJson

end VpcClient

theorem Protocol.Response.exists_fields (r : Protocol.Response) :
    ∃ fields, r.toJson = .obj fields := by
  cases r with
  | answer r =>
      cases r
      all_goals exact ⟨_, rfl⟩
  | _ => exact ⟨_, rfl⟩

/-- The daemon's answer to a request of the agent is one that the agent knows. -/
theorem VpcDaemon.isSome_seen_dispatchRequest (wgManager : Option (String × UInt16)) (d : VpcDaemon)
    (answers : Answers) (r : VpcClient.VpcRequest) :
    (d.dispatchRequest wgManager answers r.meant).1.seen.isSome = true := by
  have hanswer : ∀ response : Protocol.VpcResponse,
      (Protocol.Response.answer response).seen.isSome = true := by
    intro response
    cases response
    all_goals rfl
  cases r with
  | getRoutes vpcId => rfl
  | listVpcs =>
      show (VpcDaemon.dispatchRequest wgManager d answers .listVpcs).1.seen.isSome = true
      unfold dispatchRequest
      cases answers.io with
      | ok u => rfl
      | error e => rfl
  | getWgPublicKey => rfl
  | _ => exact hanswer _

/-- **A request that is cut off has no effect.** -/
theorem VpcDaemon.respond_of_prefix (reader : Reader) (wgManager : Option (String × UInt16))
    (d : VpcDaemon) (answers : Answers) (r : VpcClient.VpcRequest) {line : List Char}
    (h : line <+: render r.toJson) :
    d.respond reader wgManager answers line =
      if line = render r.toJson then d.dispatchRequest wgManager answers r.meant
      else (.answer (.error "parse_error" ("Invalid request: " ++ reader.complaint line)), d) := by
  obtain ⟨fields, hfields⟩ := r.exists_fields
  obtain ⟨more, hmore⟩ := h
  unfold respond
  split_ifs with hall
  · rw [hall, reader.fromStr_render, Option.bind_some, r.ofJson_toJson]
  · have hne : more ≠ [] := by
      rintro rfl
      exact hall (by rw [← hmore, List.append_nil])
    rw [hfields] at hmore
    rw [reader.fromStr_cut fields line more hmore hne]
    rfl

/-- A response that is cut off is an error. -/
theorem VpcClient.request_of_prefix (reader : Reader) (response : Protocol.Response)
    {bytes : List UInt8} (h : bytes <+: messageLine response.toJson) :
    VpcClient.request reader bytes = response.seen ∨
      VpcClient.request reader bytes = none ∧ newline ∉ bytes := by
  have hread : (reader.fromStr (render response.toJson)).bind VpcClient.VpcResponse.ofJson =
      response.seen := by
    rw [reader.fromStr_render, Option.bind_some, response.ofJson_toJson]
  rcases eq_or_prefix_of_messageLine h with rfl | hpart
  · refine Or.inl ?_
    unfold VpcClient.request messageLine
    rw [takeLine_append (newline_notMem _)]
    simp only [Option.map_some, Option.getD_some, fromUtf8_asBytes, Option.bind_some]
    exact hread
  · have hnl : newline ∉ bytes := fun hmem => newline_notMem _ (hpart.subset hmem)
    unfold VpcClient.request
    rw [takeLine_eq_none.mpr hnl]
    simp only [Option.map_none, Option.getD_none]
    cases hcut : fromUtf8 bytes with
    | none => exact Or.inr ⟨rfl, hnl⟩
    | some cut =>
        obtain ⟨more, hmore⟩ := prefix_of_fromUtf8 hpart hcut
        rw [Option.bind_some]
        by_cases hnil : more = []
        · rw [hnil, List.append_nil] at hmore
          rw [hmore]
          exact Or.inl hread
        · obtain ⟨fields, hfields⟩ := response.exists_fields
          rw [hfields] at hmore
          rw [reader.fromStr_cut fields cut more hmore hnil]
          exact Or.inr ⟨rfl, hnl⟩

/-- What a line did that the agent wrote for a request: at its moment in the history the daemon
handled the request, or refused a line that was cut off and stayed as it was. -/
def ServedLine.Serves {κ : Type} (reader : Reader) (wgManager : Option (String × UInt16))
    (d₀ : VpcDaemon) (log : List (Moment κ)) (r : VpcClient.VpcRequest) (e : ServedLine κ) : Prop :=
  ∃ before after d, log = before ++ .served e :: after ∧
    Sequential reader wgManager d₀ before d ∧
    d.respond reader wgManager e.answers e.line =
      (if e.line = render r.toJson then d.dispatchRequest wgManager e.answers r.meant
        else (.answer (.error "parse_error" ("Invalid request: " ++ reader.complaint e.line)), d)) ∧
    e.response = (d.respond reader wgManager e.answers e.line).1

/-- What the agent reads when nothing has come is an error. -/
theorem VpcClient.request_nil (reader : Reader) : VpcClient.request reader [] = none := by
  have hcut : reader.fromStr [] = none :=
    reader.fromStr_cut [] [] (render (.obj [])) rfl (List.cons_ne_nil _ _)
  have htext : fromUtf8 [] = some [] := fromUtf8_asBytes []
  unfold VpcClient.request
  simp only [takeLine, Option.map_none, Option.getD_none, htext, Option.bind_some, hcut,
    Option.bind_none]

/-- What comes of a request, in every state that the server can reach. -/
theorem ServerOk.call {κ : Type} [DecidableEq κ] {reader : Reader}
    {wgManager : Option (String × UInt16)} {d₀ : VpcDaemon} {s : SocketServer κ}
    (hok : ServerOk reader wgManager d₀ s) {k : κ} {r : VpcClient.VpcRequest}
    (hcall : (s.conns k).received <+: messageLine r.toJson) :
    (servedOn k s.log = [] ∧ (s.conns k).outbox = []) ∨
      ∃ e, servedOn k s.log = [e] ∧ e.Serves reader wgManager d₀ s.log r ∧
        e.response.seen.isSome = true ∧ (s.conns k).outbox <+: e.wire := by
  obtain ⟨⟨taken, htaken, hlines, -⟩, hwritten, -⟩ := hok.conns k
  have hfirst : (servedOn k s.log).map ServedLine.line <+: (s.conns k).requestLines := by
    rw [hlines]
    exact htaken.isPrefix.filterMap requestLine
  obtain ⟨fields, hfields⟩ := r.exists_fields
  have hone := requestLines_of_message (hfields ▸ hcall)
  cases hserved : servedOn k s.log with
  | nil =>
      rw [hserved] at hwritten
      exact Or.inl ⟨rfl, List.prefix_nil.mp hwritten⟩
  | cons e rest =>
      rw [hserved] at hfirst hwritten
      rcases hone with hnone | ⟨line, hline, hpart⟩
      · rw [hnone] at hfirst
        exact absurd (List.prefix_nil.mp hfirst) (List.cons_ne_nil _ _)
      · rw [hline, List.map_cons, List.cons_prefix_cons] at hfirst
        obtain ⟨rfl, hrest⟩ := hfirst
        have hrest : rest = [] := List.map_eq_nil_iff.mp (List.prefix_nil.mp hrest)
        subst hrest
        rw [List.flatMap_singleton] at hwritten
        have hmem : Moment.served e ∈ s.log := by
          have hin : e ∈ servedOn k s.log := by
            rw [hserved]
            exact List.mem_singleton_self e
          obtain ⟨m, hm, hsome⟩ := List.mem_filterMap.mp hin
          cases m with
          | served e' =>
              simp only at hsome
              split_ifs at hsome
              cases hsome
              exact hm
          | background change => cases hsome
        obtain ⟨before, after, hlog⟩ := List.append_of_mem hmem
        obtain ⟨d, hbefore, hresponse, -⟩ := sequential_append.mp (hlog ▸ hok.sequential)
        have hrespond := d.respond_of_prefix reader wgManager e.answers r (hfields ▸ hpart)
        refine Or.inr ⟨e, rfl, ⟨before, after, d, hlog, hbefore, hrespond, hresponse⟩, ?_, ?_⟩
        · rw [hresponse, hrespond]
          split_ifs
          · exact VpcDaemon.isSome_seen_dispatchRequest wgManager d e.answers r
          · rfl
        · exact hwritten

/-- **A call of the agent**, among any other connections: as long as what comes in on a connection is
the request or part of it, at most one line is handled there, with the effect of the request if it is
whole and with none otherwise.  What the agent reads back is the response to this line, as soon as
its end has come; a response that is cut off is an error, or complete all the same. -/
theorem vpc_client_call {κ : Type} [DecidableEq κ] (reader : Reader)
    (wgManager : Option (String × UInt16)) (d₀ : VpcDaemon) (events : List (SocketEvent κ)) (k : κ)
    (r : VpcClient.VpcRequest)
    (hcall : ((Transition.run (SocketServer.step reader wgManager) (SocketServer.new d₀)
      events).conns k).received <+: messageLine r.toJson) :
    let s := Transition.run (SocketServer.step reader wgManager) (SocketServer.new d₀) events
    (servedOn k s.log = [] ∧ (s.conns k).outbox = []) ∨
      ∃ e, servedOn k s.log = [e] ∧ e.Serves reader wgManager d₀ s.log r ∧
        e.response.seen.isSome = true ∧
        ∀ bytes, bytes <+: (s.conns k).outbox →
          VpcClient.request reader bytes = e.response.seen ∨
            VpcClient.request reader bytes = none ∧ newline ∉ bytes := by
  intro s
  rcases (ServerOk.run d₀ events).call hcall with hnone | ⟨e, he, hserves, hseen, hwritten⟩
  · exact Or.inl hnone
  · refine Or.inr ⟨e, he, hserves, hseen, fun bytes hbytes => ?_⟩
    exact VpcClient.request_of_prefix reader e.response (hbytes.trans hwritten)

/-- A fresh daemon gets a health check in two pieces. -/
def pingEvents : List (SocketEvent Unit) :=
  [.receive () ((messageLine VpcClient.VpcRequest.ping.toJson).take 5),
    .receive () ((messageLine VpcClient.VpcRequest.ping.toJson).drop 5), .handle () {} none]

def freshDaemon : VpcDaemon := ⟨GhostAllocator.new 0 0, {}, Interfaces.new 0 0, fun _ => none⟩

theorem vpc_client_call_ping :
    let reader := Reader.compact fun _ => "expected value"
    let s := Transition.run (SocketServer.step reader none) (SocketServer.new freshDaemon) pingEvents
    ∃ e, servedOn () s.log = [e] ∧ e.Serves reader none freshDaemon s.log .ping ∧
      VpcClient.request reader (s.conns ()).outbox = some .pong := by
  intro reader s
  have hserved : servedOn () s.log ≠ [] := fun h => absurd (congrArg List.length h) (by decide)
  have hread : VpcClient.request reader (s.conns ()).outbox = some .pong := by decide +kernel
  have hcall : (s.conns ()).received <+: messageLine VpcClient.VpcRequest.ping.toJson :=
    List.prefix_rfl
  rcases vpc_client_call reader none freshDaemon pingEvents () .ping hcall with
    ⟨hnone, -⟩ | ⟨e, he, hserves, -⟩
  · exact absurd hnone hserved
  · exact ⟨e, he, hserves, hread⟩

end K3rs
