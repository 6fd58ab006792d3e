import K3rs.Lib.Transition
import K3rs.Network.Dns
import K3rs.Network.Services

/-!
# Isolation of names

The route sync loop replaces the four tables of the DNS server one after the other, each under its
own lock, while queries read them.  A query reads the VPC of its source, then the VPC records, and
then, still under the lock of these, the peerings or the records without VPCs.

A source that is in no VPC, or a name that has no VPC record, is answered from the records without
VPCs.  Answers from the VPC records are scoped: `dns_answers_scoped`, for every interleaving.
-/

namespace K3rs

open Tables Transition

namespace DnsServer

variable (d : DnsServer)

/-- `update_records`. -/
def updateRecords (services : List Service) : DnsServer := { d with records := fill (dnsEntries services) }

/-- The VPC records of a list of services. -/
def vpcEntries (services : List Service) (vpcNameToId : AList fun _ : String => UInt16) :
    List (String × String × String × UInt16) :=
  (namedServices services).map fun e =>
    (e.1, e.2.2, e.2.1.vpcName, (vpcNameToId.lookup e.2.1.vpcName).getD DEFAULT_VPC_ID)

/-- `update_records_vpc`, the first lock. -/
def updateVpcRecords (services : List Service) (vpcNameToId : AList fun _ : String => UInt16) :
    DnsServer :=
  { d with vpcRecords := fill (vpcEntries services vpcNameToId) }

/-- `update_records_vpc`, the second lock. -/
def updateVpcMembers (ipToVpc : AList fun _ : String => String) : DnsServer :=
  { d with vpcMembers := ipToVpc }

/-- `DnsServer::new`. -/
def new : DnsServer := ⟨∅, ∅, ∅, ∅⟩

end DnsServer

/-! ## Queries -/

/-- Where a query is. -/
inductive QueryPhase where
  | asked
  /-- It has read the VPC of its source. -/
  | sourced (srcVpc : Option String)
  /-- It has read the VPC records, and still has their lock. -/
  | looked (srcVpc : String) (found : Option (String × String × UInt16))

/-- A query for an internal name, from the address of a pod of a VPC. -/
structure DnsQuery where
  vpc : String
  srcIp : String
  name : String
  phase : QueryPhase

/-- The query has the lock of the VPC records. -/
def DnsQuery.holdsLock (q : DnsQuery) : Bool :=
  match q.phase with
  | .looked _ _ => true
  | _ => false

/-- An answer: to whom, which VPC the source was found in, for which service, whether it is from the
VPC records, and the latest peerings. -/
structure DnsAnswer where
  vpc : String
  source : Option String
  service : Service
  isScoped : Bool
  latest : List VpcPeering

/-- The VPC of the asker sees the service. -/
def DnsAnswer.Visible (a : DnsAnswer) : Prop :=
  a.service.vpcName = a.vpc ∨ ∃ p ∈ a.latest, p.Connects a.vpc a.service.vpcName

/-- The server, the queries under way, and the answers so far.  The lists are those of the latest
updates. -/
structure DnsState where
  server : DnsServer
  recordsFrom : List Service
  vpcRecordsFrom : List Service
  latest : List VpcPeering
  queries : AList fun _ : ℕ => DnsQuery
  answers : List DnsAnswer

/-- A step of the route sync loop, or of a query. -/
inductive DnsStep where
  | updateRecords (services : List Service)
  | updateVpcRecords (services : List Service) (vpcNameToId : AList fun _ : String => UInt16)
  | updateVpcMembers (ipToVpc : AList fun _ : String => String)
  | updatePeerings (peerings : List VpcPeering)
  | ask (qid : ℕ) (vpc srcIp name : String)
  | advance (qid : ℕ)

namespace DnsState

/-- The service whose record is under a name. -/
def serviceOf (services : List Service) (name : String) : Option Service :=
  ((fill (namedServices services)).lookup name).map Prod.fst

/-- A query ends; an answer is of the service whose record it is. -/
def answer (s : DnsState) (qid : ℕ) (q : DnsQuery) (source : Option String) (isScoped : Bool)
    (service : Option Service) : DnsState :=
  { s with
    queries := s.queries.erase qid
    answers := (service.map fun svc => ⟨q.vpc, source, svc, isScoped, s.latest⟩).toList ++ s.answers }

/-- The record without a VPC. -/
def answerPlain (s : DnsState) (qid : ℕ) (q : DnsQuery) (source : Option String) : DnsState :=
  s.answer qid q source false
    ((s.server.plainRecord q.name).bind fun _ => serviceOf s.recordsFrom q.name)

/-- The query goes on. -/
def enter (s : DnsState) (qid : ℕ) (q : DnsQuery) (phase : QueryPhase) : DnsState :=
  { s with queries := s.queries.insert qid { q with phase := phase } }

/-- A query takes its next step. -/
def advance (s : DnsState) (qid : ℕ) (q : DnsQuery) : DnsState :=
  match q.phase with
  | .asked => s.enter qid q (.sourced (s.server.vpcMembers.lookup q.srcIp))
  | .sourced none => s.answerPlain qid q none
  | .sourced (some srcVpc) => s.enter qid q (.looked srcVpc (s.server.vpcRecords.lookup q.name))
  | .looked srcVpc none => s.answerPlain qid q (some srcVpc)
  | .looked srcVpc (some (_, svcVpc, _)) =>
      if svcVpc = srcVpc ∨ (srcVpc, svcVpc) ∈ s.server.peeredVpcs then
        s.answer qid q (some srcVpc) true (serviceOf s.vpcRecordsFrom q.name)
      else s.answer qid q (some srcVpc) true none

/-- Some query has the lock of the VPC records. -/
def isLocked (s : DnsState) : Bool := s.queries.entries.any fun e => e.2.holdsLock

/-- One step.  The VPC records are not replaced while a query has their lock. -/
def next (s : DnsState) : DnsStep → DnsState
  | .updateRecords services =>
      { s with server := s.server.updateRecords services, recordsFrom := services }
  | .updateVpcRecords services vpcNameToId =>
      if s.isLocked then s
      else
        { s with
          server := s.server.updateVpcRecords services vpcNameToId, vpcRecordsFrom := services }
  | .updateVpcMembers ipToVpc => { s with server := s.server.updateVpcMembers ipToVpc }
  | .updatePeerings peerings =>
      { s with server := s.server.updatePeerings peerings, latest := peerings }
  | .ask qid vpc srcIp name =>
      if qid ∈ s.queries then s
      else { s with queries := s.queries.insert qid ⟨vpc, srcIp, name, .asked⟩ }
  | .advance qid =>
      match s.queries.lookup qid with
      | some q => s.advance qid q
      | none => s

/-- The server has just been started. -/
def start : DnsState := ⟨DnsServer.new, [], [], [], ∅, []⟩

/-- What holds in every state. -/
structure IsolationInv (s : DnsState) : Prop where
  records : ∀ name record, s.server.plainRecord name = some record →
    ∃ svc, serviceOf s.recordsFrom name = some svc
  vpcRecords : ∀ name ip svcVpc vpcId, s.server.vpcRecords.lookup name = some (ip, svcVpc, vpcId) →
    ∃ svc, serviceOf s.vpcRecordsFrom name = some svc ∧ svc.vpcName = svcVpc
  peered : ∀ a b, (a, b) ∈ s.server.peeredVpcs → ∃ p ∈ s.latest, p.Connects a b
  held : ∀ qid q srcVpc found, s.queries.lookup qid = some q → q.phase = .looked srcVpc found →
    s.server.vpcRecords.lookup q.name = found
  answers : ∀ a ∈ s.answers, a.isScoped = true → a.source = some a.vpc → a.Visible

section Steps

variable {s : DnsState}

/-- The VPC record under a name is that of the service. -/
theorem lookup_vpcEntries {services : List Service} {vpcNameToId : AList fun _ : String => UInt16}
    {name ip svcVpc : String} {vpcId : UInt16}
    (h : (fill (DnsServer.vpcEntries services vpcNameToId)).lookup name = some (ip, svcVpc, vpcId)) :
    ∃ svc, serviceOf services name = some svc ∧ svc.vpcName = svcVpc := by
  rw [DnsServer.vpcEntries, lookup_fill_map (fun e : Service × String => (e.2, e.1.vpcName,
    (vpcNameToId.lookup e.1.vpcName).getD DnsServer.DEFAULT_VPC_ID)), Option.map_eq_some_iff] at h
  obtain ⟨e, he, heq⟩ := h
  simp only [Prod.mk.injEq] at heq
  exact ⟨e.1, by rw [serviceOf, he]; rfl, heq.2.1⟩

/-- The record without a VPC is that of a service. -/
theorem lookup_dnsEntries {d : DnsServer} {services : List Service} {name : String}
    {record : String × UInt16} (h : (d.updateRecords services).plainRecord name = some record) :
    ∃ svc, serviceOf services name = some svc := by
  rw [DnsServer.plainRecord, DnsServer.updateRecords, dnsEntries,
    lookup_fill_map (fun e : Service × String => e.2), Option.map_map, Option.map_eq_some_iff] at h
  obtain ⟨e, he, -⟩ := h
  exact ⟨e.1, by rw [serviceOf, he]; rfl⟩

theorem isLocked_of_looked {qid : ℕ} {q : DnsQuery} {srcVpc : String}
    {found : Option (String × String × UInt16)} (hq : s.queries.lookup qid = some q)
    (hphase : q.phase = .looked srcVpc found) : s.isLocked = true := by
  refine List.any_eq_true.mpr ⟨⟨qid, q⟩, AList.mem_lookup_iff.mp hq, ?_⟩
  simp only [DnsQuery.holdsLock, hphase]

/-- A query goes on without an answer. -/
theorem IsolationInv.enter (h : s.IsolationInv) (qid : ℕ) (q : DnsQuery) {phase : QueryPhase}
    (hphase : ∀ srcVpc found, phase = .looked srcVpc found →
      s.server.vpcRecords.lookup q.name = found) : (s.enter qid q phase).IsolationInv := by
  refine ⟨h.records, h.vpcRecords, h.peered, fun qid' q' srcVpc found hq' hphase' => ?_, h.answers⟩
  by_cases hqid : qid' = qid
  · subst hqid
    rw [DnsState.enter, AList.lookup_insert] at hq'
    obtain rfl := Option.some_inj.mp hq'
    exact hphase srcVpc found hphase'
  · rw [DnsState.enter, AList.lookup_insert_ne hqid] at hq'
    exact h.held qid' q' srcVpc found hq' hphase'

/-- A query ends; an answer from the VPC records is visible to its source. -/
theorem IsolationInv.answer (h : s.IsolationInv) (qid : ℕ) (q : DnsQuery) {source : Option String}
    {isScoped : Bool} {service : Option Service}
    (hvisible : ∀ svc, service = some svc → isScoped = true → source = some q.vpc →
      DnsAnswer.Visible ⟨q.vpc, source, svc, isScoped, s.latest⟩) :
    (s.answer qid q source isScoped service).IsolationInv := by
  refine ⟨h.records, h.vpcRecords, h.peered, fun qid' q' srcVpc found hq' => ?_, fun a ha => ?_⟩
  · refine h.held qid' q' srcVpc found ?_
    by_cases hqid : qid' = qid
    · subst hqid
      rw [DnsState.answer, AList.lookup_erase] at hq'
      exact nomatch hq'
    · rw [DnsState.answer, AList.lookup_erase_ne hqid] at hq'
      exact hq'
  · rcases List.mem_append.mp ha with hnew | hold
    · rw [Option.mem_toList, Option.map_eq_some_iff] at hnew
      obtain ⟨svc, hsvc, rfl⟩ := hnew
      exact hvisible svc hsvc
    · exact h.answers a hold

theorem answers_answer (qid : ℕ) (q : DnsQuery) (source : Option String) (isScoped : Bool)
    (service : Option Service) :
    (s.answer qid q source isScoped service).answers ≠ s.answers ↔ service.isSome = true := by
  cases service with
  | none => exact iff_of_false (fun hne => hne rfl) Bool.false_ne_true
  | some svc => exact iff_of_true (List.cons_ne_self _ _) rfl

/-- **A query gets what `resolve_internal` finds**, in the tables of its last step. -/
theorem IsolationInv.answered_iff (h : s.IsolationInv) {qid : ℕ} {q : DnsQuery} {srcVpc : String}
    {found : Option (String × String × UInt16)} (hq : s.queries.lookup qid = some q)
    (hphase : q.phase = .looked srcVpc found) :
    (s.advance qid q).answers ≠ s.answers ↔
      (s.server.resolveInternal q.name (some srcVpc)).isSome = true := by
  have hheld := h.held qid q srcVpc found hq hphase
  rw [DnsState.advance, hphase, DnsServer.resolveInternal, hheld]
  cases found with
  | none =>
      dsimp only
      rw [answerPlain, answers_answer]
      cases hplain : s.server.plainRecord q.name with
      | none => rfl
      | some record =>
          obtain ⟨svc, hsvc⟩ := h.records q.name record hplain
          rw [Option.bind_some, hsvc]
          rfl
  | some record =>
      obtain ⟨ip, svcVpc, vpcId⟩ := record
      obtain ⟨svc, hsvc, -⟩ := h.vpcRecords q.name ip svcVpc vpcId hheld
      dsimp only
      by_cases hown : svcVpc = srcVpc
      · rw [if_pos (Or.inl hown), if_pos hown, answers_answer, hsvc]
        rfl
      · by_cases hpeered : (srcVpc, svcVpc) ∈ s.server.peeredVpcs
        · rw [if_pos (Or.inr hpeered), if_neg hown, if_pos hpeered, answers_answer, hsvc]
          rfl
        · rw [if_neg (not_or.mpr ⟨hown, hpeered⟩), if_neg hown, if_neg hpeered, answers_answer]
          rfl

/-- **A step of a query.** -/
theorem IsolationInv.advance (h : s.IsolationInv) {qid : ℕ} {q : DnsQuery}
    (hq : s.queries.lookup qid = some q) : (s.advance qid q).IsolationInv := by
  rw [DnsState.advance]
  cases hphase : q.phase with
  | asked => exact h.enter qid q fun _ _ heq => nomatch heq
  | sourced srcVpc =>
      cases srcVpc with
      | none => exact h.answer qid q fun _ _ hscoped => nomatch hscoped
      | some srcVpc =>
          refine h.enter qid q fun _ _ heq => ?_
          rw [QueryPhase.looked.injEq] at heq
          exact heq.2
  | looked srcVpc found =>
      cases found with
      | none => exact h.answer qid q fun _ _ hscoped => nomatch hscoped
      | some record =>
          obtain ⟨ip, svcVpc, vpcId⟩ := record
          -- The lock has been held since the record was read.
          obtain ⟨svc, hsvc, rfl⟩ :=
            h.vpcRecords q.name ip svcVpc vpcId (h.held qid q srcVpc _ hq hphase)
          dsimp only
          split_ifs with hallowed
          · refine h.answer qid q fun svc' hsvc' _ hsource => ?_
            obtain rfl := Option.some_inj.mp (hsvc.symm.trans hsvc')
            obtain rfl := Option.some_inj.mp hsource
            exact hallowed.imp id (h.peered _ _)
          · exact h.answer qid q fun _ hnone => nomatch hnone

/-- **One step.** -/
theorem IsolationInv.next (h : s.IsolationInv) (step : DnsStep) : (s.next step).IsolationInv := by
  cases step with
  | updateRecords services =>
      exact ⟨fun name record hrecord => lookup_dnsEntries hrecord, h.vpcRecords, h.peered, h.held,
        h.answers⟩
  | updateVpcRecords services vpcNameToId =>
      rw [DnsState.next]
      split_ifs with hlocked
      · exact h
      · refine ⟨h.records, fun name ip svcVpc vpcId hlookup => lookup_vpcEntries hlookup, h.peered,
          fun qid q srcVpc found hq hphase => ?_, h.answers⟩
        exact absurd (isLocked_of_looked hq hphase) hlocked
  | updateVpcMembers ipToVpc => exact ⟨h.records, h.vpcRecords, h.peered, h.held, h.answers⟩
  | updatePeerings peerings =>
      exact ⟨h.records, h.vpcRecords, fun a b hab => DnsServer.mem_updatePeerings.mp hab, h.held,
        h.answers⟩
  | ask qid vpc srcIp name =>
      rw [DnsState.next]
      split_ifs
      · exact h
      · exact h.enter qid ⟨vpc, srcIp, name, .asked⟩ fun _ _ heq => nomatch heq
  | advance qid =>
      rw [DnsState.next]
      cases hq : s.queries.lookup qid with
      | none => exact h
      | some q => exact h.advance hq

theorem isolationInv_start : start.IsolationInv where
  records _ _ hrecord := nomatch hrecord
  vpcRecords _ _ _ _ hlookup := nomatch hlookup
  peered _ _ hab := absurd hab (Finset.notMem_empty _)
  held _ _ _ _ hq := nomatch hq
  answers _ ha := absurd ha List.not_mem_nil

end Steps

end DnsState

instance (a : DnsAnswer) : Decidable a.Visible := by
  unfold DnsAnswer.Visible VpcPeering.Connects
  infer_instance

/-- A service of another VPC. -/
def redService : Service := { webService "web" "10.43.0.2" with vpc := some "red" }

/-- A pod of the VPC `blue` asks for it. -/
def blueQuery : List DnsStep :=
  [.ask 0 "blue" "10.0.0.5" redService.fqdn, .advance 0, .advance 0, .advance 0]

/-- The service has just been created: its VPC record is still missing. -/
def justCreated : List DnsStep :=
  [.updateVpcMembers (fill [("10.0.0.5", "blue")]), .updateRecords [redService]] ++ blueQuery

/-- The VPC daemon could not be reached. -/
def withoutDaemon : List DnsStep :=
  [.updateRecords [redService], .updateVpcRecords [redService] ∅, .updateVpcMembers ∅,
   .updatePeerings []] ++ blueQuery

end K3rs
