import K3rs.Server.VpcRegistry

/-!
# Identity of VPCs

What keeps the VPCs of a cluster apart is that no two of them share an id or an address,
and what ties the daemons' pools to a VPC is that its id and CIDR stay what they were.
Neither is kept by the handlers alone.

* `vpcs_distinct`: requests that interleave keep the VPCs distinct when every write still
  finds the registry that the request has read.
* `vpc_identity_stable`: requests one after the other keep every VPC's identity when
  nobody creates a VPC under a name that exists.
-/

namespace K3rs

open Tables Transition

/-! ## Requests that interleave -/

/-- A write that a request will make. -/
inductive PendingPut where
  /-- `create_vpc`, with the records it has listed. -/
  | create (existing : List VpcRecord) (vpc : VpcRecord)
  | delete (vpc : VpcRecord)
  | seed
  deriving DecidableEq, Repr

/-- The record that is written. -/
def PendingPut.record : PendingPut → VpcRecord
  | create _ vpc => vpc
  | delete vpc => vpc
  | seed => defaultVpc

/-- The registry and the requests that have read but not written. -/
structure RegistryState where
  vpcs : VpcTable
  inFlight : ℕ → Option PendingPut
  /-- History variable: how many `create_vpc` requests were accepted. -/
  created : ℕ

/-- Single reads and writes of the store. -/
inductive RegistryStep where
  /-- `create_vpc` lists the registry. -/
  | createVpc (request : ℕ) (vpc : VpcRecord) (now : ℤ) (scan : Scan)
  /-- `delete_vpc` reads the record. -/
  | deleteVpc (request : ℕ) (name : String)
  /-- `ensure_default_vpc` looks for the default VPC. -/
  | ensureDefaultVpc (request : ℕ)
  | put (request : ℕ)
  /-- The write fails, or the client is gone. -/
  | abandon (request : ℕ)
  deriving DecidableEq, Repr

namespace RegistryState

/-- An empty registry without requests. -/
def init : RegistryState where
  vpcs := ∅
  inFlight _ := none
  created := 0

variable (st : RegistryState)

/-- The request goes on with a write, or has ended. -/
def setInFlight (request : ℕ) (pending : Option PendingPut) : RegistryState :=
  { st with inFlight := Function.update st.inFlight request pending }

/-- One step. -/
def step : RegistryStep → RegistryState
  | .createVpc request vpc now scan =>
      let existing := st.vpcs.list scan
      match createVpc vpc existing now with
      | .error _ => st.setInFlight request none
      | .ok record =>
          { st with created := st.created + 1 }.setInFlight request
            (some (.create existing record))
  | .deleteVpc request name =>
      match deleteVpc name (st.vpcs.get name) with
      | .error _ => st.setInFlight request none
      | .ok record => st.setInFlight request (some (.delete record))
  | .ensureDefaultVpc request =>
      st.setInFlight request
        ((ensureDefaultVpc (st.vpcs.get "default")).map fun _ => .seed)
  | .put request =>
      match st.inFlight request with
      | none => st
      | some pending => { st with vpcs := st.vpcs.put pending.record }.setInFlight request none
  | .abandon request => st.setInFlight request none

/-- No address lies in the CIDRs of both. -/
def Disjoint (a b : VpcRecord) : Prop :=
  ¬ ∃ ip, Server.InCidr a.ipv4Cidr ip ∧ Server.InCidr b.ipv4Cidr ip

/-- VPCs of different names have different ids, none of them zero, and disjoint CIDRs. -/
def Distinct : Prop :=
  ∀ a ∈ st.vpcs.rows, a.vpcId ≠ 0 ∧
    ∀ b ∈ st.vpcs.rows, a.name ≠ b.name → a.vpcId ≠ b.vpcId ∧ Disjoint a b

/-- `max_id + 1` fits 16 bits. -/
def NoWrap : RegistryStep → Prop
  | .createVpc _ _ _ scan => (maxId (st.vpcs.list scan)).toNat + 1 < 2 ^ 16
  | _ => True

/-- What a write relies on.  A create's finds no VPC of another name that it has not listed;
a delete's finds the id and CIDR that it has read; the default VPC is written where no other
VPC has its id or addresses. -/
def StillHolds : PendingPut → Prop
  | .create existing vpc =>
      ∀ a ∈ st.vpcs.rows, a.name ≠ vpc.name →
        ∃ b ∈ existing, b.vpcId = a.vpcId ∧ b.ipv4Cidr = a.ipv4Cidr
  | .delete vpc =>
      ∀ a ∈ st.vpcs.rows, a.name = vpc.name → a.vpcId = vpc.vpcId ∧ a.ipv4Cidr = vpc.ipv4Cidr
  | .seed =>
      ∀ a ∈ st.vpcs.rows, a.name ≠ "default" →
        a.vpcId ≠ 1 ∧ Server.cidrsOverlap "10.42.0.0/16" a.ipv4Cidr = false

/-- Every write relies on what still holds, and ids are left. -/
def Undisturbed : RegistryStep → Prop
  | .createVpc _ _ _ _ => st.created + 2 < 2 ^ 16
  | .put request => ∀ pending ∈ st.inFlight request, st.StillHolds pending
  | _ => True

instance decidableStillHolds : DecidablePred st.StillHolds
  | .create existing vpc =>
      inferInstanceAs (Decidable (∀ a ∈ st.vpcs.rows, a.name ≠ vpc.name →
        ∃ b ∈ existing, b.vpcId = a.vpcId ∧ b.ipv4Cidr = a.ipv4Cidr))
  | .delete vpc =>
      inferInstanceAs (Decidable (∀ a ∈ st.vpcs.rows, a.name = vpc.name →
        a.vpcId = vpc.vpcId ∧ a.ipv4Cidr = vpc.ipv4Cidr))
  | .seed =>
      inferInstanceAs (Decidable (∀ a ∈ st.vpcs.rows, a.name ≠ "default" →
        a.vpcId ≠ 1 ∧ Server.cidrsOverlap "10.42.0.0/16" a.ipv4Cidr = false))

instance decidableUndisturbed : DecidablePred st.Undisturbed
  | .createVpc _ _ _ _ => inferInstanceAs (Decidable (st.created + 2 < 2 ^ 16))
  | .put request =>
      inferInstanceAs (Decidable (∀ pending ∈ st.inFlight request, st.StillHolds pending))
  | .deleteVpc _ _ => inferInstanceAs (Decidable True)
  | .ensureDefaultVpc _ => inferInstanceAs (Decidable True)
  | .abandon _ => inferInstanceAs (Decidable True)

/-! ## The invariant -/

/-- A pending write was computed from what the request has read. -/
def PendingOk : PendingPut → Prop
  | .create existing vpc =>
      vpc.vpcId ≠ 0 ∧ vpc.vpcId.toNat ≤ st.created + 1 ∧
        ∀ b ∈ existing, vpc.vpcId ≠ b.vpcId ∧ Disjoint vpc b
  | .delete vpc => ∃ a ∈ st.vpcs.rows, a.name = vpc.name
  | .seed => True

/-- The invariant of the undisturbed runs. -/
structure Inv : Prop where
  distinct : st.Distinct
  ids : ∀ a ∈ st.vpcs.rows, a.vpcId.toNat ≤ st.created + 1
  pending : ∀ request pending, st.inFlight request = some pending → st.PendingOk pending

theorem inv_init : init.Inv where
  distinct := by simp [Distinct, init, EmptyCollection.emptyCollection]
  ids := by simp [init, EmptyCollection.emptyCollection]
  pending := by simp [init]

variable {st}

theorem mem_of_mem_list {scan : Scan} {a : VpcRecord} (h : a ∈ st.vpcs.list scan) :
    a ∈ st.vpcs.rows := by
  cases scan with
  | complete => exact h
  | cut count => exact List.mem_of_mem_take h

theorem disjoint_of_cidrsOverlap {a b : VpcRecord}
    (h : Server.cidrsOverlap a.ipv4Cidr b.ipv4Cidr = false) : Disjoint a b := by
  rintro ⟨ip, ha, hb⟩
  rw [Server.cidrsOverlap_of_shared ha hb] at h
  cases h

theorem Disjoint.symm {a b : VpcRecord} (h : Disjoint a b) : Disjoint b a := by
  rintro ⟨ip, hb, ha⟩
  exact h ⟨ip, ha, hb⟩

/-- The requests move on, the registry stays. -/
theorem Inv.setInFlight (h : st.Inv) {request : ℕ} {pending : Option PendingPut}
    (hp : ∀ p ∈ pending, st.PendingOk p) : (st.setInFlight request pending).Inv := by
  refine ⟨h.distinct, h.ids, fun r p hr => ?_⟩
  by_cases hr' : r = request
  · subst hr'
    simp only [RegistryState.setInFlight, Function.update_self] at hr
    exact hp p hr
  · simp only [RegistryState.setInFlight, Function.update_of_ne hr'] at hr
    exact h.pending r p hr

/-- One more accepted request. -/
theorem Inv.count (h : st.Inv) : Inv { st with created := st.created + 1 } where
  distinct := h.distinct
  ids a ha := Nat.le_succ_of_le (h.ids a ha)
  pending r p hr := by
    have hok := h.pending r p hr
    cases p with
    | create existing vpc =>
        obtain ⟨hzero, hle, hlisted⟩ := hok
        exact ⟨hzero, Nat.le_succ_of_le hle, hlisted⟩
    | delete vpc => exact hok
    | seed => exact hok

theorem Inv.maxId_le (h : st.Inv) (scan : Scan) :
    (maxId (st.vpcs.list scan)).toNat ≤ st.created + 1 :=
  K3rs.maxId_le fun a ha => h.ids a (mem_of_mem_list ha)

theorem Inv.noWrap (h : st.Inv) {input : RegistryStep} (hu : st.Undisturbed input) :
    st.NoWrap input := by
  cases input with
  | createVpc request vpc now scan =>
      exact lt_of_le_of_lt (Nat.succ_le_succ (h.maxId_le scan)) hu
  | _ => trivial

theorem Inv.createVpc (h : st.Inv) {request : ℕ} {vpc : VpcRecord} {now : ℤ} {scan : Scan}
    (hu : st.Undisturbed (.createVpc request vpc now scan)) :
    (st.step (.createVpc request vpc now scan)).Inv := by
  have hwrap := h.noWrap hu
  simp only [step]
  cases hcreate : K3rs.createVpc vpc (st.vpcs.list scan) now with
  | error response => exact h.setInFlight (by simp)
  | ok record =>
      obtain ⟨-, hoverlap, rfl⟩ := createVpc_eq_ok hcreate
      have hid := nextId_toNat now hwrap
      refine h.count.setInFlight ?_
      rintro p ⟨⟩
      refine ⟨fun hzero => ?_, ?_, fun b hb => ⟨fun heq => ?_, ?_⟩⟩
      · have hnext : nextId (st.vpcs.list scan) now = 0 := hzero
        rw [hnext] at hid
        exact absurd hid (Nat.succ_ne_zero _).symm
      · exact hid.trans_le (Nat.succ_le_succ (h.maxId_le scan))
      · have hle := le_maxId hb
        rw [← heq, hid] at hle
        exact Nat.not_succ_le_self _ hle
      · exact disjoint_of_cidrsOverlap (hoverlap b hb)

/-- Writing a record that conflicts with no other name keeps the VPCs distinct. -/
theorem Distinct.put (h : st.Distinct) {row : VpcRecord} (hzero : row.vpcId ≠ 0)
    (hrow : ∀ a ∈ st.vpcs.rows, a.name ≠ row.name → row.vpcId ≠ a.vpcId ∧ Disjoint row a) :
    Distinct { st with vpcs := st.vpcs.put row } := by
  intro a ha
  rcases (st.vpcs.mem_put).mp ha with rfl | ⟨hold, hka⟩
  · refine ⟨hzero, fun b hb hne => ?_⟩
    rcases (st.vpcs.mem_put).mp hb with rfl | ⟨hb, -⟩
    · exact absurd rfl hne
    · exact hrow b hb (Ne.symm hne)
  · refine ⟨(h a hold).1, fun b hb hne => ?_⟩
    rcases (st.vpcs.mem_put).mp hb with rfl | ⟨hb, -⟩
    · obtain ⟨hid, hdisj⟩ := hrow a hold hka
      exact ⟨hid.symm, hdisj.symm⟩
    · exact (h a hold).2 b hb hne

/-- A pending write that is undisturbed conflicts with no VPC of another name. -/
theorem Inv.conflictFree (h : st.Inv) {request : ℕ} {pending : PendingPut}
    (hpending : st.inFlight request = some pending) (hu : st.Undisturbed (.put request)) :
    pending.record.vpcId ≠ 0 ∧ pending.record.vpcId.toNat ≤ st.created + 1 ∧
      ∀ a ∈ st.vpcs.rows, a.name ≠ pending.record.name →
        pending.record.vpcId ≠ a.vpcId ∧ Disjoint pending.record a := by
  have hok := h.pending request pending hpending
  have hstill := hu pending hpending
  cases pending with
  | create existing vpc =>
      -- every VPC of the registry has the id and CIDR of one that was listed
      obtain ⟨hzero, hle, hlisted⟩ := hok
      refine ⟨hzero, hle, fun a ha hne => ?_⟩
      obtain ⟨b, hb, hid, hcidr⟩ := hstill a ha hne
      obtain ⟨hidne, hdisj⟩ := hlisted b hb
      refine ⟨hid ▸ hidne, ?_⟩
      unfold Disjoint at hdisj ⊢
      rw [← hcidr]
      exact hdisj
  | delete vpc =>
      -- it writes back the id and CIDR of a VPC that is there
      obtain ⟨old, hold, hname⟩ := hok
      obtain ⟨hid, hcidr⟩ := hstill old hold hname
      obtain ⟨hzero, hothers⟩ := h.distinct old hold
      refine ⟨hid ▸ hzero, hid ▸ h.ids old hold, fun a ha hne => ?_⟩
      obtain ⟨hidne, hdisj⟩ := hothers a ha (hname.trans_ne (Ne.symm hne))
      refine ⟨hid ▸ hidne, ?_⟩
      unfold Disjoint at hdisj ⊢
      rw [hcidr] at hdisj
      exact hdisj
  | seed =>
      refine ⟨by decide, Nat.succ_le_succ (Nat.zero_le _), fun a ha hne => ?_⟩
      obtain ⟨hid, hcidr⟩ := hstill a ha hne
      exact ⟨Ne.symm hid, disjoint_of_cidrsOverlap hcidr⟩

theorem Inv.put (h : st.Inv) {request : ℕ} (hu : st.Undisturbed (.put request)) :
    (st.step (.put request)).Inv := by
  simp only [step]
  cases hpending : st.inFlight request with
  | none => exact h
  | some pending =>
      obtain ⟨hzero, hle, hothers⟩ := h.conflictFree hpending hu
      refine Inv.setInFlight ⟨h.distinct.put hzero hothers, ?_, ?_⟩ (by simp)
      · intro a ha
        rcases (st.vpcs.mem_put).mp ha with rfl | ⟨ha, -⟩
        · exact hle
        · exact h.ids a ha
      · intro r p hr
        have hok := h.pending r p hr
        cases p with
        | create existing vpc => exact hok
        | seed => trivial
        | delete vpc =>
            -- the name stays in the registry
            obtain ⟨a, ha, hname⟩ := hok
            by_cases hkey : a.name = pending.record.name
            · exact ⟨pending.record, (st.vpcs.mem_put).mpr (Or.inl rfl), hkey.symm.trans hname⟩
            · exact ⟨a, (st.vpcs.mem_put).mpr (Or.inr ⟨ha, hkey⟩), hname⟩

theorem Inv.step (h : st.Inv) {input : RegistryStep} (hu : st.Undisturbed input) :
    (st.step input).Inv := by
  cases input with
  | createVpc request vpc now scan => exact h.createVpc hu
  | deleteVpc request name =>
      simp only [RegistryState.step]
      cases hdelete : deleteVpc name (st.vpcs.get name) with
      | error response => exact h.setInFlight (by simp)
      | ok record =>
          obtain ⟨vpc, hread, rfl⟩ := deleteVpc_eq_ok hdelete
          refine h.setInFlight ?_
          rintro p ⟨⟩
          exact ⟨vpc, ((st.vpcs.get_eq_some_iff).mp hread).1, rfl⟩
  | ensureDefaultVpc request =>
      refine h.setInFlight fun p hp => ?_
      obtain ⟨-, -, rfl⟩ := Option.map_eq_some_iff.mp hp
      trivial
  | put request => exact h.put hu
  | abandon request => exact h.setInFlight (by simp)

/-- **VPCs stay distinct** in every run whose requests are undisturbed, and no id wraps. -/
theorem vpcs_distinct {steps : List RegistryStep}
    (h : Admitted RegistryState.step Undisturbed init steps) :
    Along RegistryState.step Distinct init steps ∧
      Admitted RegistryState.step NoWrap init steps := by
  have hkeep : ∀ st input, Undisturbed st input → st.Inv → (st.step input).Inv :=
    fun st input hu hst => hst.step hu
  constructor
  · exact (along_of_admitted Inv hkeep inv_init h).mono fun st hst => hst.distinct
  · exact Admitted.mono Inv hkeep (fun st input hst hu => hst.noWrap hu) inv_init h

/-- A request for a VPC. -/
def vpcRequest (name ipv4Cidr : String) : VpcRecord where
  name := name
  vpcId := 0
  ipv4Cidr := ipv4Cidr
  status := .active

/-- The default VPC is seeded and a VPC is created, deleted and joined by another. -/
theorem vpcs_distinct_seeded :
    Along RegistryState.step Distinct init
        [.ensureDefaultVpc 0, .put 0, .createVpc 1 (vpcRequest "a" "10.0.0.0/24") 0 .complete,
          .put 1, .deleteVpc 2 "a", .put 2,
          .createVpc 3 (vpcRequest "b" "10.1.0.0/24") 0 .complete, .put 3] ∧
      Admitted RegistryState.step NoWrap init
        [.ensureDefaultVpc 0, .put 0, .createVpc 1 (vpcRequest "a" "10.0.0.0/24") 0 .complete,
          .put 1, .deleteVpc 2 "a", .put 2,
          .createVpc 3 (vpcRequest "b" "10.1.0.0/24") 0 .complete, .put 3] :=
  vpcs_distinct (by decide)

/-- Two requests list the same registry: both VPCs get the same id. -/
theorem vpcs_distinct_fails_race :
    ¬ ∀ steps, Along RegistryState.step Distinct init steps ∧
      Admitted RegistryState.step NoWrap init steps := by
  intro h
  have hdistinct := (h [.createVpc 1 (vpcRequest "a" "10.0.0.0/24") 0 .complete,
    .createVpc 2 (vpcRequest "b" "10.1.0.0/24") 0 .complete, .put 1, .put 2]).1 _
    (List.prefix_refl _)
  obtain ⟨-, hothers⟩ := hdistinct { vpcRequest "a" "10.0.0.0/24" with vpcId := 1 }
    (by decide)
  obtain ⟨hid, -⟩ := hothers { vpcRequest "b" "10.1.0.0/24" with vpcId := 1 }
    (by decide) (by decide)
  exact hid rfl

end RegistryState

/-! ## Requests one after the other -/

/-- A request and what the store does for it. -/
inductive VpcRequest where
  | create (vpc : VpcRecord) (now : ℤ) (scan : Scan) (stored : Bool)
  | delete (name : String) (read stored : Bool)
  deriving DecidableEq, Repr

/-- The store lists all records. -/
def VpcRequest.ListsAll : VpcRequest → Prop
  | .create _ _ scan _ => scan = .complete
  | .delete _ _ _ => True

namespace VpcTable

/-- A whole request: the registry after it, and the response. -/
def serve (vpcs : VpcTable) : VpcRequest → VpcTable × Response
  | .create vpc now scan stored =>
      match createVpc vpc (vpcs.list scan) now with
      | .error response => (vpcs, response)
      | .ok record =>
          if stored then (vpcs.put record, .json .created record)
          else (vpcs, .text .internalServerError "Failed to create VPC")
  | .delete name read stored =>
      if name ≠ "default" ∧ read = false then (vpcs, .text .internalServerError "Store error")
      else
        match deleteVpc name (vpcs.get name) with
        | .error response => (vpcs, response)
        | .ok record =>
            if stored then (vpcs.put record, .json .ok record)
            else (vpcs, .text .internalServerError "Failed to update VPC")

/-- The registry after a request. -/
def after (vpcs : VpcTable) (request : VpcRequest) : VpcTable := (vpcs.serve request).1

/-- **Stable identity.**  A record stored later under the same name has the same id and the
same CIDR. -/
def StableAlong (vpcs : VpcTable) (requests : List VpcRequest) : Prop :=
  ∀ pre post, pre ++ post <+: requests →
    ∀ a ∈ (run after vpcs pre).rows, ∀ b ∈ (run after vpcs (pre ++ post)).rows,
      a.name = b.name → a.vpcId = b.vpcId ∧ a.ipv4Cidr = b.ipv4Cidr

/-- A create for a name that exists comes to nothing: its CIDR is invalid or overlaps a
listed VPC, or the store fails. -/
def NoOverwrite (vpcs : VpcTable) : VpcRequest → Prop
  | .create vpc _ scan stored =>
      (∃ a ∈ vpcs.rows, a.name = vpc.name) →
        (Server.parseCidr vpc.ipv4Cidr).isNone ∨
          (∃ e ∈ vpcs.list scan, Server.cidrsOverlap vpc.ipv4Cidr e.ipv4Cidr = true) ∨
          stored = false
  | .delete _ _ _ => True

instance decidableNoOverwrite (vpcs : VpcTable) : DecidablePred vpcs.NoOverwrite
  | .create vpc _ scan stored =>
      inferInstanceAs (Decidable ((∃ a ∈ vpcs.rows, a.name = vpc.name) →
        (Server.parseCidr vpc.ipv4Cidr).isNone ∨
          (∃ e ∈ vpcs.list scan, Server.cidrsOverlap vpc.ipv4Cidr e.ipv4Cidr = true) ∨
          stored = false))
  | .delete _ _ _ => inferInstanceAs (Decidable True)

/-- Every VPC is still there with its id and CIDR. -/
def Keeps (vpcs vpcs' : VpcTable) : Prop :=
  ∀ a ∈ vpcs.rows, ∃ b ∈ vpcs'.rows,
    b.name = a.name ∧ b.vpcId = a.vpcId ∧ b.ipv4Cidr = a.ipv4Cidr

variable {vpcs vpcs' vpcs'' : VpcTable}

theorem Keeps.refl (vpcs : VpcTable) : Keeps vpcs vpcs :=
  fun a ha => ⟨a, ha, rfl, rfl, rfl⟩

theorem Keeps.trans (h : Keeps vpcs vpcs') (h' : Keeps vpcs' vpcs'') : Keeps vpcs vpcs'' := by
  intro a ha
  obtain ⟨b, hb, hname, hid, hcidr⟩ := h a ha
  obtain ⟨c, hc, hname', hid', hcidr'⟩ := h' b hb
  exact ⟨c, hc, hname'.trans hname, hid'.trans hid, hcidr'.trans hcidr⟩

theorem Keeps.put {row : VpcRecord}
    (h : ∀ a ∈ vpcs.rows, a.name = row.name → row.vpcId = a.vpcId ∧ row.ipv4Cidr = a.ipv4Cidr) :
    Keeps vpcs (vpcs.put row) := by
  intro a ha
  by_cases hname : a.name = row.name
  · exact ⟨row, (vpcs.mem_put).mpr (Or.inl rfl), hname.symm, h a ha hname⟩
  · exact ⟨a, (vpcs.mem_put).mpr (Or.inr ⟨ha, hname⟩), rfl, rfl, rfl⟩

/-- A request that overwrites nothing keeps every VPC. -/
theorem keeps_after {request : VpcRequest} (h : vpcs.NoOverwrite request) :
    Keeps vpcs (vpcs.after request) := by
  cases request with
  | create vpc now scan stored =>
      simp only [after, serve]
      cases hcreate : createVpc vpc (vpcs.list scan) now with
      | error response => exact Keeps.refl vpcs
      | ok record =>
          obtain ⟨hparse, hfree, rfl⟩ := createVpc_eq_ok hcreate
          cases stored with
          | false => exact Keeps.refl vpcs
          | true =>
              refine Keeps.put fun a ha hname => ?_
              rcases h ⟨a, ha, hname⟩ with hnone | ⟨e, he, hoverlap⟩ | hfail
              · rw [Option.isNone_iff_eq_none.mp hnone] at hparse
                cases hparse
              · rw [hfree e he] at hoverlap
                cases hoverlap
              · cases hfail
  | delete name read stored =>
      simp only [after, serve]
      by_cases hfail : name ≠ "default" ∧ read = false
      · rw [if_pos hfail]
        exact Keeps.refl vpcs
      · rw [if_neg hfail]
        cases hdelete : deleteVpc name (vpcs.get name) with
        | error response => exact Keeps.refl vpcs
        | ok record =>
            obtain ⟨vpc, hread, rfl⟩ := deleteVpc_eq_ok hdelete
            cases stored with
            | false => exact Keeps.refl vpcs
            | true =>
                refine Keeps.put fun a ha hname => ?_
                obtain rfl := vpcs.eq_of_key_eq ha ((vpcs.get_eq_some_iff).mp hread).1 hname
                exact ⟨rfl, rfl⟩

theorem keeps_run {requests : List VpcRequest} (h : Admitted after NoOverwrite vpcs requests) :
    Keeps vpcs (run after vpcs requests) := by
  induction requests generalizing vpcs with
  | nil => exact Keeps.refl vpcs
  | cons request rest ih =>
      obtain ⟨hfirst, hrest⟩ := h
      exact (keeps_after hfirst).trans (ih hrest)

/-- With all records listed, a create that is stored over an existing name changes its CIDR:
the old one would have been an overlap. -/
theorem noOverwrite_of_keeps {request : VpcRequest} (hlists : request.ListsAll)
    (h : ∀ a ∈ vpcs.rows, ∀ b ∈ (vpcs.after request).rows, a.name = b.name →
      a.vpcId = b.vpcId ∧ a.ipv4Cidr = b.ipv4Cidr) : vpcs.NoOverwrite request := by
  cases request with
  | delete name read stored => trivial
  | create vpc now scan stored =>
      rintro ⟨a, ha, hname⟩
      cases hcreate : createVpc vpc (vpcs.list scan) now with
      | error response =>
          rcases createVpc_eq_error hcreate with hnone | hoverlap
          · exact Or.inl hnone
          · exact Or.inr (Or.inl hoverlap)
      | ok record =>
          obtain ⟨hparse, hfree, rfl⟩ := createVpc_eq_ok hcreate
          cases stored with
          | false => exact Or.inr (Or.inr rfl)
          | true =>
              simp only [after, serve, hcreate, if_true] at h
              obtain ⟨-, hcidr⟩ := h a ha _ ((vpcs.mem_put).mpr (Or.inl rfl)) hname
              obtain rfl : scan = .complete := hlists
              have hself := hfree a ha
              rw [hcidr, Server.cidrsOverlap_self hparse] at hself
              cases hself

/-- **VPC identity.**  The id and CIDR of every name are stable along a run when each create
for a name that exists comes to nothing; and, unless a scan of the store broke off, only
then. -/
theorem vpc_identity_stable (vpcs : VpcTable) (requests : List VpcRequest) :
    (Admitted after NoOverwrite vpcs requests → vpcs.StableAlong requests) ∧
      ((∀ request ∈ requests, request.ListsAll) → vpcs.StableAlong requests →
        Admitted after NoOverwrite vpcs requests) := by
  constructor
  · rintro h pre post ⟨later, rfl⟩ a ha b hb hname
    have hpost := (admitted_append.mp (admitted_append.mp h).1).2
    rw [run_append] at hb
    obtain ⟨c, hc, hname', hid, hcidr⟩ := keeps_run hpost a ha
    obtain rfl := Table.eq_of_key_eq _ hb hc (hname.symm.trans hname'.symm)
    exact ⟨hid.symm, hcidr.symm⟩
  · intro hlists h
    induction requests generalizing vpcs with
    | nil => trivial
    | cons request rest ih =>
        have hrest : ∀ r ∈ rest, r.ListsAll := fun r hr => hlists r (List.mem_cons_of_mem _ hr)
        refine ⟨noOverwrite_of_keeps (hlists request List.mem_cons_self) ?_, ih _ hrest ?_⟩
        · exact h [] [request] (List.prefix_append [request] rest)
        · intro pre post hpre
          exact h (request :: pre) post (List.cons_prefix_cons.mpr ⟨rfl, hpre⟩)

/-- The same request twice: the second one is refused. -/
theorem vpc_identity_stable_refused :
    StableAlong ∅ [.create (RegistryState.vpcRequest "a" "10.0.0.0/24") 0 .complete true,
      .delete "a" true true,
      .create (RegistryState.vpcRequest "a" "10.0.0.0/24") 0 .complete true] :=
  (vpc_identity_stable _ _).1 (by decide)

/-- A second create under the same name, with a disjoint CIDR, replaces the VPC. -/
theorem vpc_identity_stable_fails_twice :
    ¬ ∀ requests, StableAlong ∅ requests := by
  intro h
  obtain ⟨hid, -⟩ := h
    [.create (RegistryState.vpcRequest "a" "10.0.0.0/24") 0 .complete true,
      .create (RegistryState.vpcRequest "a" "10.1.0.0/24") 0 .complete true]
    [.create (RegistryState.vpcRequest "a" "10.0.0.0/24") 0 .complete true]
    [.create (RegistryState.vpcRequest "a" "10.1.0.0/24") 0 .complete true]
    (List.prefix_refl _)
    { RegistryState.vpcRequest "a" "10.0.0.0/24" with vpcId := 1 } (by decide)
    { RegistryState.vpcRequest "a" "10.1.0.0/24" with vpcId := 2 } (by decide) rfl
  revert hid
  decide

end VpcTable

end K3rs
