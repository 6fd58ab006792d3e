import K3rs.Lib.IpRoundTrip
import K3rs.Lib.Transition
import K3rs.Vpc.Allocator

/-!
# What survives a crash of the allocator

The allocator keeps its pools in memory and its allocations in the store.  `allocate` writes
first and changes the pool afterwards; `release` changes the pool first.  A write can be
refused, and the daemon can die while it waits for one, with the write on disk or not.

* `Mirror`: the allocations of every pool are those the store has for its VPC.
* `rebuilt`: what `rebuild_pools` makes of a store.
* `allocations_durable`: in every run of `Safe` steps a refused call changes nothing, and at
  every point a crash loses no allocation and brings none back.

VPC names are part of the keys of the store, in front of a `/`, so they must not contain one.
-/

namespace K3rs

open Net Tables Transition

/-! ## Keys -/

/-- The name can be read back from a key that starts with it. -/
def SlashFree (name : String) : Prop := '/' ∉ name.toList

instance (name : String) : Decidable (SlashFree name) :=
  inferInstanceAs (Decidable ('/' ∉ name.toList))

/-- Two texts without the separator are the same when they are followed by it and something
else, and the results are the same. -/
theorem append_separator_inj {α : Type*} {a : α} {x y z w : List α} (hx : a ∉ x) (hy : a ∉ y)
    (h : x ++ a :: z = y ++ a :: w) : x = y ∧ z = w := by
  induction x generalizing y with
  | nil =>
      cases y with
      | nil => exact ⟨rfl, (List.cons.inj h).2⟩
      | cons b y => exact absurd ((List.cons.inj h).1 ▸ List.mem_cons_self) hy
  | cons b x ih =>
      cases y with
      | nil => exact absurd ((List.cons.inj h).1 ▸ List.mem_cons_self) hx
      | cons c y =>
          obtain ⟨rfl, hrest⟩ := List.cons.inj h
          obtain ⟨rfl, rfl⟩ := ih (fun hmem => hx (List.mem_cons_of_mem _ hmem))
            (fun hmem => hy (List.mem_cons_of_mem _ hmem)) hrest
          exact ⟨rfl, rfl⟩

theorem allocationKey_inj {name name' podId podId' : String} (h : SlashFree name)
    (h' : SlashFree name') (hkey : name ++ "/" ++ podId = name' ++ "/" ++ podId') :
    name = name' ∧ podId = podId' := by
  have hlist := congrArg String.toList hkey
  simp only [String.toList_append, List.append_assoc] at hlist
  obtain ⟨hname, hpod⟩ := append_separator_inj h h' hlist
  exact ⟨String.toList_inj.mp hname, String.toList_inj.mp hpod⟩

/-! ## Allocations on disk -/

/-- A stored allocation has the addresses of an allocation, as text. -/
def StoredAllocation.Records (sa : StoredAllocation) (alloc : Allocation) : Prop :=
  sa.guestIpv4 = ipv4ToString alloc.guestIpv4 ∧ sa.ghostIpv6 = ipv6ToString alloc.ghostIpv6

/-- The store has an allocation for a pod of a VPC. -/
def VpcStore.Holds (store : VpcStore) (vpcName podId : String) (alloc : Allocation) : Prop :=
  ∃ sa ∈ store.loadAllAllocations, sa.vpcName = vpcName ∧ sa.podId = podId ∧ sa.Records alloc

/-- The store can be read back: every record has addresses, under a key that names its VPC. -/
structure VpcStore.Readable (store : VpcStore) : Prop where
  slashFree : ∀ sa ∈ store.loadAllAllocations, SlashFree sa.vpcName
  records : ∀ sa ∈ store.loadAllAllocations, ∃ alloc, sa.Records alloc

namespace StoredAllocation

variable {sa : StoredAllocation} {alloc other : Allocation}

/-- The text determines the addresses. -/
theorem Records.unique (h : sa.Records alloc) (h' : sa.Records other) : alloc = other := by
  have hguest : parseIpv4 sa.guestIpv4.toList = some alloc.guestIpv4 := by
    rw [h.1, parseIpv4_ipv4ToString]
  have hghost : parseIpv6 sa.ghostIpv6.toList = some alloc.ghostIpv6 := by
    rw [h.2, parseIpv6_ipv6ToString]
  rw [h'.1, parseIpv4_ipv4ToString, Option.some_inj] at hguest
  rw [h'.2, parseIpv6_ipv6ToString, Option.some_inj] at hghost
  cases alloc
  cases other
  cases hguest
  cases hghost
  rfl

end StoredAllocation

namespace VpcStore

variable {store : VpcStore} {vpcName podId name pod : String} {alloc : Allocation}

/-- A saved allocation replaces the one of its pod. -/
theorem holds_saveAllocation (hread : store.Readable) {row : StoredAllocation}
    (hrow : SlashFree row.vpcName) :
    (store.saveAllocation row).Holds name pod alloc ↔
      if name = row.vpcName ∧ pod = row.podId then row.Records alloc
      else store.Holds name pod alloc := by
  split_ifs with hsame
  · obtain ⟨rfl, rfl⟩ := hsame
    constructor
    · rintro ⟨sa, hsa, hname, hpod, hrec⟩
      rcases store.allocations.mem_put.mp hsa with rfl | ⟨-, hne⟩
      · exact hrec
      · exact absurd (by rw [StoredAllocation.key, hname, hpod, StoredAllocation.key]) hne
    · intro hrec
      exact ⟨row, store.allocations.mem_put.mpr (Or.inl rfl), rfl, rfl, hrec⟩
  · constructor
    · rintro ⟨sa, hsa, hname, hpod, hrec⟩
      rcases store.allocations.mem_put.mp hsa with rfl | ⟨hold, -⟩
      · exact absurd ⟨hname.symm, hpod.symm⟩ hsame
      · exact ⟨sa, hold, hname, hpod, hrec⟩
    · rintro ⟨sa, hsa, rfl, rfl, hrec⟩
      refine ⟨sa, store.allocations.mem_put.mpr (Or.inr ⟨hsa, fun hkey => hsame ?_⟩), rfl, rfl, hrec⟩
      exact allocationKey_inj (hread.slashFree sa hsa) hrow hkey

/-- A deleted allocation is gone, and no other. -/
theorem holds_deleteAllocation (hread : store.Readable) (hname : SlashFree vpcName) :
    (store.deleteAllocation vpcName podId).Holds name pod alloc ↔
      ¬ (name = vpcName ∧ pod = podId) ∧ store.Holds name pod alloc := by
  constructor
  · rintro ⟨sa, hsa, rfl, rfl, hrec⟩
    obtain ⟨hmem, hkey⟩ := List.mem_filter.mp hsa
    refine ⟨?_, sa, hmem, rfl, rfl, hrec⟩
    rintro ⟨rfl, rfl⟩
    exact of_decide_eq_true hkey rfl
  · rintro ⟨hother, sa, hsa, rfl, rfl, hrec⟩
    refine ⟨sa, List.mem_filter.mpr ⟨hsa, decide_eq_true fun hkey => hother ?_⟩, rfl, rfl, hrec⟩
    exact allocationKey_inj (hread.slashFree sa hsa) hname hkey

theorem Readable.saveAllocation (h : store.Readable) {row : StoredAllocation}
    (hname : SlashFree row.vpcName) (hrec : row.Records alloc) :
    (store.saveAllocation row).Readable := by
  refine ⟨fun sa hsa => ?_, fun sa hsa => ?_⟩
  · rcases store.allocations.mem_put.mp hsa with rfl | ⟨hold, -⟩
    · exact hname
    · exact h.slashFree sa hold
  · rcases store.allocations.mem_put.mp hsa with rfl | ⟨hold, -⟩
    · exact ⟨alloc, hrec⟩
    · exact h.records sa hold

theorem Readable.deleteAllocation (h : store.Readable) (vpcName podId : String) :
    (store.deleteAllocation vpcName podId).Readable :=
  ⟨fun sa hsa => h.slashFree sa (List.mem_of_mem_filter hsa),
    fun sa hsa => h.records sa (List.mem_of_mem_filter hsa)⟩

end VpcStore

/-! ## Rebuilding -/

namespace GhostAllocator

variable {a : GhostAllocator} {name : String}

/-- The allocator of a new daemon on a store. -/
def rebuilt (platformPrefix clusterId : UInt32) (store : VpcStore) : GhostAllocator :=
  (GhostAllocator.new platformPrefix clusterId).rebuildPools store.loadVpcs
    store.loadAllAllocations

theorem lookup_resetPool_of_ne {vpc : Vpc} (h : name ≠ vpc.name) :
    (a.resetPool vpc).pools.lookup name = a.pools.lookup name := by
  unfold resetPool
  cases VpcPool.new vpc with
  | error e => rfl
  | ok fresh => exact AList.lookup_insert_ne h

theorem lookup_resetPool_self (vpc : Vpc) :
    (a.resetPool vpc).pools.lookup vpc.name =
      (VpcPool.new vpc).toOption.or (a.pools.lookup vpc.name) := by
  unfold resetPool
  cases VpcPool.new vpc with
  | error e => rfl
  | ok fresh => exact AList.lookup_insert a.pools

/-- The pools of a new daemon are those of the saved definitions it accepts. -/
theorem lookup_foldl_resetPool {store : VpcStore} {platformPrefix clusterId : UInt32}
    {fresh : VpcPool} :
    (store.loadVpcs.foldl resetPool (new platformPrefix clusterId)).pools.lookup name = some fresh ↔
      ∃ vpc ∈ store.loadVpcs, vpc.name = name ∧ VpcPool.new vpc = .ok fresh := by
  have hnodup : (store.loadVpcs.map Vpc.name).Nodup := store.definitions.unique
  have hpool : ∀ vpc ∈ store.loadVpcs, ((store.loadVpcs.foldl resetPool
      (new platformPrefix clusterId)).pools.lookup vpc.name = some fresh ↔
        VpcPool.new vpc = .ok fresh) := by
    intro vpc hvpc
    have hnone : (new platformPrefix clusterId).pools.lookup vpc.name = none := rfl
    rw [lookup_foldl_of_mem (g := fun old => (VpcPool.new vpc).toOption.or old)
      (fun _ _ _ => lookup_resetPool_of_ne) (fun _ => lookup_resetPool_self vpc) hnodup hvpc,
      hnone, Option.or_none]
    cases VpcPool.new vpc with
    | error e => exact iff_of_false nofun nofun
    | ok other =>
        constructor
        · rintro ⟨⟩
          rfl
        · rintro ⟨⟩
          rfl
  constructor
  · intro h
    by_cases hmem : name ∈ store.loadVpcs.map Vpc.name
    · obtain ⟨vpc, hvpc, rfl⟩ := List.mem_map.mp hmem
      exact ⟨vpc, hvpc, rfl, (hpool vpc hvpc).mp h⟩
    · rw [lookup_foldl_of_notMem (fun _ _ => lookup_resetPool_of_ne) hmem] at h
      cases h
  · rintro ⟨vpc, hvpc, rfl, hnew⟩
    exact (hpool vpc hvpc).mpr hnew

/-- Restoring a readable record: it is the allocation of its pod, in the pool of its VPC. -/
theorem lookup_restore {sa : StoredAllocation} {alloc : Allocation} (hrec : sa.Records alloc) :
    (a.restore sa).pools.lookup name = none ∧ a.pools.lookup name = none ∨
      ∃ pool pool', a.pools.lookup name = some pool ∧
        (a.restore sa).pools.lookup name = some pool' ∧ ∀ pod,
          pool'.allocations.lookup pod =
            if sa.vpcName = name ∧ sa.podId = pod then some alloc
            else pool.allocations.lookup pod := by
  have hguest : parseIpv4 sa.guestIpv4.toList = some alloc.guestIpv4 := by
    rw [hrec.1, parseIpv4_ipv4ToString]
  have hghost : parseIpv6 sa.ghostIpv6.toList = some alloc.ghostIpv6 := by
    rw [hrec.2, parseIpv6_ipv6ToString]
  unfold restore
  rw [hguest, hghost]
  cases hold : a.pools.lookup sa.vpcName with
  | none =>
      cases hname : a.pools.lookup name with
      | none => exact Or.inl ⟨rfl, rfl⟩
      | some pool =>
          refine Or.inr ⟨pool, pool, rfl, rfl, fun pod => ?_⟩
          rw [if_neg]
          rintro ⟨rfl, -⟩
          rw [hold] at hname
          cases hname
  | some old =>
      by_cases hname : sa.vpcName = name
      · subst hname
        refine Or.inr ⟨old, _, hold, AList.lookup_insert _, fun pod => ?_⟩
        show (old.allocations.insert sa.podId alloc).lookup pod = _
        by_cases hpod : sa.podId = pod
        · subst hpod
          rw [AList.lookup_insert, if_pos ⟨rfl, rfl⟩]
        · rw [AList.lookup_insert_ne (Ne.symm hpod), if_neg fun h => hpod h.2]
      · simp only [AList.lookup_insert_ne (Ne.symm hname), hname, false_and, if_false]
        cases a.pools.lookup name with
        | none => exact Or.inl ⟨rfl, rfl⟩
        | some pool => exact Or.inr ⟨pool, pool, rfl, rfl, fun _ => rfl⟩

/-- The second loop of `rebuild_pools` brings back the allocations of its records. -/
theorem lookup_foldl_restore {fresh : VpcPool} (hfresh : fresh.allocations = ∅)
    (hpool : a.pools.lookup name = some fresh) {stored : List StoredAllocation}
    (hrec : ∀ sa ∈ stored, ∃ alloc, sa.Records alloc)
    (hunique : ∀ sa ∈ stored, ∀ sa' ∈ stored, sa.vpcName = sa'.vpcName → sa.podId = sa'.podId →
      sa = sa') :
    ∃ pool, (stored.foldl restore a).pools.lookup name = some pool ∧ ∀ pod alloc,
      pool.allocations.lookup pod = some alloc ↔
        ∃ sa ∈ stored, sa.vpcName = name ∧ sa.podId = pod ∧ sa.Records alloc := by
  -- from the end of the list, since a later record replaces an earlier one
  induction stored using List.reverseRecOn with
  | nil =>
      refine ⟨fresh, hpool, fun pod alloc => ?_⟩
      rw [hfresh, AList.lookup_empty]
      exact iff_of_false nofun nofun
  | append_singleton init last ih =>
      obtain ⟨pool, hinit, hlookup⟩ := ih
        (fun sa hsa => hrec sa (List.mem_append_left _ hsa))
        fun sa hsa sa' hsa' => hunique sa (List.mem_append_left _ hsa) sa'
          (List.mem_append_left _ hsa')
      have hmem : last ∈ init ++ [last] := List.mem_append_right _ List.mem_cons_self
      obtain ⟨alloc, hlast⟩ := hrec last hmem
      rw [List.foldl_append]
      rcases @lookup_restore (init.foldl restore a) name last alloc hlast with
        ⟨-, hnone⟩ | ⟨old, pool', hold, hnew, hrestored⟩
      · rw [hinit] at hnone
        cases hnone
      · rw [hinit, Option.some_inj] at hold
        subst hold
        refine ⟨pool', hnew, fun pod other => ?_⟩
        rw [hrestored pod]
        split_ifs with hsame
        · -- the records are unique: this one is the only one of the pod
          obtain ⟨hname, hpod⟩ := hsame
          constructor
          · rintro ⟨⟩
            exact ⟨last, hmem, hname, hpod, hlast⟩
          · rintro ⟨sa, hsa, hname', hpod', hsarec⟩
            obtain rfl := hunique sa hsa last hmem (hname'.trans hname.symm)
              (hpod'.trans hpod.symm)
            rw [hlast.unique hsarec]
        · rw [hlookup pod other]
          constructor
          · rintro ⟨sa, hsa, hrest⟩
            exact ⟨sa, List.mem_append_left _ hsa, hrest⟩
          · rintro ⟨sa, hsa, hname, hpod, hsarec⟩
            rcases List.mem_append.mp hsa with hsa | hsa
            · exact ⟨sa, hsa, hname, hpod, hsarec⟩
            · rw [List.mem_singleton.mp hsa] at hname hpod
              exact absurd ⟨hname, hpod⟩ hsame

/-- Without a pool nothing is restored. -/
theorem lookup_foldl_restore_of_none {stored : List StoredAllocation}
    (hrec : ∀ sa ∈ stored, ∃ alloc, sa.Records alloc) :
    ∀ {a : GhostAllocator}, a.pools.lookup name = none →
      (stored.foldl restore a).pools.lookup name = none := by
  induction stored with
  | nil => exact fun h => h
  | cons sa rest ih =>
      intro a h
      obtain ⟨alloc, hsa⟩ := hrec sa List.mem_cons_self
      refine ih (fun sa' hsa' => hrec sa' (List.mem_cons_of_mem _ hsa')) ?_
      rcases @lookup_restore a name sa alloc hsa with ⟨hnone, -⟩ | ⟨pool, -, hpool, -⟩
      · exact hnone
      · rw [h] at hpool
        cases hpool

section Rebuilt

variable {platformPrefix clusterId : UInt32} {store : VpcStore}

/-- **What a restart brings back.**  The pools are those of the saved definitions that the
allocator accepts, and their allocations are the ones on disk. -/
theorem lookup_rebuilt_of_mem (hread : store.Readable) {vpc : Vpc} (hvpc : vpc ∈ store.loadVpcs)
    {fresh : VpcPool} (hnew : VpcPool.new vpc = .ok fresh) :
    ∃ pool, (rebuilt platformPrefix clusterId store).pools.lookup vpc.name = some pool ∧
      ∀ pod alloc, pool.allocations.lookup pod = some alloc ↔ store.Holds vpc.name pod alloc := by
  refine lookup_foldl_restore (VpcPool.new_allocations hnew)
    (lookup_foldl_resetPool.mpr ⟨vpc, hvpc, rfl, hnew⟩) hread.records ?_
  intro sa hsa sa' hsa' hname hpod
  refine store.allocations.eq_of_key_eq hsa hsa' ?_
  rw [StoredAllocation.key, StoredAllocation.key, hname, hpod]

theorem exists_saved_of_lookup_rebuilt (hread : store.Readable) {pool : VpcPool}
    (h : (rebuilt platformPrefix clusterId store).pools.lookup name = some pool) :
    ∃ vpc ∈ store.loadVpcs, vpc.name = name ∧ ∃ fresh, VpcPool.new vpc = .ok fresh := by
  cases hreset : (store.loadVpcs.foldl resetPool
      (new platformPrefix clusterId)).pools.lookup name with
  | none =>
      have hnone : (rebuilt platformPrefix clusterId store).pools.lookup name = none :=
        lookup_foldl_restore_of_none hread.records hreset
      rw [h] at hnone
      cases hnone
  | some fresh =>
      obtain ⟨vpc, hvpc, hname, hnew⟩ := lookup_foldl_resetPool.mp hreset
      exact ⟨vpc, hvpc, hname, fresh, hnew⟩

end Rebuilt

end GhostAllocator

/-! ## The system -/

/-- What becomes of a write: the store answers, or the daemon dies while it waits, with the
write on disk or not. -/
inductive WriteOutcome where
  | answered (io : Except String Unit)
  | killed (landed : Bool)
  deriving DecidableEq, Repr

/-- The pools in memory and the store on disk. -/
structure StoredAllocator where
  allocator : GhostAllocator
  store : VpcStore

namespace StoredAllocator

/-- What happens to them. -/
inductive Op where
  | allocate (podId vpcName : String) (write : WriteOutcome)
  | release (podId vpcName : String) (write : WriteOutcome)
  | saveVpcs (vpcs : List Vpc) (landed : Bool)
  | syncVpcs (vpcs : List Vpc)
  | restart (platformPrefix clusterId : UInt32)
  deriving DecidableEq, Repr

/-- The names in the lists of VPCs contain no slash. -/
def Op.SlashFree : Op → Prop
  | .saveVpcs vpcs _ => ∀ vpc ∈ vpcs, K3rs.SlashFree vpc.name
  | .syncVpcs vpcs => ∀ vpc ∈ vpcs, K3rs.SlashFree vpc.name
  | _ => True

instance : DecidablePred Op.SlashFree
  | .saveVpcs vpcs _ => inferInstanceAs (Decidable (∀ vpc ∈ vpcs, K3rs.SlashFree vpc.name))
  | .syncVpcs vpcs => inferInstanceAs (Decidable (∀ vpc ∈ vpcs, K3rs.SlashFree vpc.name))
  | .allocate _ _ _ => inferInstanceAs (Decidable True)
  | .release _ _ _ => inferInstanceAs (Decidable True)
  | .restart _ _ => inferInstanceAs (Decidable True)

/-- A daemon that starts on an empty store. -/
def init (platformPrefix clusterId : UInt32) : StoredAllocator :=
  ⟨.new platformPrefix clusterId, {}⟩

/-- An operation: the answer, if there is one, and what is in memory and on disk then. -/
def call (st : StoredAllocator) : Op → Option (Except String Unit) × StoredAllocator
  | .allocate podId vpcName (.answered io) =>
      let result := st.allocator.allocate st.store io podId vpcName
      (some (result.1.map fun _ => ()), ⟨result.2.1, result.2.2⟩)
  | .allocate podId vpcName (.killed landed) =>
      -- the pool changes only after the write
      let result := st.allocator.allocate st.store (.ok ()) podId vpcName
      (none, ⟨st.allocator, if landed then result.2.2 else st.store⟩)
  | .release podId vpcName (.answered io) =>
      let result := st.allocator.release st.store io podId vpcName
      (some result.1, ⟨result.2.1, result.2.2⟩)
  | .release podId vpcName (.killed landed) =>
      -- the pool has changed before the write
      let result := st.allocator.release st.store (.ok ()) podId vpcName
      (none, ⟨result.2.1, if landed then result.2.2 else st.store⟩)
  | .saveVpcs vpcs landed =>
      (none, ⟨st.allocator, if landed then st.store.saveVpcs vpcs else st.store⟩)
  | .syncVpcs vpcs => (none, ⟨st.allocator.syncVpcs vpcs, st.store⟩)
  | .restart platformPrefix clusterId => (none, ⟨.rebuilt platformPrefix clusterId st.store, st.store⟩)

/-- What is in memory and on disk after an operation. -/
def step (st : StoredAllocator) (op : Op) : StoredAllocator := (st.call op).2

variable (st : StoredAllocator)

/-- An operation that answers with an error changes nothing. -/
def RefusalKeeps (op : Op) : Prop :=
  ∀ e, (st.call op).1 = some (.error e) → (st.call op).2 = st

/-- After a crash the pools of saved VPCs come back with the same allocations. -/
def Durable : Prop :=
  ∀ name pool, st.allocator.pools.lookup name = some pool →
    name ∈ st.store.loadVpcs.map Vpc.name → ∀ platformPrefix clusterId,
      ∃ pool', (GhostAllocator.rebuilt platformPrefix clusterId st.store).pools.lookup name =
          some pool' ∧
        ∀ podId, pool'.allocations.lookup podId = pool.allocations.lookup podId

/-- `allocate` would make a new allocation. -/
def Allocates (podId vpcName : String) : Prop :=
  ∃ pool offset, st.allocator.pools.lookup vpcName = some pool ∧
    pool.allocations.lookup podId = none ∧ pool.findOffset = some offset

/-- `release` would take an allocation away. -/
def Releases (podId vpcName : String) : Prop :=
  ∃ pool alloc, st.allocator.pools.lookup vpcName = some pool ∧
    pool.allocations.lookup podId = some alloc

/-- The allocator accepts the VPC's CIDR. -/
def Accepted (vpc : Vpc) : Prop := ∃ pool, VpcPool.new vpc = .ok pool

/-- Steps that keep memory and disk together: no write separates them, no definition that
the allocator rejects is saved for a VPC with a pool, and a VPC gets a new pool only when the
store has nothing that disagrees with an empty one. -/
def Safe : Op → Prop
  | .allocate podId vpcName write => write = .killed true → ¬ st.Allocates podId vpcName
  | .release podId vpcName write =>
      st.Releases podId vpcName → write = .answered (.ok ()) ∨ write = .killed true
  | .saveVpcs vpcs landed =>
      landed = true → ∀ vpc ∈ vpcs, st.allocator.pools.lookup vpc.name ≠ none → Accepted vpc
  | .syncVpcs vpcs =>
      ∀ vpc ∈ vpcs, st.allocator.pools.lookup vpc.name = none → Accepted vpc →
        (∀ sa ∈ st.store.loadAllAllocations, sa.vpcName ≠ vpc.name) ∧
          ∀ saved ∈ st.store.loadVpcs, saved.name = vpc.name → Accepted saved
  | .restart _ _ => True

/-! ## The invariant -/

/-- The pools are what the store says they are. -/
structure Mirror : Prop where
  readable : st.store.Readable
  definitions : ∀ vpc ∈ st.store.loadVpcs, K3rs.SlashFree vpc.name
  names : ∀ name pool, st.allocator.pools.lookup name = some pool → K3rs.SlashFree name
  accepted : ∀ vpc ∈ st.store.loadVpcs, st.allocator.pools.lookup vpc.name ≠ none → Accepted vpc
  allocations : ∀ name pool, st.allocator.pools.lookup name = some pool → ∀ pod alloc,
    pool.allocations.lookup pod = some alloc ↔ st.store.Holds name pod alloc

variable {st}

theorem Mirror.durable (h : Mirror st) : st.Durable := by
  intro name pool hpool hsaved platformPrefix clusterId
  obtain ⟨vpc, hvpc, rfl⟩ := List.mem_map.mp hsaved
  obtain ⟨fresh, hnew⟩ := h.accepted vpc hvpc (Option.ne_none_iff_exists'.mpr ⟨pool, hpool⟩)
  obtain ⟨pool', hpool', hlookup⟩ :=
    @GhostAllocator.lookup_rebuilt_of_mem platformPrefix clusterId _ h.readable vpc hvpc fresh hnew
  refine ⟨pool', hpool', fun podId => Option.ext fun alloc => ?_⟩
  exact (hlookup podId alloc).trans (h.allocations _ pool hpool podId alloc).symm

theorem mirror_init (platformPrefix clusterId : UInt32) :
    Mirror (init platformPrefix clusterId) where
  readable := ⟨fun _ => nofun, fun _ => nofun⟩
  definitions _ hvpc := nomatch hvpc
  names _ _ hpool := by cases hpool
  accepted _ hvpc := nomatch hvpc
  allocations _ _ hpool := by cases hpool

/-- A call that changes one pool and the allocations of its VPC on disk. -/
theorem Mirror.setPool (h : Mirror st) {vpcName : String} {pool pool' : VpcPool} {store : VpcStore}
    (hpool : st.allocator.pools.lookup vpcName = some pool) (hread : store.Readable)
    (hdefs : store.loadVpcs = st.store.loadVpcs)
    (hself : ∀ pod alloc,
      pool'.allocations.lookup pod = some alloc ↔ store.Holds vpcName pod alloc)
    (hother : ∀ name pod alloc, name ≠ vpcName →
      (store.Holds name pod alloc ↔ st.store.Holds name pod alloc)) :
    Mirror ⟨{ st.allocator with pools := st.allocator.pools.insert vpcName pool' }, store⟩ := by
  have hlookup : ∀ {name}, name ≠ vpcName →
      (st.allocator.pools.insert vpcName pool').lookup name = st.allocator.pools.lookup name :=
    fun hne => AList.lookup_insert_ne hne
  refine ⟨hread, fun vpc hvpc => h.definitions vpc (hdefs ▸ hvpc), ?_, ?_, ?_⟩
  · intro name other hother'
    by_cases hname : name = vpcName
    · exact hname ▸ h.names vpcName pool hpool
    · exact h.names name other ((hlookup hname).symm.trans hother')
  · intro vpc hvpc hpooled
    refine h.accepted vpc (hdefs ▸ hvpc) ?_
    by_cases hname : vpc.name = vpcName
    · rw [hname, hpool]
      nofun
    · exact fun hnone => hpooled ((hlookup hname).trans hnone)
  · intro name other hother' pod alloc
    by_cases hname : name = vpcName
    · subst hname
      obtain rfl : pool' = other := Option.some_inj.mp ((AList.lookup_insert _).symm.trans hother')
      exact hself pod alloc
    · exact (h.allocations name other ((hlookup hname).symm.trans hother') pod alloc).trans
        (hother name pod alloc hname).symm

/-- A new allocation that is on disk and in the pool. -/
theorem Mirror.assign (h : Mirror st) {podId vpcName : String} {pool : VpcPool} {offset : UInt32}
    {alloc : Allocation} (hpool : st.allocator.pools.lookup vpcName = some pool) :
    Mirror ⟨{ st.allocator with
        pools := st.allocator.pools.insert vpcName (pool.assign podId offset alloc) },
      st.store.saveAllocation (GhostAllocator.recordOf podId vpcName pool alloc)⟩ := by
  have hname := h.names vpcName pool hpool
  have hrec : (GhostAllocator.recordOf podId vpcName pool alloc).Records alloc := ⟨rfl, rfl⟩
  refine h.setPool hpool (h.readable.saveAllocation hname hrec) rfl ?_ ?_
  · intro pod other
    rw [VpcStore.holds_saveAllocation h.readable hname]
    show (pool.allocations.insert podId alloc).lookup pod = some other ↔ _
    by_cases hpod : pod = podId
    · subst hpod
      rw [AList.lookup_insert, if_pos ⟨rfl, rfl⟩, Option.some_inj]
      exact ⟨fun heq => heq ▸ hrec, fun h' => hrec.unique h'⟩
    · rw [AList.lookup_insert_ne hpod, if_neg fun hsame => hpod hsame.2]
      exact h.allocations vpcName pool hpool pod other
  · intro name pod other hne
    rw [VpcStore.holds_saveAllocation h.readable hname, if_neg fun hsame => hne hsame.1]

/-- An allocation that is taken from the disk and from the pool. -/
theorem Mirror.unassign (h : Mirror st) {podId vpcName : String} {pool : VpcPool}
    (hpool : st.allocator.pools.lookup vpcName = some pool) :
    Mirror ⟨{ st.allocator with
        pools := st.allocator.pools.insert vpcName (pool.unassign podId) },
      st.store.deleteAllocation vpcName podId⟩ := by
  have hname := h.names vpcName pool hpool
  refine h.setPool hpool (h.readable.deleteAllocation vpcName podId) rfl ?_ ?_
  · intro pod alloc
    rw [VpcStore.holds_deleteAllocation h.readable hname]
    show (pool.allocations.erase podId).lookup pod = some alloc ↔ _
    by_cases hpod : pod = podId
    · subst hpod
      rw [AList.lookup_erase]
      exact iff_of_false nofun fun h' => h'.1 ⟨rfl, rfl⟩
    · rw [AList.lookup_erase_ne hpod, h.allocations vpcName pool hpool]
      exact (and_iff_right fun hsame => hpod hsame.2).symm
  · intro name pod alloc hne
    rw [VpcStore.holds_deleteAllocation h.readable hname]
    exact and_iff_right fun hsame => hne hsame.1

theorem Mirror.allocate (h : Mirror st) {podId vpcName : String} {write : WriteOutcome}
    (hsafe : st.Safe (.allocate podId vpcName write)) :
    Mirror (st.step (.allocate podId vpcName write)) := by
  cases write with
  | answered io =>
      simp only [step, call]
      rcases st.allocator.allocate_cases st.store io podId vpcName with
        ⟨e, hresult⟩ | ⟨pool, hpool, ⟨existing, -, hresult⟩ | ⟨offset, -, -, -, hresult⟩⟩
      · rw [hresult]
        exact h
      · rw [hresult]
        exact h
      · rw [hresult]
        exact h.assign hpool
  | killed landed =>
      cases landed with
      | false => exact h
      | true =>
          simp only [step, call, if_true]
          rcases st.allocator.allocate_cases st.store (.ok ()) podId vpcName with
            ⟨e, hresult⟩ | ⟨pool, hpool, ⟨existing, -, hresult⟩ | ⟨offset, hpod, hoffset, -, -⟩⟩
          · rw [hresult]
            exact h
          · rw [hresult]
            exact h
          · exact absurd ⟨pool, offset, hpool, hpod, hoffset⟩ (hsafe rfl)

/-- `release` without an allocation to take away, whatever the store answers. -/
theorem release_of_not_releases {podId vpcName : String} (h : ¬ st.Releases podId vpcName)
    (io : Except String Unit) :
    ∃ e, st.allocator.release st.store io podId vpcName = (.error e, st.allocator, st.store) := by
  refine GhostAllocator.release_refused fun pool hpool => ?_
  cases hpod : pool.allocations.lookup podId with
  | none => rfl
  | some alloc => exact absurd ⟨pool, alloc, hpool, hpod⟩ h

theorem Mirror.release (h : Mirror st) {podId vpcName : String} {write : WriteOutcome}
    (hsafe : st.Safe (.release podId vpcName write)) :
    Mirror (st.step (.release podId vpcName write)) := by
  by_cases hrel : st.Releases podId vpcName
  · obtain ⟨pool, alloc, hpool, hpod⟩ := hrel
    -- the write is answered with success, or lands although the daemon dies
    rcases hsafe ⟨pool, alloc, hpool, hpod⟩ with rfl | rfl
    · simp only [step, call, GhostAllocator.release_allocated hpool hpod]
      exact h.unassign hpool
    · simp only [step, call, GhostAllocator.release_allocated hpool hpod, if_true]
      exact h.unassign hpool
  · cases write with
    | answered io =>
        obtain ⟨e, hresult⟩ := release_of_not_releases hrel io
        simp only [step, call, hresult]
        exact h
    | killed landed =>
        obtain ⟨e, hresult⟩ := release_of_not_releases hrel (.ok ())
        simp only [step, call, hresult, ite_self]
        exact h

theorem Mirror.saveVpcs (h : Mirror st) {vpcs : List Vpc} {landed : Bool}
    (hnames : (Op.saveVpcs vpcs landed).SlashFree) (hsafe : st.Safe (.saveVpcs vpcs landed)) :
    Mirror (st.step (.saveVpcs vpcs landed)) := by
  cases landed with
  | false => exact h
  | true =>
      have hmem : ∀ vpc ∈ (st.store.saveVpcs vpcs).loadVpcs, vpc ∈ vpcs ∨ vpc ∈ st.store.loadVpcs :=
        fun vpc hvpc => st.store.definitions.mem_of_mem_putAll hvpc
      have hread : (st.store.saveVpcs vpcs).Readable := ⟨h.readable.slashFree, h.readable.records⟩
      refine ⟨hread, fun vpc hvpc => ?_, h.names, fun vpc hvpc hpool => ?_, h.allocations⟩
      · rcases hmem vpc hvpc with hnew | hold
        · exact hnames vpc hnew
        · exact h.definitions vpc hold
      · rcases hmem vpc hvpc with hnew | hold
        · exact hsafe rfl vpc hnew hpool
        · exact h.accepted vpc hold hpool

theorem Mirror.syncVpcs (h : Mirror st) {vpcs : List Vpc}
    (hnames : (Op.syncVpcs vpcs).SlashFree) (hsafe : st.Safe (.syncVpcs vpcs)) :
    Mirror (st.step (.syncVpcs vpcs)) := by
  refine ⟨h.readable, h.definitions, fun name pool hpool => ?_, fun saved hsaved hpooled => ?_,
    fun name pool hpool pod alloc => ?_⟩
  · rcases GhostAllocator.lookup_syncVpcs hpool with hkept | ⟨-, vpc, hvpc, rfl, -⟩
    · exact h.names name pool hkept
    · exact hnames vpc hvpc
  · obtain ⟨pool, hpool⟩ := Option.ne_none_iff_exists'.mp hpooled
    rcases GhostAllocator.lookup_syncVpcs hpool with hkept | ⟨hnone, vpc, hvpc, hname, hnew⟩
    · exact h.accepted saved hsaved (Option.ne_none_iff_exists'.mpr ⟨pool, hkept⟩)
    · exact (hsafe vpc hvpc (hname ▸ hnone) ⟨pool, hnew⟩).2 saved hsaved hname.symm
  · rcases GhostAllocator.lookup_syncVpcs hpool with hkept | ⟨hnone, vpc, hvpc, rfl, hnew⟩
    · exact h.allocations name pool hkept pod alloc
    · rw [VpcPool.new_allocations hnew, AList.lookup_empty]
      refine iff_of_false nofun ?_
      rintro ⟨sa, hsa, hname, -⟩
      exact (hsafe vpc hvpc hnone ⟨pool, hnew⟩).1 sa hsa hname

/-- A restart makes the pools what the store says they are. -/
theorem Mirror.restart (h : Mirror st) (platformPrefix clusterId : UInt32) :
    Mirror (st.step (.restart platformPrefix clusterId)) := by
  have hsaved : ∀ name pool,
      (GhostAllocator.rebuilt platformPrefix clusterId st.store).pools.lookup name = some pool →
        ∃ vpc ∈ st.store.loadVpcs, vpc.name = name ∧ Accepted vpc := fun name pool hpool =>
    GhostAllocator.exists_saved_of_lookup_rebuilt h.readable hpool
  refine ⟨h.readable, h.definitions, fun name pool hpool => ?_, fun vpc hvpc hpooled => ?_,
    fun name pool hpool => ?_⟩
  · obtain ⟨vpc, hvpc, rfl, -⟩ := hsaved name pool hpool
    exact h.definitions vpc hvpc
  · obtain ⟨pool, hpool⟩ := Option.ne_none_iff_exists'.mp hpooled
    obtain ⟨vpc', hvpc', hname, haccepted⟩ := hsaved vpc.name pool hpool
    exact st.store.definitions.eq_of_key_eq hvpc' hvpc hname ▸ haccepted
  · obtain ⟨vpc, hvpc, rfl, fresh, hnew⟩ := hsaved name pool hpool
    obtain ⟨pool', hpool', hlookup⟩ :=
      @GhostAllocator.lookup_rebuilt_of_mem platformPrefix clusterId _ h.readable vpc hvpc fresh hnew
    obtain rfl : pool' = pool := Option.some_inj.mp (hpool'.symm.trans hpool)
    exact hlookup

/-- **The step lemma.** -/
theorem Mirror.step (h : Mirror st) {op : Op} (hnames : op.SlashFree) (hsafe : st.Safe op) :
    Mirror (st.step op) := by
  cases op with
  | allocate podId vpcName write => exact h.allocate hsafe
  | release podId vpcName write => exact h.release hsafe
  | saveVpcs vpcs landed => exact h.saveVpcs hnames hsafe
  | syncVpcs vpcs => exact h.syncVpcs hnames hsafe
  | restart platformPrefix clusterId => exact h.restart platformPrefix clusterId

/-- A refused call changes nothing, in any state, unless it is a `release` that took the
allocation away. -/
theorem Safe.refusalKeeps {op : Op} (hsafe : st.Safe op) : st.RefusalKeeps op := by
  intro e herror
  cases op with
  | allocate podId vpcName write =>
      cases write with
      | killed landed => cases herror
      | answered io =>
          simp only [call] at herror ⊢
          rcases st.allocator.allocate_cases st.store io podId vpcName with
            ⟨e', hresult⟩ | ⟨pool, hpool, ⟨existing, -, hresult⟩ | ⟨offset, -, -, -, hresult⟩⟩
          · rw [hresult]
          · rw [hresult] at herror
            cases herror
          · rw [hresult] at herror
            cases herror
  | release podId vpcName write =>
      by_cases hrel : st.Releases podId vpcName
      · rcases hsafe hrel with rfl | rfl
        · obtain ⟨pool, alloc, hpool, hpod⟩ := hrel
          simp only [call, GhostAllocator.release_allocated hpool hpod] at herror
          cases herror
        · cases herror
      · cases write with
        | killed landed => cases herror
        | answered io =>
            obtain ⟨e', hresult⟩ := release_of_not_releases hrel io
            simp only [call, hresult]
  | saveVpcs vpcs landed => cases herror
  | syncVpcs vpcs => cases herror
  | restart platformPrefix clusterId => cases herror

/-! ## Durability -/

/-- **The allocator is durable.**  In every run of safe steps, with VPC names without a
slash, every refused call changes nothing, and after a crash at any point the pools of saved
VPCs come back with the allocations they had. -/
theorem allocations_durable {platformPrefix clusterId : UInt32} {ops : List Op}
    (hnames : ∀ op ∈ ops, op.SlashFree)
    (hsafe : Admitted StoredAllocator.step Safe (init platformPrefix clusterId) ops) :
    Admitted StoredAllocator.step RefusalKeeps (init platformPrefix clusterId) ops ∧
      Along StoredAllocator.step Durable (init platformPrefix clusterId) ops := by
  have hok := hsafe.and_forall hnames
  have hstep : ∀ (st : StoredAllocator) op, st.Safe op ∧ op.SlashFree → Mirror st →
      Mirror (st.step op) := fun st op hboth h => h.step hboth.2 hboth.1
  constructor
  · exact Admitted.mono Mirror hstep (fun st op _ hboth => hboth.1.refusalKeeps)
      (mirror_init platformPrefix clusterId) hok
  · exact (along_of_admitted Mirror hstep (mirror_init platformPrefix clusterId) hok).mono
      fun st h => h.durable

/-- A VPC for 254 pods. -/
def blue : Vpc where
  name := "blue"
  vpcId := 2
  ipv4Cidr := "10.0.0.0/24"
  status := .active

theorem blue_accepted : Accepted blue := by
  have hparse : Allocator.parseCidr blue.ipv4Cidr = .ok (0x0a000000, 24) := by
    decide
  exact ⟨_, VpcPool.new_eq hparse⟩

/-- A pod comes and goes; another one is refused by the store. -/
def safeOps : List Op :=
  [.saveVpcs [blue] true, .syncVpcs [blue], .allocate "web" "blue" (.answered (.ok ())),
    .allocate "db" "blue" (.answered (.error "disk full")),
    .release "web" "blue" (.answered (.ok ())), .restart 0xfd000000 1]

/-- A run in which the condition is met. -/
theorem durable_safeOps :
    Admitted StoredAllocator.step RefusalKeeps (init 0xfd000000 1) safeOps ∧
      Along StoredAllocator.step Durable (init 0xfd000000 1) safeOps := by
  refine allocations_durable ?_ ⟨fun _ vpc hvpc _ => ?_,
    fun vpc hvpc _ _ => ⟨nofun, fun saved hsaved _ => ?_⟩, nofun, nofun, fun _ => Or.inl rfl,
    trivial, trivial⟩
  · decide
  · rw [List.mem_singleton.mp hvpc]
    exact blue_accepted
  · have hrows : ((init 0xfd000000 1).step (.saveVpcs [blue] true)).store.loadVpcs = [blue] := rfl
    rw [hrows] at hsaved
    rw [List.mem_singleton.mp hsaved]
    exact blue_accepted

/-- The store refuses to delete the allocation. -/
def refusedRelease : List Op :=
  [.saveVpcs [blue] true, .syncVpcs [blue], .allocate "web" "blue" (.answered (.ok ())),
    .release "web" "blue" (.answered (.error "disk full"))]

/-- `release` fails and the pod has lost its address; after a crash it has it again. -/
theorem durable_fails_refused :
    (∀ op ∈ refusedRelease, op.SlashFree) ∧
      ¬ Admitted StoredAllocator.step RefusalKeeps (init 0xfd000000 1) refusedRelease ∧
      ¬ Along StoredAllocator.step Durable (init 0xfd000000 1) refusedRelease := by
  have hafter : ((run StoredAllocator.step (init 0xfd000000 1)
      refusedRelease).allocator.pools.lookup "blue").map (fun pool =>
        pool.allocations.lookup "web") = some none := by
    decide
  refine ⟨by decide, ?_, fun h => ?_⟩
  · rintro ⟨-, -, -, hrefused, -⟩
    have hbefore : ((run StoredAllocator.step (init 0xfd000000 1)
        (refusedRelease.take 3)).allocator.pools.lookup "blue").map (fun pool =>
          pool.allocations.lookup "web") ≠ some none := by
      decide
    refine hbefore ?_
    rw [← hafter]
    exact congrArg (fun st : StoredAllocator => (st.allocator.pools.lookup "blue").map
      fun pool => pool.allocations.lookup "web") (hrefused "disk full" rfl).symm
  · obtain ⟨pool, hpool, hlost⟩ := Option.map_eq_some_iff.mp hafter
    obtain ⟨pool', hpool', hsame⟩ := h _ (List.prefix_refl _) "blue" pool hpool
      (by decide) 0xfd000000 1
    have hback : ((GhostAllocator.rebuilt 0xfd000000 1 (run StoredAllocator.step
        (init 0xfd000000 1) refusedRelease).store).pools.lookup "blue").map (fun pool =>
          pool.allocations.lookup "web") ≠ some none := by
      decide
    refine hback ?_
    rw [hpool', Option.map_some, hsame "web", hlost]

end StoredAllocator

end K3rs
