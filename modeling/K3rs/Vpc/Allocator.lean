import K3rs.Vpc.Store

/-!
# The Ghost address allocator

`GhostAllocator` keeps one pool for each VPC.  A pool hands out guest addresses by a
cyclic search over the offsets `1 ..= max_hosts`, starting after the last one handed out,
and the Ghost address of a pod is a function of its guest address.  Allocations are written
to the store before they become visible, and removed from the pool before they are deleted
there; the result of the store write is a parameter (`io`).

Arithmetic on addresses wraps, as the release build does.

## What the operations do

* `searchOffset_spec`: an offset the search returns is not taken.
* `allocate_cases`, `release_cases`: all that a call can do; a refused one changes nothing.
* `lookup_syncVpcs`: a pool is kept as it is, dropped, or new and empty.
-/

namespace K3rs

open Net Tables

/-! ## CIDRs -/

/-- `parse_cidr` of the allocator: network address and prefix length. -/
def Allocator.parseCidr (cidr : String) : Except String (UInt32 × UInt8) :=
  match cidr.toList.splitOn '/' with
  | [addrPart, lenPart] =>
      match parseIpv4 addrPart with
      | none => .error "invalid IPv4 address syntax"
      | some addr =>
          match parseUnsigned 256 lenPart with
          | .error e => .error e
          | .ok prefixLen =>
              if prefixLen ≤ 30 then .ok (addr.bits, UInt8.ofNat prefixLen)
              else .error ("prefix_len " ++ toString prefixLen ++ " too large for allocation")
  | _ => .error ("invalid CIDR: " ++ cidr)

/-! ## Pools -/

/-- `Allocation`. -/
structure Allocation where
  guestIpv4 : Ipv4Addr
  ghostIpv6 : Ipv6Addr
  deriving DecidableEq, Repr

/-- `VpcPool`. -/
structure VpcPool where
  vpcId : UInt16
  cidr : String
  baseIp : UInt32
  maxHosts : UInt32
  nextOffset : UInt32
  allocations : AList fun _ : String => Allocation

/-- `AllocateResult`. -/
structure AllocateResult where
  guestIpv4 : Ipv4Addr
  ghostIpv6 : Ipv6Addr
  vpcId : UInt16
  vpcCidr : String
  deriving DecidableEq, Repr

/-- What a pod holds after a successful call. -/
def AllocateResult.allocation (r : AllocateResult) : Allocation := ⟨r.guestIpv4, r.ghostIpv6⟩

/-- A pool without allocations, or the reason why the VPC's CIDR has none. -/
def VpcPool.new (vpc : Vpc) : Except String VpcPool := do
  let (baseIp, prefixLen) ← Allocator.parseCidr vpc.ipv4Cidr
  return {
    vpcId := vpc.vpcId
    cidr := vpc.ipv4Cidr
    baseIp
    maxHosts := (1 : UInt32) <<< (32 - prefixLen).toUInt32 - 2
    nextOffset := 1
    allocations := ∅ }

/-- A new pool starts at the address as it is written. -/
theorem VpcPool.new_eq {vpc : Vpc} {baseIp : UInt32} {prefixLen : UInt8}
    (h : Allocator.parseCidr vpc.ipv4Cidr = .ok (baseIp, prefixLen)) :
    VpcPool.new vpc = .ok
      { vpcId := vpc.vpcId
        cidr := vpc.ipv4Cidr
        baseIp
        maxHosts := (1 : UInt32) <<< (32 - prefixLen).toUInt32 - 2
        nextOffset := 1
        allocations := ∅ } := by
  simp only [VpcPool.new, h]
  rfl

theorem VpcPool.new_allocations {vpc : Vpc} {pool : VpcPool} (h : VpcPool.new vpc = .ok pool) :
    pool.allocations = ∅ := by
  unfold VpcPool.new at h
  cases hparse : Allocator.parseCidr vpc.ipv4Cidr with
  | error e =>
      rw [hparse] at h
      cases h
  | ok parsed =>
      rw [hparse] at h
      cases h
      rfl

/-- The search loop of `allocate`, with `left` tries left. -/
def searchOffset (taken : List UInt32) (maxHosts : UInt32) : (left : ℕ) → UInt32 → Option UInt32
  | 0, _ => none
  | left + 1, offset =>
      -- valid host offsets: 1 ..= max_hosts
      let offset := if offset < 1 ∨ offset > maxHosts then 1 else offset
      if offset ∈ taken then searchOffset taken maxHosts left (offset + 1) else some offset

/-- The offsets in use. -/
def VpcPool.allocatedOffsets (pool : VpcPool) : List UInt32 :=
  pool.allocations.entries.map fun e => e.2.guestIpv4.bits - pool.baseIp

/-- The next free offset. -/
def VpcPool.findOffset (pool : VpcPool) : Option UInt32 :=
  searchOffset pool.allocatedOffsets pool.maxHosts pool.maxHosts.toNat pool.nextOffset

/-- The pool after an allocation. -/
def VpcPool.assign (pool : VpcPool) (podId : String) (offset : UInt32) (alloc : Allocation) :
    VpcPool :=
  { pool with
    nextOffset := offset + 1
    allocations := pool.allocations.insert podId alloc }

/-- The pool after a release. -/
def VpcPool.unassign (pool : VpcPool) (podId : String) : VpcPool :=
  { pool with allocations := pool.allocations.erase podId }

/-! ## The allocator -/

/-- `GhostAllocator`; the store it writes to is passed to each call. -/
structure GhostAllocator where
  platformPrefix : UInt32
  clusterId : UInt32
  pools : AList fun _ : String => VpcPool

namespace GhostAllocator

/-- `GhostAllocator::new`. -/
def new (platformPrefix clusterId : UInt32) : GhostAllocator := ⟨platformPrefix, clusterId, ∅⟩

variable (a : GhostAllocator)

/-- One VPC of the first loop of `rebuild_pools`: its pool is replaced by an empty one. -/
def resetPool (vpc : Vpc) : GhostAllocator :=
  match VpcPool.new vpc with
  | .error _ => a
  | .ok pool => { a with pools := a.pools.insert vpc.name pool }

/-- One record of the second loop of `rebuild_pools`. -/
def restore (sa : StoredAllocation) : GhostAllocator :=
  match a.pools.lookup sa.vpcName, parseIpv4 sa.guestIpv4.toList, parseIpv6 sa.ghostIpv6.toList with
  | some pool, some guestIpv4, some ghostIpv6 =>
      let offset := guestIpv4.bits - pool.baseIp
      let nextOffset := if offset ≥ pool.nextOffset then offset + 1 else pool.nextOffset
      { a with
        pools := a.pools.insert sa.vpcName
          { pool with
            nextOffset
            allocations := pool.allocations.insert sa.podId ⟨guestIpv4, ghostIpv6⟩ } }
  | _, _, _ => a

/-- `rebuild_pools`. -/
def rebuildPools (vpcs : List Vpc) (stored : List StoredAllocation) : GhostAllocator :=
  stored.foldl restore (vpcs.foldl resetPool a)

/-- One VPC of the loop of `sync_vpcs`: a pool is added where there is none. -/
def addPool (vpc : Vpc) : GhostAllocator :=
  match a.pools.lookup vpc.name with
  | some _ => a
  | none => a.resetPool vpc

/-- `sync_vpcs`. -/
def syncVpcs (vpcs : List Vpc) : GhostAllocator :=
  vpcs.foldl addPool { a with pools := retain (fun name => name ∈ vpcs.map Vpc.name) a.pools }

/-- `allocate`. -/
def allocate (store : VpcStore) (io : Except String Unit) (podId vpcName : String) :
    Except String AllocateResult × GhostAllocator × VpcStore :=
  match a.pools.lookup vpcName with
  | none => (.error ("VPC '" ++ vpcName ++ "' not found"), a, store)
  | some pool =>
      match pool.allocations.lookup podId with
      -- idempotent: the existing allocation
      | some existing =>
          (.ok ⟨existing.guestIpv4, existing.ghostIpv6, pool.vpcId, pool.cidr⟩, a, store)
      | none =>
          match pool.findOffset with
          | none => (.error ("VPC '" ++ vpcName ++ "' pool exhausted"), a, store)
          | some offset =>
              let guestIpv4 : Ipv4Addr := ⟨pool.baseIp + offset⟩
              let ghostIpv6 := construct a.platformPrefix a.clusterId pool.vpcId guestIpv4
              match io with
              | .error e => (.error e, a, store)
              | .ok () =>
                  (.ok ⟨guestIpv4, ghostIpv6, pool.vpcId, pool.cidr⟩,
                    { a with
                      pools := a.pools.insert vpcName
                        (pool.assign podId offset ⟨guestIpv4, ghostIpv6⟩) },
                    store.saveAllocation
                      { podId, vpcName, guestIpv4 := ipv4ToString guestIpv4,
                        ghostIpv6 := ipv6ToString ghostIpv6, vpcId := pool.vpcId,
                        interfaceType := "netkit" })

/-- `release`.  The pool forgets the pod before the store does. -/
def release (store : VpcStore) (io : Except String Unit) (podId vpcName : String) :
    Except String Unit × GhostAllocator × VpcStore :=
  match a.pools.lookup vpcName with
  | none => (.error ("VPC '" ++ vpcName ++ "' not found"), a, store)
  | some pool =>
      match pool.allocations.lookup podId with
      | none =>
          (.error ("No allocation for pod '" ++ podId ++ "' in VPC '" ++ vpcName ++ "'"), a, store)
      | some _ =>
          let a' := { a with pools := a.pools.insert vpcName (pool.unassign podId) }
          match io with
          | .error e => (.error e, a', store)
          | .ok () => (.ok (), a', store.deleteAllocation vpcName podId)

end GhostAllocator

/-! ## What the operations do -/

/-- An offset the search returns is not taken. -/
theorem searchOffset_spec {taken : List UInt32} {maxHosts offset : UInt32} :
    ∀ {left : ℕ} {start : UInt32}, searchOffset taken maxHosts left start = some offset →
      offset ∉ taken := by
  intro left
  induction left with
  | zero =>
      intro start h
      cases h
  | succ left ih =>
      intro start h
      simp only [searchOffset] at h
      by_cases htaken : (if start < 1 ∨ start > maxHosts then 1 else start) ∈ taken
      · rw [if_pos htaken] at h
        exact ih h
      · rw [if_neg htaken, Option.some_inj] at h
        exact h ▸ htaken

/-- It is one of the host offsets `1 ..= max_hosts`. -/
theorem searchOffset_range {taken : List UInt32} {maxHosts offset : UInt32} (hmax : 1 ≤ maxHosts) :
    ∀ {left : ℕ} {start : UInt32}, searchOffset taken maxHosts left start = some offset →
      1 ≤ offset ∧ offset ≤ maxHosts := by
  intro left
  induction left with
  | zero =>
      intro start h
      cases h
  | succ left ih =>
      intro start h
      simp only [searchOffset] at h
      split_ifs at h with hout htaken htaken
      · exact ih h
      · cases h
        exact ⟨UInt32.le_refl 1, hmax⟩
      · exact ih h
      · cases h
        obtain ⟨hlo, hhi⟩ := not_or.mp hout
        exact ⟨UInt32.not_lt.mp hlo, UInt32.not_lt.mp hhi⟩

/-- So the address made from it is nobody's. -/
theorem VpcPool.findOffset_fresh {pool : VpcPool} {offset : UInt32}
    (h : pool.findOffset = some offset) (podId : String) (alloc : Allocation)
    (hpod : pool.allocations.lookup podId = some alloc) :
    alloc.guestIpv4 ≠ ⟨pool.baseIp + offset⟩ := by
  intro heq
  refine searchOffset_spec h ?_
  refine List.mem_map.mpr ⟨⟨podId, alloc⟩, AList.mem_lookup_iff.mp hpod, ?_⟩
  rw [heq]
  show pool.baseIp + offset - pool.baseIp = offset
  rw [UInt32.add_comm, UInt32.add_sub_cancel]

namespace GhostAllocator

variable {a : GhostAllocator} {store : VpcStore} {podId vpcName : String}

/-- The address a pool gives at an offset. -/
def allocationAt (a : GhostAllocator) (pool : VpcPool) (offset : UInt32) : Allocation :=
  ⟨⟨pool.baseIp + offset⟩,
    construct a.platformPrefix a.clusterId pool.vpcId ⟨pool.baseIp + offset⟩⟩

/-- The record of a new allocation. -/
def recordOf (podId vpcName : String) (pool : VpcPool) (alloc : Allocation) : StoredAllocation :=
  { podId, vpcName, guestIpv4 := ipv4ToString alloc.guestIpv4,
    ghostIpv6 := ipv6ToString alloc.ghostIpv6, vpcId := pool.vpcId, interfaceType := "netkit" }

/-- **What `allocate` can do**: refuse for want of a pool, of a free offset or of the store,
and then change nothing; repeat an allocation; or make a new one at a free offset. -/
theorem allocate_cases (a : GhostAllocator) (store : VpcStore) (io : Except String Unit)
    (podId vpcName : String) :
    (∃ e, a.allocate store io podId vpcName = (.error e, a, store)) ∨
      ∃ pool, a.pools.lookup vpcName = some pool ∧
        ((∃ existing, pool.allocations.lookup podId = some existing ∧
            a.allocate store io podId vpcName =
              (.ok ⟨existing.guestIpv4, existing.ghostIpv6, pool.vpcId, pool.cidr⟩, a, store)) ∨
          ∃ offset, pool.allocations.lookup podId = none ∧ pool.findOffset = some offset ∧
            io = .ok () ∧
            a.allocate store io podId vpcName =
              (.ok ⟨(a.allocationAt pool offset).guestIpv4, (a.allocationAt pool offset).ghostIpv6,
                  pool.vpcId, pool.cidr⟩,
                { a with
                  pools := a.pools.insert vpcName
                    (pool.assign podId offset (a.allocationAt pool offset)) },
                store.saveAllocation
                  (recordOf podId vpcName pool (a.allocationAt pool offset)))) := by
  unfold allocate
  cases hpool : a.pools.lookup vpcName with
  | none => exact Or.inl ⟨_, rfl⟩
  | some pool =>
      cases hpod : pool.allocations.lookup podId with
      | some existing =>
          refine Or.inr ⟨pool, rfl, Or.inl ⟨existing, hpod, ?_⟩⟩
          simp only [hpod]
      | none =>
          cases hoffset : pool.findOffset with
          | none =>
              refine Or.inl ⟨"VPC '" ++ vpcName ++ "' pool exhausted", ?_⟩
              simp only [hpod, hoffset]
          | some offset =>
              cases io with
              | error e =>
                  refine Or.inl ⟨e, ?_⟩
                  simp only [hpod, hoffset]
              | ok u =>
                  refine Or.inr ⟨pool, rfl, Or.inr ⟨offset, hpod, hoffset, rfl, ?_⟩⟩
                  simp only [hpod, hoffset]
                  rfl

/-- `release` without an allocation to take away. -/
theorem release_refused {io : Except String Unit}
    (h : ∀ pool, a.pools.lookup vpcName = some pool → pool.allocations.lookup podId = none) :
    ∃ e, a.release store io podId vpcName = (.error e, a, store) := by
  unfold release
  cases hpool : a.pools.lookup vpcName with
  | none => exact ⟨_, rfl⟩
  | some pool =>
      simp only [h pool hpool]
      exact ⟨_, rfl⟩

/-- `release` of an allocation: the pool forgets it in any case. -/
theorem release_allocated {io : Except String Unit} {pool : VpcPool} {alloc : Allocation}
    (hpool : a.pools.lookup vpcName = some pool) (hpod : pool.allocations.lookup podId = some alloc) :
    a.release store io podId vpcName =
      (io, { a with pools := a.pools.insert vpcName (pool.unassign podId) },
        match io with
        | .error _ => store
        | .ok () => store.deleteAllocation vpcName podId) := by
  unfold release
  simp only [hpool, hpod]
  cases io with
  | error e => rfl
  | ok u => rfl

/-- **What `release` can do**: refuse and change nothing, or take the allocation away; its
record stays if the store fails. -/
theorem release_cases (a : GhostAllocator) (store : VpcStore) (io : Except String Unit)
    (podId vpcName : String) :
    (∃ e, a.release store io podId vpcName = (.error e, a, store)) ∨
      ∃ pool alloc, a.pools.lookup vpcName = some pool ∧
        pool.allocations.lookup podId = some alloc ∧
        a.release store io podId vpcName =
          (io, { a with pools := a.pools.insert vpcName (pool.unassign podId) },
            match io with
            | .error _ => store
            | .ok () => store.deleteAllocation vpcName podId) := by
  by_cases hnone : ∀ pool, a.pools.lookup vpcName = some pool → pool.allocations.lookup podId = none
  · exact Or.inl (release_refused hnone)
  · push Not at hnone
    obtain ⟨pool, hpool, hpod⟩ := hnone
    obtain ⟨alloc, halloc⟩ := Option.ne_none_iff_exists'.mp hpod
    exact Or.inr ⟨pool, alloc, hpool, halloc, release_allocated hpool halloc⟩

/-- Prefix and cluster id never change. -/
theorem syncVpcs_ids (a : GhostAllocator) (vpcs : List Vpc) :
    (a.syncVpcs vpcs).platformPrefix = a.platformPrefix ∧
      (a.syncVpcs vpcs).clusterId = a.clusterId := by
  have hadd : ∀ (a : GhostAllocator) (vpc : Vpc),
      (a.addPool vpc).platformPrefix = a.platformPrefix ∧
        (a.addPool vpc).clusterId = a.clusterId := by
    intro a vpc
    unfold addPool resetPool
    cases a.pools.lookup vpc.name <;> cases VpcPool.new vpc <;> exact ⟨rfl, rfl⟩
  have hfold : ∀ (l : List Vpc) (a : GhostAllocator),
      (l.foldl addPool a).platformPrefix = a.platformPrefix ∧
        (l.foldl addPool a).clusterId = a.clusterId := by
    intro l
    induction l with
    | nil => exact fun _ => ⟨rfl, rfl⟩
    | cons vpc rest ih =>
        exact fun a => ⟨(ih _).1.trans (hadd a vpc).1, (ih _).2.trans (hadd a vpc).2⟩
  exact hfold vpcs _

/-- A pool that is there stays while VPCs are added. -/
theorem lookup_addPool_of_some {name : String} {old : VpcPool}
    (h : a.pools.lookup name = some old) (vpc : Vpc) :
    (a.addPool vpc).pools.lookup name = some old := by
  unfold addPool
  cases hvpc : a.pools.lookup vpc.name with
  | some _ => exact h
  | none =>
      have hne : name ≠ vpc.name := by
        rintro rfl
        rw [h] at hvpc
        cases hvpc
      simp only [resetPool]
      cases VpcPool.new vpc with
      | error e => exact h
      | ok fresh => exact (AList.lookup_insert_ne hne).trans h

/-- One VPC of `sync_vpcs`. -/
theorem lookup_addPool {vpc : Vpc} {name : String} {pool : VpcPool}
    (h : (a.addPool vpc).pools.lookup name = some pool) :
    a.pools.lookup name = some pool ∨
      a.pools.lookup name = none ∧ vpc.name = name ∧ VpcPool.new vpc = .ok pool := by
  unfold addPool at h
  cases hold : a.pools.lookup vpc.name with
  | some old =>
      rw [hold] at h
      exact Or.inl h
  | none =>
      rw [hold] at h
      unfold resetPool at h
      cases hnew : VpcPool.new vpc with
      | error e =>
          rw [hnew] at h
          exact Or.inl h
      | ok fresh =>
          rw [hnew] at h
          by_cases hname : name = vpc.name
          · subst hname
            simp only [AList.lookup_insert, Option.some_inj] at h
            exact Or.inr ⟨hold, rfl, congrArg _ h⟩
          · simp only [AList.lookup_insert_ne hname] at h
            exact Or.inl h

theorem lookup_foldl_addPool {name : String} {pool : VpcPool} (vpcs : List Vpc) :
    ∀ {a : GhostAllocator}, (vpcs.foldl addPool a).pools.lookup name = some pool →
      a.pools.lookup name = some pool ∨
        a.pools.lookup name = none ∧
          ∃ vpc ∈ vpcs, vpc.name = name ∧ VpcPool.new vpc = .ok pool := by
  induction vpcs with
  | nil => exact fun h => Or.inl h
  | cons vpc rest ih =>
      intro a h
      rcases ih h with hkept | ⟨hnone, vpc', hmem, hname, hnew⟩
      · rcases lookup_addPool hkept with hold | ⟨hold, hname, hnew⟩
        · exact Or.inl hold
        · exact Or.inr ⟨hold, vpc, List.mem_cons_self, hname, hnew⟩
      · refine Or.inr ⟨?_, vpc', List.mem_cons_of_mem _ hmem, hname, hnew⟩
        cases hold : a.pools.lookup name with
        | none => rfl
        | some old =>
            rw [lookup_addPool_of_some hold vpc] at hnone
            cases hnone

/-- A name that is not listed gets no pool. -/
theorem lookup_addPool_of_ne {vpc : Vpc} {name : String} (h : name ≠ vpc.name) :
    (a.addPool vpc).pools.lookup name = a.pools.lookup name := by
  unfold addPool resetPool
  cases a.pools.lookup vpc.name with
  | some old => rfl
  | none =>
      cases VpcPool.new vpc with
      | error e => rfl
      | ok fresh => exact AList.lookup_insert_ne h

/-- A listed name keeps its pool, or gets a new one if its CIDR allows it. -/
theorem lookup_addPool_self (vpc : Vpc) :
    (a.addPool vpc).pools.lookup vpc.name =
      (a.pools.lookup vpc.name).or (VpcPool.new vpc).toOption := by
  unfold addPool resetPool
  cases h : a.pools.lookup vpc.name with
  | some old => exact h
  | none =>
      cases VpcPool.new vpc with
      | error e => exact h
      | ok fresh => exact AList.lookup_insert a.pools

section Fold

variable {f : GhostAllocator → Vpc → GhostAllocator}

/-- A loop over VPCs whose passes touch only the pool of their VPC leaves the pools of other
names alone. -/
theorem lookup_foldl_of_notMem {name : String} {vpcs : List Vpc}
    (hother : ∀ a vpc, name ≠ vpc.name → (f a vpc).pools.lookup name = a.pools.lookup name)
    (h : name ∉ vpcs.map Vpc.name) :
    ∀ {a : GhostAllocator}, (vpcs.foldl f a).pools.lookup name = a.pools.lookup name := by
  induction vpcs with
  | nil => exact rfl
  | cons vpc rest ih =>
      intro a
      obtain ⟨hne, hrest⟩ := not_or.mp fun hmem => h (List.mem_cons.mpr hmem)
      exact (ih hrest).trans (hother a vpc hne)

/-- With unique names the pool of a VPC is what its own pass makes of it. -/
theorem lookup_foldl_of_mem {vpc : Vpc} {vpcs : List Vpc} {g : Option VpcPool → Option VpcPool}
    (hother : ∀ name a vpc, name ≠ vpc.name → (f a vpc).pools.lookup name = a.pools.lookup name)
    (hself : ∀ a, (f a vpc).pools.lookup vpc.name = g (a.pools.lookup vpc.name))
    (hnodup : (vpcs.map Vpc.name).Nodup) (h : vpc ∈ vpcs) :
    ∀ {a : GhostAllocator},
      (vpcs.foldl f a).pools.lookup vpc.name = g (a.pools.lookup vpc.name) := by
  induction vpcs with
  | nil => cases h
  | cons first rest ih =>
      intro a
      obtain ⟨hfirst, hrest⟩ := List.nodup_cons.mp hnodup
      rcases List.mem_cons.mp h with rfl | hmem
      · exact (lookup_foldl_of_notMem (hother _) hfirst).trans (hself a)
      · have hne : vpc.name ≠ first.name := fun heq =>
          hfirst (heq ▸ List.mem_map_of_mem hmem)
        rw [List.foldl_cons, ih hrest hmem, hother _ _ _ hne]

end Fold

/-- **The pools after `sync_vpcs`.**  A listed VPC has the pool it had, or a new one. -/
theorem lookup_syncVpcs_of_mem {vpc : Vpc} {vpcs : List Vpc}
    (hnodup : (vpcs.map Vpc.name).Nodup) (h : vpc ∈ vpcs) :
    (a.syncVpcs vpcs).pools.lookup vpc.name =
      (a.pools.lookup vpc.name).or (VpcPool.new vpc).toOption := by
  have hmem : vpc.name ∈ vpcs.map Vpc.name := List.mem_map_of_mem h
  rw [syncVpcs, lookup_foldl_of_mem (g := fun old => old.or (VpcPool.new vpc).toOption)
    (fun _ _ _ => lookup_addPool_of_ne) (fun _ => lookup_addPool_self vpc) hnodup h,
    lookup_retain, if_pos (by simpa using hmem)]

/-- No other name has one. -/
theorem lookup_syncVpcs_of_notMem {name : String} {vpcs : List Vpc}
    (h : name ∉ vpcs.map Vpc.name) : (a.syncVpcs vpcs).pools.lookup name = none := by
  rw [syncVpcs, lookup_foldl_of_notMem (fun _ _ => lookup_addPool_of_ne) h, lookup_retain,
    if_neg (by simpa using h)]

/-- **What `sync_vpcs` does to a pool.**  It is kept as it is, or it is new: then the name
had no pool, and it is the new pool of a listed VPC. -/
theorem lookup_syncVpcs {vpcs : List Vpc} {name : String} {pool : VpcPool}
    (h : (a.syncVpcs vpcs).pools.lookup name = some pool) :
    a.pools.lookup name = some pool ∨
      a.pools.lookup name = none ∧
        ∃ vpc ∈ vpcs, vpc.name = name ∧ VpcPool.new vpc = .ok pool := by
  rcases lookup_foldl_addPool vpcs h with hkept | ⟨hnone, vpc, hvpc, rfl, hnew⟩
  · rw [lookup_retain] at hkept
    split at hkept
    · exact Or.inl hkept
    · cases hkept
  · have hmem : vpc.name ∈ vpcs.map Vpc.name := List.mem_map_of_mem hvpc
    rw [lookup_retain, if_pos (by simpa using hmem)] at hnone
    exact Or.inr ⟨hnone, vpc, hvpc, rfl, hnew⟩

end GhostAllocator

end K3rs
