import K3rs.Lib.IpRoundTrip
import K3rs.Lib.Transition
import K3rs.Vpc.Cidr

/-!
# Addresses stay inside their VPC

The pool of a VPC over its lifetime: pods come and go, and the daemon rebuilds the pool from
its store.  The allocator counts host offsets from the address in the CIDR as it is
written, while the server and the packet programs mask its host bits away.

`containment_iff`: all arithmetic on addresses is exact and all addresses are host
addresses of the CIDR, in every run, exactly when the prefix length is not zero and the CIDR
is written without host bits.
-/

namespace K3rs

open Net Transition

/-! ## The pool of one VPC -/

/-- The allocator and its store. -/
structure PoolState where
  allocator : GhostAllocator
  store : VpcStore

/-- What happens to the pool; `io` is what the store answers to a write. -/
inductive PoolOp where
  | allocate (podId : String) (io : Except String Unit)
  | release (podId : String) (io : Except String Unit)
  | rebuild
  deriving DecidableEq, Repr

/-- Every arithmetic operation gives its mathematical value: a sum. -/
def ExactAdd (x y : UInt32) : Prop := (x + y).toNat = x.toNat + y.toNat

/-- A difference. -/
def ExactSub (x y : UInt32) : Prop := (x - y).toNat + y.toNat = x.toNat

/-- `max_hosts` of a new pool is the number of addresses less two. -/
def ExactMaxHosts (vpc : Vpc) : Prop :=
  ∀ baseIp prefixLen pool, Allocator.parseCidr vpc.ipv4Cidr = .ok (baseIp, prefixLen) →
    VpcPool.new vpc = .ok pool → pool.maxHosts.toNat = 2 ^ (32 - prefixLen.toNat) - 2

/-- A host address of the CIDR: inside as the packet programs test it, and neither the
network nor the broadcast address. -/
def IsHostOf (cidr : String) (ip : UInt32) : Prop :=
  ∀ network mask, EbpfEnforcer.parseCidr cidr = .ok (network, mask) →
    ip &&& mask = network &&& mask ∧ ip ≠ network &&& mask ∧ ip ≠ network &&& mask ||| ~~~mask

namespace PoolState

section System

variable (platformPrefix clusterId : UInt32) (vpc : Vpc)

/-- A new daemon with the store of the last one. -/
def boot (store : VpcStore) : PoolState where
  allocator :=
    (GhostAllocator.new platformPrefix clusterId).rebuildPools [vpc] store.loadAllAllocations
  store := store

/-- One operation. -/
def step (st : PoolState) : PoolOp → PoolState
  | .allocate podId io =>
      let result := st.allocator.allocate st.store io podId vpc.name
      ⟨result.2.1, result.2.2⟩
  | .release podId io =>
      let result := st.allocator.release st.store io podId vpc.name
      ⟨result.2.1, result.2.2⟩
  | .rebuild => boot platformPrefix clusterId vpc st.store

/-- All arithmetic that the operation does on addresses is exact. -/
def ExactStep (st : PoolState) : PoolOp → Prop
  | .allocate podId _ =>
      ∀ pool, st.allocator.pools.lookup vpc.name = some pool →
        pool.allocations.lookup podId = none →
        (∀ pod alloc, pool.allocations.lookup pod = some alloc →
          ExactSub alloc.guestIpv4.bits pool.baseIp) ∧
        ∀ offset, pool.findOffset = some offset → ExactAdd pool.baseIp offset
  | .release _ _ => True
  | .rebuild =>
      ∀ sa ∈ st.store.loadAllAllocations, sa.vpcName = vpc.name →
        ∀ pool guest, VpcPool.new vpc = .ok pool → parseIpv4 sa.guestIpv4.toList = some guest →
          ExactSub guest.bits pool.baseIp

/-- Every allocated address is a host address of the VPC. -/
def Inside (st : PoolState) : Prop :=
  ∀ pool, st.allocator.pools.lookup vpc.name = some pool →
    ∀ pod alloc, pool.allocations.lookup pod = some alloc →
      IsHostOf vpc.ipv4Cidr alloc.guestIpv4.bits

/-- **Containment**, over all runs. -/
def Contained : Prop :=
  ExactMaxHosts vpc ∧ ∀ ops,
    Admitted (step platformPrefix clusterId vpc) (ExactStep vpc)
        (boot platformPrefix clusterId vpc {}) ops ∧
      Along (step platformPrefix clusterId vpc) (Inside vpc)
        (boot platformPrefix clusterId vpc {}) ops

end System

end PoolState

/-! ## Addresses -/

/-- An offset of a network without host bits gives a host address. -/
theorem isHostOf_add {cidr : String} {ip : Ipv4Addr} {p : ℕ} (htext : CidrText cidr ip p)
    (hp : p ≤ 30) (hbase : 2 ^ (32 - p) ∣ ip.bits.toNat) {guest : UInt32} {offset : ℕ}
    (hguest : guest.toNat = ip.bits.toNat + offset) (hpos : 0 < offset)
    (hlt : offset + 1 < 2 ^ (32 - p)) : IsHostOf cidr guest := by
  intro network mask hparse
  rw [htext.enforcer (hp.trans (by norm_num))] at hparse
  cases hparse
  have hp32 : p ≤ 32 := hp.trans (by norm_num)
  obtain ⟨q, hq⟩ := hbase
  have hsize : 0 < 2 ^ (32 - p) := Nat.two_pow_pos _
  have hnet : ip.bits.toNat / 2 ^ (32 - p) = q := by
    rw [hq, Nat.mul_div_cancel_left q hsize]
  have hhost : guest.toNat / 2 ^ (32 - p) = q := by
    rw [hguest, hq, Nat.mul_add_div hsize, Nat.div_eq_of_lt (by omega), Nat.add_zero]
  refine ⟨?_, ?_, ?_⟩
  · apply UInt32.toNat_inj.mp
    rw [toNat_and_netmask _ hp32, toNat_and_netmask _ hp32, hnet, hhost]
  · intro heq
    have hnat := congrArg UInt32.toNat heq
    rw [toNat_and_netmask _ hp32, hnet, ← hq] at hnat
    omega
  · intro heq
    have hnat := congrArg UInt32.toNat heq
    rw [toNat_broadcast _ hp32, hnet, ← hq] at hnat
    omega

/-- The count of hosts is right for every prefix length but zero, where the shift is by the
whole width. -/
theorem exactMaxHosts_iff {vpc : Vpc} {ip : Ipv4Addr} {p : ℕ} (htext : CidrText vpc.ipv4Cidr ip p)
    (hp : p ≤ 30) : ExactMaxHosts vpc ↔ 1 ≤ p := by
  have hparse := htext.allocator (hp.trans (by norm_num))
  rw [if_pos hp] at hparse
  have hcount : ∀ p ≤ 30, (((1 : UInt32) <<< (32 - UInt8.ofNat p).toUInt32 - 2).toNat =
      2 ^ (32 - (UInt8.ofNat p).toNat) - 2 ↔ 1 ≤ p) := by
    decide
  rw [← hcount p hp]
  constructor
  · intro h
    exact h _ _ _ hparse (VpcPool.new_eq hparse)
  · intro h baseIp prefixLen pool hparse' hnew
    rw [hparse] at hparse'
    cases hparse'
    rw [VpcPool.new_eq hparse] at hnew
    cases hnew
    exact h

/-! ## The invariant -/

namespace PoolState

section Invariant

variable {platformPrefix clusterId : UInt32} {vpc : Vpc}

/-- The number is that of a host of a network with `size` addresses. -/
def HostAt (base : UInt32) (size : ℕ) (guest : UInt32) : Prop :=
  ∃ offset, 0 < offset ∧ offset + 1 < size ∧ guest.toNat = base.toNat + offset

/-- A pool whose allocations are hosts. -/
structure PoolIn (base : UInt32) (size : ℕ) (pool : VpcPool) : Prop where
  baseIp : pool.baseIp = base
  maxHosts : pool.maxHosts.toNat = size - 2
  hosts : ∀ pod alloc, pool.allocations.lookup pod = some alloc →
    HostAt base size alloc.guestIpv4.bits

/-- The pool in memory and the allocations on disk are hosts. -/
structure Inv (vpc : Vpc) (base : UInt32) (size : ℕ) (st : PoolState) : Prop where
  pool : ∀ pool, st.allocator.pools.lookup vpc.name = some pool → PoolIn base size pool
  stored : ∀ sa ∈ st.store.loadAllAllocations, sa.vpcName = vpc.name →
    ∃ guest, sa.guestIpv4 = ipv4ToString guest ∧ HostAt base size guest.bits

variable {base : UInt32} {size : ℕ}

theorem HostAt.exactSub {guest : UInt32} (h : HostAt base size guest) : ExactSub guest base := by
  obtain ⟨offset, -, -, hguest⟩ := h
  have hle : base ≤ guest := UInt32.le_iff_toNat_le.mpr (by omega)
  rw [ExactSub, UInt32.toNat_sub_of_le _ _ hle]
  omega

theorem PoolIn.restore {pool : VpcPool} (h : PoolIn base size pool) {podId : String}
    {alloc : Allocation} (hguest : HostAt base size alloc.guestIpv4.bits) (nextOffset : UInt32) :
    PoolIn base size
      { pool with nextOffset, allocations := pool.allocations.insert podId alloc } := by
  refine ⟨h.baseIp, h.maxHosts, fun pod other hlookup => ?_⟩
  by_cases hpod : pod = podId
  · subst hpod
    rw [AList.lookup_insert] at hlookup
    cases hlookup
    exact hguest
  · rw [AList.lookup_insert_ne hpod] at hlookup
    exact h.hosts pod other hlookup

/-- Restoring allocations that are hosts. -/
theorem poolIn_foldl_restore {stored : List StoredAllocation} :
    ∀ {a : GhostAllocator},
      (∀ sa ∈ stored, sa.vpcName = vpc.name →
        ∃ guest, sa.guestIpv4 = ipv4ToString guest ∧ HostAt base size guest.bits) →
      (∀ pool, a.pools.lookup vpc.name = some pool → PoolIn base size pool) →
      ∀ pool, (stored.foldl GhostAllocator.restore a).pools.lookup vpc.name = some pool →
        PoolIn base size pool := by
  induction stored with
  | nil => exact fun _ h => h
  | cons sa rest ih =>
      intro a hstored ha
      refine ih (fun sa' hsa' => hstored sa' (List.mem_cons_of_mem _ hsa')) fun pool hpool => ?_
      unfold GhostAllocator.restore at hpool
      split at hpool
      case h_2 => exact ha pool hpool
      case h_1 old guest ghost hold hguest hghost =>
          by_cases hname : vpc.name = sa.vpcName
          · rw [hname] at hpool
            simp only [AList.lookup_insert, Option.some_inj] at hpool
            obtain ⟨addr, htext, hhost⟩ := hstored sa List.mem_cons_self hname.symm
            rw [htext, parseIpv4_ipv4ToString, Option.some_inj] at hguest
            subst hguest hpool
            exact (ha old (hname ▸ hold)).restore hhost _
          · simp only [AList.lookup_insert_ne hname] at hpool
            exact ha pool hpool

/-- A VPC whose new pools count the hosts of a network that ends within the address range. -/
structure Sound (vpc : Vpc) (base : UInt32) (size : ℕ) : Prop where
  fits : base.toNat + size ≤ 2 ^ 32
  room : 4 ≤ size
  fresh : ∀ pool, VpcPool.new vpc = .ok pool → PoolIn base size pool

/-- The address at an offset that the search finds. -/
theorem Sound.offset (h : Sound vpc base size) {pool : VpcPool} (hpool : PoolIn base size pool)
    {offset : UInt32} (hoffset : pool.findOffset = some offset) :
    ExactAdd pool.baseIp offset ∧ HostAt base size (pool.baseIp + offset) := by
  have hfits := h.fits
  have hroom := h.room
  have hmax : 1 ≤ pool.maxHosts := by
    rw [UInt32.le_iff_toNat_le, hpool.maxHosts]
    show 1 ≤ size - 2
    omega
  obtain ⟨hlo, hhi⟩ := searchOffset_range hmax hoffset
  have hlo' : 1 ≤ offset.toNat := UInt32.le_iff_toNat_le.mp hlo
  have hhi' := UInt32.le_iff_toNat_le.mp hhi
  rw [hpool.maxHosts] at hhi'
  have hexact : ExactAdd pool.baseIp offset := by
    rw [ExactAdd, UInt32.toNat_add, hpool.baseIp]
    exact Nat.mod_eq_of_lt (by omega)
  refine ⟨hexact, offset.toNat, hlo', by omega, ?_⟩
  rw [hexact, hpool.baseIp]

theorem Sound.boot (h : Sound vpc base size) {store : VpcStore}
    (hstored : ∀ sa ∈ store.loadAllAllocations, sa.vpcName = vpc.name →
      ∃ guest, sa.guestIpv4 = ipv4ToString guest ∧ HostAt base size guest.bits) :
    Inv vpc base size (boot platformPrefix clusterId vpc store) := by
  refine ⟨poolIn_foldl_restore hstored fun pool hpool => ?_, hstored⟩
  simp only [List.foldl_cons, List.foldl_nil, GhostAllocator.resetPool] at hpool
  cases hnew : VpcPool.new vpc with
  | error e =>
      rw [hnew] at hpool
      cases hpool
  | ok fresh =>
      rw [hnew] at hpool
      simp only [AList.lookup_insert, Option.some_inj] at hpool
      exact hpool ▸ h.fresh fresh hnew

theorem Sound.allocate (h : Sound vpc base size) {st : PoolState} (hst : Inv vpc base size st)
    (podId : String) (io : Except String Unit) :
    Inv vpc base size (step platformPrefix clusterId vpc st (.allocate podId io)) := by
  simp only [step]
  rcases GhostAllocator.allocate_cases st.allocator st.store io podId vpc.name with
    ⟨e, hresult⟩ | ⟨pool, hpool, ⟨existing, -, hresult⟩ | ⟨offset, hpod, hoffset, -, hresult⟩⟩
  · rw [hresult]
    exact hst
  · rw [hresult]
    exact hst
  · rw [hresult]
    have hin := hst.pool pool hpool
    obtain ⟨-, hhost⟩ := h.offset hin hoffset
    constructor
    · intro pool' hpool'
      simp only [AList.lookup_insert, Option.some_inj] at hpool'
      subst hpool'
      exact hin.restore hhost _
    · intro sa hsa hname
      rcases (st.store.allocations.mem_put).mp hsa with rfl | ⟨hold, -⟩
      · exact ⟨_, rfl, hhost⟩
      · exact hst.stored sa hold hname

theorem Inv.release {st : PoolState} (hst : Inv vpc base size st) (podId : String)
    (io : Except String Unit) :
    Inv vpc base size (step platformPrefix clusterId vpc st (.release podId io)) := by
  simp only [step]
  rcases st.allocator.release_cases st.store io podId vpc.name with
    ⟨e, hresult⟩ | ⟨pool, alloc, hpool, -, hresult⟩
  · rw [hresult]
    exact hst
  · rw [hresult]
    constructor
    · intro pool' hpool'
      simp only [AList.lookup_insert, Option.some_inj] at hpool'
      subst hpool'
      have hin := hst.pool pool hpool
      refine ⟨hin.baseIp, hin.maxHosts, fun pod other hlookup => ?_⟩
      by_cases hp : pod = podId
      · subst hp
        rw [VpcPool.unassign, AList.lookup_erase] at hlookup
        cases hlookup
      · rw [VpcPool.unassign, AList.lookup_erase_ne hp] at hlookup
        exact hin.hosts pod other hlookup
    · intro sa hsa hname
      cases io with
      | error e => exact hst.stored sa hsa hname
      | ok u => exact hst.stored sa (List.mem_of_mem_filter hsa) hname

theorem Sound.step (h : Sound vpc base size) {st : PoolState} (hst : Inv vpc base size st)
    (op : PoolOp) : Inv vpc base size (PoolState.step platformPrefix clusterId vpc st op) := by
  cases op with
  | allocate podId io => exact h.allocate hst podId io
  | release podId io => exact hst.release podId io
  | rebuild => exact h.boot hst.stored

/-- Under the invariant all arithmetic is exact. -/
theorem Sound.exactStep (h : Sound vpc base size) {st : PoolState} (hst : Inv vpc base size st)
    (op : PoolOp) : ExactStep vpc st op := by
  cases op with
  | allocate podId io =>
      intro pool hpool _
      have hin := hst.pool pool hpool
      refine ⟨fun pod alloc hpod => ?_, fun offset hoffset => (h.offset hin hoffset).1⟩
      rw [hin.baseIp]
      exact (hin.hosts pod alloc hpod).exactSub
  | release podId io => trivial
  | rebuild =>
      intro sa hsa hname pool guest hnew hguest
      obtain ⟨addr, htext, hhost⟩ := hst.stored sa hsa hname
      rw [htext, parseIpv4_ipv4ToString, Option.some_inj] at hguest
      subst hguest
      rw [(h.fresh pool hnew).baseIp]
      exact hhost.exactSub

/-- A CIDR without host bits whose prefix length is not zero. -/
theorem sound_of_aligned {ip : Ipv4Addr} {p : ℕ} (htext : CidrText vpc.ipv4Cidr ip p)
    (hp : p ≤ 30) (hpos : 1 ≤ p) (hdvd : 2 ^ (32 - p) ∣ ip.bits.toNat) :
    Sound vpc ip.bits (2 ^ (32 - p)) := by
  have hparse := htext.allocator (hp.trans (by norm_num))
  rw [if_pos hp] at hparse
  refine ⟨?_, ?_, fun pool hnew => ?_⟩
  · obtain ⟨q, hq⟩ := hdvd
    have hwhole : 2 ^ 32 = 2 ^ (32 - p) * 2 ^ p := by
      rw [← pow_add, Nat.sub_add_cancel (hp.trans (by norm_num))]
    have hlt : 2 ^ (32 - p) * q < 2 ^ (32 - p) * 2 ^ p := by
      rw [← hq, ← hwhole]
      exact ip.bits.toNat_lt
    rw [hq, hwhole, ← Nat.mul_succ]
    exact Nat.mul_le_mul_left _ (Nat.lt_of_mul_lt_mul_left hlt)
  · exact (Nat.pow_le_pow_right (by norm_num) (by omega) : 2 ^ 2 ≤ 2 ^ (32 - p))
  · have hcount := (exactMaxHosts_iff htext hp).mpr hpos _ _ pool hparse hnew
    rw [VpcPool.new_eq hparse] at hnew
    cases hnew
    have hlen : (UInt8.ofNat p).toNat = p := by
      rw [UInt8.toNat_ofNat']
      exact Nat.mod_eq_of_lt (by omega)
    rw [hlen] at hcount
    exact ⟨rfl, hcount, fun pod alloc hpod => by cases hpod⟩

end Invariant

/-! ## A run that fills the pool -/

section Fill

variable {platformPrefix clusterId : UInt32} {vpc : Vpc}

/-- Pods with different names. -/
def podName (n : ℕ) : String := String.ofList (List.replicate n 'a')

theorem podName_injective : Function.Injective podName := by
  intro m n h
  have hlist := congrArg String.toList h
  simpa [podName] using congrArg List.length hlist

/-- The first `n` pods ask for an address. -/
def fill (n : ℕ) : List PoolOp :=
  (List.range n).map fun i => .allocate (podName (i + 1)) (.ok ())

/-- The first `n` pods have the first `n` offsets. -/
structure Filled (vpc : Vpc) (fresh : VpcPool) (n : ℕ) (st : PoolState) (pool : VpcPool) :
    Prop where
  lookup : st.allocator.pools.lookup vpc.name = some pool
  baseIp : pool.baseIp = fresh.baseIp
  maxHosts : pool.maxHosts = fresh.maxHosts
  nextOffset : pool.nextOffset = UInt32.ofNat (n + 1)
  offsets : ∀ pod alloc, pool.allocations.lookup pod = some alloc →
    ∃ i, i ≤ n ∧ pod = podName i ∧ alloc.guestIpv4.bits = fresh.baseIp + UInt32.ofNat i
  last : n ≠ 0 → ∃ alloc, pool.allocations.lookup (podName n) = some alloc ∧
    alloc.guestIpv4.bits = fresh.baseIp + UInt32.ofNat n

/-- With the first `n` offsets taken, the search finds the next one. -/
theorem Filled.findOffset {fresh pool : VpcPool} {n : ℕ} {st : PoolState}
    (h : Filled vpc fresh n st pool) (hn : n < fresh.maxHosts.toNat) :
    pool.findOffset = some (UInt32.ofNat (n + 1)) := by
  have hlt : n + 1 < 2 ^ 32 := lt_of_le_of_lt hn fresh.maxHosts.toNat_lt
  have hnext : (UInt32.ofNat (n + 1)).toNat = n + 1 := UInt32.toNat_ofNat_of_lt' hlt
  obtain ⟨left, hleft⟩ := Nat.exists_eq_succ_of_ne_zero (Nat.ne_zero_of_lt hn)
  have hrange : ¬ (UInt32.ofNat (n + 1) < 1 ∨ UInt32.ofNat (n + 1) > fresh.maxHosts) := by
    rintro (hlow | hhigh)
    · have := UInt32.lt_iff_toNat_lt.mp hlow
      rw [hnext] at this
      exact absurd this (by simp)
    · have := UInt32.lt_iff_toNat_lt.mp hhigh
      rw [hnext] at this
      omega
  -- the offsets in use are those of the pods before, and none of them is `n + 1`
  have hfree : UInt32.ofNat (n + 1) ∉ pool.allocatedOffsets := by
    intro hmem
    obtain ⟨⟨pod, alloc⟩, hentry, hoffset⟩ := List.mem_map.mp hmem
    obtain ⟨i, hi, -, hguest⟩ := h.offsets pod alloc (AList.mem_lookup_iff.mpr hentry)
    have heq : UInt32.ofNat i = UInt32.ofNat (n + 1) := by
      rw [← hoffset]
      show _ = alloc.guestIpv4.bits - pool.baseIp
      rw [hguest, h.baseIp, UInt32.add_comm, UInt32.add_sub_cancel]
    have hnat := congrArg UInt32.toNat heq
    rw [hnext, UInt32.toNat_ofNat_of_lt' (show i < 2 ^ 32 by omega)] at hnat
    omega
  rw [VpcPool.findOffset, h.maxHosts, h.nextOffset, hleft]
  simp only [searchOffset, if_neg hrange, if_neg hfree]

theorem Filled.next (platformPrefix clusterId : UInt32) {fresh pool : VpcPool} {n : ℕ}
    {st : PoolState} (h : Filled vpc fresh n st pool) (hn : n < fresh.maxHosts.toNat) :
    ∃ pool', Filled vpc fresh (n + 1)
      (step platformPrefix clusterId vpc st (.allocate (podName (n + 1)) (.ok ()))) pool' := by
  have hnone : pool.allocations.lookup (podName (n + 1)) = none := by
    cases hpod : pool.allocations.lookup (podName (n + 1)) with
    | none => rfl
    | some alloc =>
        obtain ⟨i, hi, hname, -⟩ := h.offsets _ _ hpod
        have := podName_injective hname
        omega
  have hoffset := h.findOffset hn
  have hnew : (step platformPrefix clusterId vpc st
      (.allocate (podName (n + 1)) (.ok ()))).allocator.pools =
      st.allocator.pools.insert vpc.name (pool.assign (podName (n + 1)) (UInt32.ofNat (n + 1))
        (st.allocator.allocationAt pool (UInt32.ofNat (n + 1)))) := by
    simp only [step, GhostAllocator.allocate, h.lookup, hnone, hoffset]
    rfl
  refine ⟨pool.assign (podName (n + 1)) (UInt32.ofNat (n + 1))
    (st.allocator.allocationAt pool (UInt32.ofNat (n + 1))), ?_, h.baseIp, h.maxHosts, ?_, ?_, ?_⟩
  · rw [hnew, AList.lookup_insert]
  · exact (UInt32.ofNat_add (n + 1) 1).symm
  · intro pod alloc hpod
    by_cases hname : pod = podName (n + 1)
    · subst hname
      rw [VpcPool.assign, AList.lookup_insert, Option.some_inj] at hpod
      subst hpod
      exact ⟨n + 1, le_rfl, rfl, congrArg (· + UInt32.ofNat (n + 1)) h.baseIp⟩
    · rw [VpcPool.assign, AList.lookup_insert_ne hname] at hpod
      obtain ⟨i, hi, hrest⟩ := h.offsets pod alloc hpod
      exact ⟨i, Nat.le_succ_of_le hi, hrest⟩
  · intro _
    refine ⟨_, AList.lookup_insert pool.allocations, ?_⟩
    exact congrArg (· + UInt32.ofNat (n + 1)) h.baseIp

theorem filled_run {fresh : VpcPool} (hfresh : VpcPool.new vpc = .ok fresh)
    (hempty : fresh.nextOffset = 1 ∧ fresh.allocations = ∅) :
    ∀ {n : ℕ}, n ≤ fresh.maxHosts.toNat →
      ∃ pool, Filled vpc fresh n
        (run (step platformPrefix clusterId vpc) (boot platformPrefix clusterId vpc {}) (fill n))
        pool := by
  intro n
  induction n with
  | zero =>
      intro _
      refine ⟨fresh, ?_, rfl, rfl, hempty.1, ?_, fun h => absurd rfl h⟩
      · have hboot : (boot platformPrefix clusterId vpc {}).allocator =
            (GhostAllocator.new platformPrefix clusterId).resetPool vpc := rfl
        show (boot platformPrefix clusterId vpc {}).allocator.pools.lookup vpc.name = _
        rw [hboot, GhostAllocator.resetPool, hfresh]
        exact AList.lookup_insert _
      · intro pod alloc hpod
        rw [hempty.2] at hpod
        cases hpod
  | succ n ih =>
      intro hn
      obtain ⟨pool, hpool⟩ := ih (Nat.le_of_succ_le hn)
      have hsplit : fill (n + 1) = fill n ++ [.allocate (podName (n + 1)) (.ok ())] := by
        simp [fill, List.range_succ]
      rw [hsplit, run_append]
      exact hpool.next platformPrefix clusterId hn

/-- A CIDR with host bits: some offset of a full pool is the broadcast address, or, where
all host bits are set, the first one lies behind the network. -/
theorem exists_offset_not_host {vpc : Vpc} {ip : Ipv4Addr} {p : ℕ}
    (htext : CidrText vpc.ipv4Cidr ip p) (hp : p ≤ 30) (hpos : 1 ≤ p)
    (hbits : ¬ 2 ^ (32 - p) ∣ ip.bits.toNat) :
    ∃ n, n ≠ 0 ∧ n ≤ 2 ^ (32 - p) - 2 ∧
      ¬ IsHostOf vpc.ipv4Cidr (ip.bits + UInt32.ofNat n) := by
  have hp32 : p ≤ 32 := hp.trans (by norm_num)
  have henforcer := htext.enforcer hp32
  have hlt := ip.bits.toNat_lt
  have hwhole : 2 ^ 32 = 2 ^ (32 - p) * 2 ^ p := by
    rw [← pow_add, Nat.sub_add_cancel hp32]
  have hsize : 4 ≤ 2 ^ (32 - p) :=
    (Nat.pow_le_pow_right (by norm_num) (by omega) : 2 ^ 2 ≤ 2 ^ (32 - p))
  have hhalf : 2 ^ (32 - p) < 2 ^ 32 := Nat.pow_lt_pow_right (by norm_num) (by omega)
  have hmod := Nat.mod_lt ip.bits.toNat (show 0 < 2 ^ (32 - p) by omega)
  have hdiv := Nat.div_add_mod ip.bits.toNat (2 ^ (32 - p))
  have hrest : ip.bits.toNat % 2 ^ (32 - p) ≠ 0 := fun h => hbits (Nat.dvd_of_mod_eq_zero h)
  have hend : 2 ^ (32 - p) * (ip.bits.toNat / 2 ^ (32 - p)) + 2 ^ (32 - p) ≤ 2 ^ 32 := by
    rw [hwhole, ← Nat.mul_succ]
    exact Nat.mul_le_mul_left _ (Nat.div_lt_of_lt_mul (hwhole ▸ hlt))
  generalize hq : ip.bits.toNat / 2 ^ (32 - p) = q at hdiv hend
  by_cases hones : ip.bits.toNat % 2 ^ (32 - p) + 1 = 2 ^ (32 - p)
  · -- the next address is outside, or wraps around to zero
    refine ⟨1, one_ne_zero, by omega, fun h => ?_⟩
    have hinside := congrArg UInt32.toNat (h _ _ henforcer).1
    rw [toNat_and_netmask _ hp32, toNat_and_netmask _ hp32, hq, UInt32.toNat_add] at hinside
    have hnext : ip.bits.toNat + 1 = 2 ^ (32 - p) * (q + 1) := by
      rw [Nat.mul_succ]
      omega
    have hone : (UInt32.ofNat 1).toNat = 1 := rfl
    rw [hone, hnext] at hinside
    by_cases hwrap : 2 ^ (32 - p) * (q + 1) < 2 ^ 32
    · rw [Nat.mod_eq_of_lt hwrap, Nat.mul_div_cancel_left _ (by omega)] at hinside
      have := Nat.eq_of_mul_eq_mul_left (by omega) hinside
      omega
    · have hfull : 2 ^ (32 - p) * (q + 1) = 2 ^ 32 := by
        rw [Nat.mul_succ] at hwrap ⊢
        omega
      rw [hfull, Nat.mod_self, Nat.zero_div, Nat.mul_zero] at hinside
      rw [Nat.mul_succ, ← hinside] at hfull
      omega
  · -- the last address of the network is handed out
    refine ⟨2 ^ (32 - p) - 1 - ip.bits.toNat % 2 ^ (32 - p), by omega, by omega, fun h => ?_⟩
    refine (h _ _ henforcer).2.2 (UInt32.toNat_inj.mp ?_)
    have hoffset : (UInt32.ofNat (2 ^ (32 - p) - 1 - ip.bits.toNat % 2 ^ (32 - p))).toNat =
        2 ^ (32 - p) - 1 - ip.bits.toNat % 2 ^ (32 - p) :=
      UInt32.toNat_ofNat_of_lt' (show _ < 2 ^ 32 by omega)
    rw [toNat_broadcast _ hp32, hq, UInt32.toNat_add, hoffset, Nat.mod_eq_of_lt (by omega)]
    omega

end Fill

/-! ## Containment -/

/-- The network of the server's reading is the address itself when there are no host bits. -/
theorem aligned_iff {ip : UInt32} {p : ℕ} (hp : p ≤ 32) :
    ip = ip &&& Server.netmask p ↔ 2 ^ (32 - p) ∣ ip.toNat := by
  rw [← UInt32.toNat_inj, toNat_and_netmask _ hp, Nat.dvd_iff_div_mul_eq, mul_comm]
  exact eq_comm

/-- **Address containment.**  For a CIDR that server and allocator both accept, arithmetic is
exact and addresses stay inside the VPC, in every run of its pool, exactly when the prefix
length is not zero and the address in the CIDR is the network the server reads. -/
theorem containment_iff {platformPrefix clusterId : UInt32} {vpc : Vpc} {net baseIp : UInt32}
    {prefixLen : ℕ} {len : UInt8} (hserver : Server.parseCidr vpc.ipv4Cidr = some (net, prefixLen))
    (halloc : Allocator.parseCidr vpc.ipv4Cidr = .ok (baseIp, len)) :
    Contained platformPrefix clusterId vpc ↔ 1 ≤ prefixLen ∧ baseIp = net := by
  obtain ⟨ip, htext, hle, rfl⟩ := cidrText_of_parseCidr hserver
  have hparse := htext.allocator hle
  have hp : prefixLen ≤ 30 := by
    by_contra hlt
    rw [if_neg hlt, halloc] at hparse
    cases hparse
  rw [if_pos hp] at hparse
  obtain rfl : baseIp = ip.bits := by
    rw [hparse] at halloc
    cases halloc
    rfl
  rw [aligned_iff hle]
  constructor
  · rintro ⟨hcount, hruns⟩
    have hpos := (exactMaxHosts_iff htext hp).mp hcount
    refine ⟨hpos, ?_⟩
    by_contra hbits
    -- fill the pool up to the offset that is no host
    obtain ⟨n, hn, hmax, hnot⟩ := exists_offset_not_host htext hp hpos hbits
    have hnew := VpcPool.new_eq hparse
    have hhosts := hcount _ _ _ hparse hnew
    have hlen : (UInt8.ofNat prefixLen).toNat = prefixLen := by
      rw [UInt8.toNat_ofNat']
      exact Nat.mod_eq_of_lt (by omega)
    rw [hlen] at hhosts
    obtain ⟨pool, hpool⟩ := @filled_run platformPrefix clusterId vpc _ hnew ⟨rfl, rfl⟩ n
      (hhosts ▸ hmax)
    obtain ⟨alloc, hpod, hguest⟩ := hpool.last hn
    refine hnot ?_
    rw [← hguest]
    exact (hruns (fill n)).2 _ (List.prefix_refl _) pool hpool.lookup _ alloc hpod
  · rintro ⟨hpos, hdvd⟩
    have hsound := sound_of_aligned htext hp hpos hdvd
    have hboot : Inv vpc ip.bits (2 ^ (32 - prefixLen)) (boot platformPrefix clusterId vpc {}) :=
      hsound.boot (by simp [VpcStore.loadAllAllocations, EmptyCollection.emptyCollection])
    refine ⟨(exactMaxHosts_iff htext hp).mpr hpos, fun ops => ⟨?_, ?_⟩⟩
    · exact Admitted.mono (Inv vpc ip.bits _) (fun st op _ hst => hsound.step hst op)
        (fun st op hst _ => hsound.exactStep hst op) hboot (admitted_true _ _ ops)
    · have hinv := along_of_admitted (Inv vpc ip.bits _) (fun st op _ hst => hsound.step hst op)
        hboot (admitted_true (step platformPrefix clusterId vpc) _ ops)
      refine hinv.mono fun st hst pool hpool pod alloc hpod => ?_
      obtain ⟨offset, hzero, hlast, hguest⟩ := (hst.pool pool hpool).hosts pod alloc hpod
      exact isHostOf_add htext hp hdvd hguest hzero hlast

/-- A VPC whose CIDR is given as text. -/
def vpcOf (ipv4Cidr : String) : Vpc where
  name := "blue"
  vpcId := 2
  ipv4Cidr := ipv4Cidr
  status := .active

/-- A CIDR as it is usually written. -/
theorem containment_iff_aligned :
    Contained 0xfd000000 1 (vpcOf "10.0.0.0/24") ↔
      1 ≤ 24 ∧ (0x0a000000 : UInt32) = 0x0a000000 := by
  have halloc : Allocator.parseCidr (vpcOf "10.0.0.0/24").ipv4Cidr = .ok (0x0a000000, 24) := by
    decide
  exact containment_iff (by decide) halloc

/-- With host bits in the CIDR the pool hands out an address of the next network. -/
theorem containment_fails_host_bits :
    Server.parseCidr (vpcOf "10.0.0.255/24").ipv4Cidr = some (0x0a000000, 24) ∧
      Allocator.parseCidr (vpcOf "10.0.0.255/24").ipv4Cidr = .ok (0x0a0000ff, 24) ∧
      ¬ Contained 0xfd000000 1 (vpcOf "10.0.0.255/24") := by
  refine ⟨by decide, by decide, ?_⟩
  rintro ⟨-, hruns⟩
  have hinside := (hruns [.allocate "web" (.ok ())]).2 _ (List.prefix_refl _)
  have hgiven : (((run (step 0xfd000000 1 (vpcOf "10.0.0.255/24"))
      (boot 0xfd000000 1 (vpcOf "10.0.0.255/24") {})
      [.allocate "web" (.ok ())]).allocator.pools.lookup (vpcOf "10.0.0.255/24").name).bind
        fun pool => pool.allocations.lookup "web").map (·.guestIpv4.bits) = some 0x0a000100 := by
    decide
  obtain ⟨alloc, hlookup, hguest⟩ := Option.map_eq_some_iff.mp hgiven
  obtain ⟨pool, hpool, hpod⟩ := Option.bind_eq_some_iff.mp hlookup
  have henforcer : EbpfEnforcer.parseCidr (vpcOf "10.0.0.255/24").ipv4Cidr =
      .ok (0x0a0000ff, 0xffffff00) := by
    decide
  have hnet := (hinside pool hpool "web" alloc hpod _ _ henforcer).1
  rw [hguest] at hnet
  revert hnet
  decide

end PoolState

end K3rs
