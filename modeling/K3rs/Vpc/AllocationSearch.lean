import K3rs.Vpc.Allocator

/-!
# The allocation search

The loop of `allocate` keeps a cursor and a number of tries.  The cursor may stand anywhere, also
behind the last host after a rebuild; before each probe it is put back to 1 if it is not a host
offset.  `Probes` is that loop as the source has it, with both counters; `searchOffset` is the same
with the number of tries that are left.

From the first host offset on, the cursor goes round `1 ..= max_hosts` (`cursor_eq`), and
`max_hosts` tries are one full round.  So the search fails only if every offset is taken
(`searchOffset_eq_none_iff`).

* `allocate_searches`: what `allocate` does on a pool with distinct offsets.
-/

namespace K3rs

open Net Tables

/-! ## The loop -/

/-- The offset that is probed when the cursor stands at `offset`. -/
def hostOffset (maxHosts offset : UInt32) : UInt32 :=
  if offset < 1 ∨ offset > maxHosts then 1 else offset

/-- The loop of `allocate` from a cursor and a number of tries: its result, and how many occupied
offsets it has probed. -/
inductive Probes (taken : List UInt32) (maxHosts : UInt32) :
    (offset tried : UInt32) → Option UInt32 → ℕ → Prop where
  | exhausted (offset tried : UInt32) (htried : ¬tried < maxHosts) :
      Probes taken maxHosts offset tried none 0
  | free (offset tried : UInt32) (htried : tried < maxHosts)
      (hfree : hostOffset maxHosts offset ∉ taken) :
      Probes taken maxHosts offset tried (some (hostOffset maxHosts offset)) 0
  | occupied (offset tried : UInt32) (result : Option UInt32) (n : ℕ) (htried : tried < maxHosts)
      (htaken : hostOffset maxHosts offset ∈ taken)
      (hrest : Probes taken maxHosts (hostOffset maxHosts offset + 1) (tried + 1) result n) :
      Probes taken maxHosts offset tried result (n + 1)

section Search

variable {taken : List UInt32} {maxHosts : UInt32}

theorem searchOffset_succ (left : ℕ) (offset : UInt32) :
    searchOffset taken maxHosts (left + 1) offset =
      if hostOffset maxHosts offset ∈ taken then
        searchOffset taken maxHosts left (hostOffset maxHosts offset + 1)
      else some (hostOffset maxHosts offset) := rfl

/-- **The loop ends**, after at most as many occupied offsets as there are tries left, with what
`searchOffset` finds. -/
theorem exists_probes : ∀ (left : ℕ) (offset tried : UInt32),
    tried.toNat + left = maxHosts.toNat →
      ∃ n ≤ left, Probes taken maxHosts offset tried (searchOffset taken maxHosts left offset) n := by
  intro left
  induction left with
  | zero =>
      intro offset tried h
      refine ⟨0, le_rfl, .exhausted offset tried ?_⟩
      rw [UInt32.lt_iff_toNat_lt]
      omega
  | succ left ih =>
      intro offset tried h
      have htried : tried < maxHosts := by
        rw [UInt32.lt_iff_toNat_lt]
        omega
      have hnext : (tried + 1).toNat = tried.toNat + 1 := by
        rw [UInt32.toNat_add]
        exact Nat.mod_eq_of_lt (by have := maxHosts.toNat_lt; simp; omega)
      rw [searchOffset_succ]
      split_ifs with htaken
      · obtain ⟨n, hn, hrest⟩ := ih (hostOffset maxHosts offset + 1) (tried + 1)
          (by rw [hnext]; omega)
        exact ⟨n + 1, Nat.succ_le_succ hn, .occupied offset tried _ n htried htaken hrest⟩
      · exact ⟨0, Nat.zero_le _, .free offset tried htried htaken⟩

/-- It has one result. -/
theorem Probes.unique {offset tried : UInt32} {result result' : Option UInt32} {n n' : ℕ}
    (h : Probes taken maxHosts offset tried result n)
    (h' : Probes taken maxHosts offset tried result' n') : result = result' ∧ n = n' := by
  induction h generalizing result' n' with
  | exhausted offset tried htried =>
      cases h' with
      | exhausted => exact ⟨rfl, rfl⟩
      | free _ _ htried' => exact absurd htried' htried
      | occupied _ _ _ _ htried' => exact absurd htried' htried
  | free offset tried htried hfree =>
      cases h' with
      | exhausted _ _ htried' => exact absurd htried htried'
      | free => exact ⟨rfl, rfl⟩
      | occupied _ _ _ _ _ htaken' => exact absurd htaken' hfree
  | occupied offset tried result n htried htaken hrest ih =>
      cases h' with
      | exhausted _ _ htried' => exact absurd htried htried'
      | free _ _ _ hfree' => exact absurd htaken hfree'
      | occupied _ _ _ n' _ _ hrest' =>
          obtain ⟨rfl, rfl⟩ := ih hrest'
          exact ⟨rfl, rfl⟩

/-! ## The round -/

theorem hostOffset_range (hmax : 1 ≤ maxHosts.toNat) (offset : UInt32) :
    1 ≤ (hostOffset maxHosts offset).toNat ∧
      (hostOffset maxHosts offset).toNat ≤ maxHosts.toNat := by
  rw [hostOffset]
  split_ifs with hout
  · exact ⟨le_rfl, hmax⟩
  · obtain ⟨hlo, hhi⟩ := not_or.mp hout
    exact ⟨UInt32.le_iff_toNat_le.mp (UInt32.not_lt.mp hlo),
      UInt32.le_iff_toNat_le.mp (UInt32.not_lt.mp hhi)⟩

/-- Behind the last host comes the first one, also where the cursor wraps. -/
theorem hostOffset_succ (hmax : 1 ≤ maxHosts.toNat) {offset : UInt32} (hlo : 1 ≤ offset.toNat)
    (hhi : offset.toNat ≤ maxHosts.toNat) :
    (hostOffset maxHosts (offset + 1)).toNat - 1 = (offset.toNat - 1 + 1) % maxHosts.toNat := by
  have hsize := maxHosts.toNat_lt
  have hone : (1 : UInt32).toNat = 1 := rfl
  have hnext : (offset + 1).toNat = (offset.toNat + 1) % 2 ^ 32 := UInt32.toNat_add _ _
  rw [hostOffset]
  by_cases hlast : offset.toNat = maxHosts.toNat
  · have hout : offset + 1 < 1 ∨ offset + 1 > maxHosts := by
      rw [gt_iff_lt, UInt32.lt_iff_toNat_lt, UInt32.lt_iff_toNat_lt, hnext, hone]
      omega
    rw [if_pos hout, hone, hlast, Nat.sub_add_cancel hmax, Nat.mod_self]
  · have hin : ¬(offset + 1 < 1 ∨ offset + 1 > maxHosts) := by
      rw [gt_iff_lt, UInt32.lt_iff_toNat_lt, UInt32.lt_iff_toNat_lt, hnext, hone]
      omega
    rw [if_neg hin, hnext, Nat.mod_eq_of_lt (show offset.toNat - 1 + 1 < maxHosts.toNat by omega),
      Nat.mod_eq_of_lt (by omega)]
    omega

/-- Where the cursor stands after some occupied probes. -/
def cursor (maxHosts : UInt32) : ℕ → UInt32 → UInt32
  | 0, offset => hostOffset maxHosts offset
  | k + 1, offset => cursor maxHosts k (hostOffset maxHosts offset + 1)

/-- **The cursor goes round.** -/
theorem cursor_eq (hmax : 1 ≤ maxHosts.toNat) : ∀ (k : ℕ) (offset : UInt32),
    (cursor maxHosts k offset).toNat =
      ((hostOffset maxHosts offset).toNat - 1 + k) % maxHosts.toNat + 1 := by
  intro k
  induction k with
  | zero =>
      intro offset
      obtain ⟨hlo, hhi⟩ := hostOffset_range hmax offset
      rw [cursor, Nat.add_zero, Nat.mod_eq_of_lt (by omega)]
      omega
  | succ k ih =>
      intro offset
      obtain ⟨hlo, hhi⟩ := hostOffset_range hmax offset
      rw [cursor, ih, hostOffset_succ hmax hlo hhi, Nat.mod_add_mod, Nat.add_right_comm, Nat.add_assoc]

/-- A failed search has found every offset taken that its cursor has stood on. -/
theorem cursor_mem_of_none : ∀ {left : ℕ} {offset : UInt32},
    searchOffset taken maxHosts left offset = none →
      ∀ k < left, cursor maxHosts k offset ∈ taken := by
  intro left
  induction left with
  | zero => exact fun _ k hk => absurd hk (Nat.not_lt_zero k)
  | succ left ih =>
      intro offset h k hk
      rw [searchOffset_succ] at h
      split_ifs at h with htaken
      cases k with
      | zero => exact htaken
      | succ k => exact ih h k (Nat.lt_of_succ_lt_succ hk)

/-- **The search is complete**: it fails exactly if every host offset is taken. -/
theorem searchOffset_eq_none_iff {offset : UInt32} :
    searchOffset taken maxHosts maxHosts.toNat offset = none ↔
      ∀ o : UInt32, 1 ≤ o.toNat → o.toNat ≤ maxHosts.toNat → o ∈ taken := by
  constructor
  · intro h o hlo hhi
    have hmax : 1 ≤ maxHosts.toNat := hlo.trans hhi
    obtain ⟨hstart, hstart'⟩ := hostOffset_range hmax offset
    -- the distance from the start to the offset, once round
    have hreach : ∃ k < maxHosts.toNat, cursor maxHosts k offset = o := by
      refine ⟨(o.toNat - 1 + (maxHosts.toNat - ((hostOffset maxHosts offset).toNat - 1))) %
        maxHosts.toNat, Nat.mod_lt _ hmax, ?_⟩
      rw [← UInt32.toNat_inj, cursor_eq hmax, Nat.add_mod_mod]
      have hround : (hostOffset maxHosts offset).toNat - 1 +
          (o.toNat - 1 + (maxHosts.toNat - ((hostOffset maxHosts offset).toNat - 1))) =
            o.toNat - 1 + maxHosts.toNat := by omega
      rw [hround, Nat.add_mod_right, Nat.mod_eq_of_lt (by omega)]
      omega
    obtain ⟨k, hk, rfl⟩ := hreach
    exact cursor_mem_of_none h k hk
  · intro hall
    by_contra hfound
    obtain ⟨o, ho⟩ := Option.ne_none_iff_exists'.mp hfound
    have hmax : 1 ≤ maxHosts := by
      rw [UInt32.le_iff_toNat_le]
      by_contra hzero
      have hleft : maxHosts.toNat = 0 := by
        have hone : (1 : UInt32).toNat = 1 := rfl
        omega
      rw [hleft] at ho
      cases ho
    obtain ⟨hlo, hhi⟩ := searchOffset_range hmax ho
    exact searchOffset_spec ho (hall o (UInt32.le_iff_toNat_le.mp hlo) (UInt32.le_iff_toNat_le.mp hhi))

end Search

/-! ## Pools -/

namespace VpcPool

/-- Some pod has the address at the offset. -/
def Occupied (pool : VpcPool) (offset : ℕ) : Prop :=
  ∃ podId alloc, pool.allocations.lookup podId = some alloc ∧
    alloc.guestIpv4.bits.toNat = pool.baseIp.toNat + offset

/-- The addresses of a pool do not wrap, and its pods are at distinct host offsets. -/
structure Distinct (pool : VpcPool) : Prop where
  fits : pool.baseIp.toNat + pool.maxHosts.toNat < 2 ^ 32
  within : ∀ podId alloc, pool.allocations.lookup podId = some alloc →
    ∃ offset, 1 ≤ offset ∧ offset ≤ pool.maxHosts.toNat ∧
      alloc.guestIpv4.bits.toNat = pool.baseIp.toNat + offset
  distinct : ∀ podId podId' alloc alloc', pool.allocations.lookup podId = some alloc →
    pool.allocations.lookup podId' = some alloc' → alloc.guestIpv4 = alloc'.guestIpv4 →
      podId = podId'

variable {pool : VpcPool}

/-- An offset is on the list of the loop exactly if its address is somebody's. -/
theorem Distinct.mem_allocatedOffsets (h : pool.Distinct) {o : UInt32}
    (ho : o.toNat ≤ pool.maxHosts.toNat) :
    o ∈ pool.allocatedOffsets ↔ pool.Occupied o.toNat := by
  have hfits := h.fits
  rw [allocatedOffsets, List.mem_map]
  constructor
  · rintro ⟨⟨podId, alloc⟩, hmem, heq⟩
    refine ⟨podId, alloc, AList.mem_lookup_iff.mpr hmem, ?_⟩
    have hbits : alloc.guestIpv4.bits = o + pool.baseIp := by
      rw [← heq, UInt32.sub_add_cancel]
    rw [hbits, UInt32.toNat_add, Nat.mod_eq_of_lt (by omega), Nat.add_comm]
  · rintro ⟨podId, alloc, hpod, hbits⟩
    refine ⟨⟨podId, alloc⟩, AList.mem_lookup_iff.mp hpod, ?_⟩
    have hle : pool.baseIp ≤ alloc.guestIpv4.bits := by
      rw [UInt32.le_iff_toNat_le]
      omega
    rw [← UInt32.toNat_inj, UInt32.toNat_sub_of_le _ _ hle, hbits, Nat.add_sub_cancel_left]

/-- The search fails exactly if no host offset is free. -/
theorem Distinct.findOffset_eq_none_iff (h : pool.Distinct) :
    pool.findOffset = none ↔
      ∀ offset, 1 ≤ offset → offset ≤ pool.maxHosts.toNat → pool.Occupied offset := by
  have hfits := h.fits
  rw [findOffset, searchOffset_eq_none_iff]
  constructor
  · intro hall offset hlo hhi
    have hoffset : (UInt32.ofNat offset).toNat = offset :=
      UInt32.toNat_ofNat_of_lt' (show offset < 2 ^ 32 by omega)
    have hmem := hall (UInt32.ofNat offset) (by rw [hoffset]; exact hlo) (by rw [hoffset]; exact hhi)
    rw [h.mem_allocatedOffsets (by rw [hoffset]; exact hhi), hoffset] at hmem
    exact hmem
  · exact fun hall o hlo hhi => (h.mem_allocatedOffsets hhi).mpr (hall o.toNat hlo hhi)

/-- What the search finds is a free host offset. -/
theorem Distinct.findOffset_eq_some (h : pool.Distinct) {offset : UInt32}
    (hfind : pool.findOffset = some offset) :
    1 ≤ offset.toNat ∧ offset.toNat ≤ pool.maxHosts.toNat ∧ ¬pool.Occupied offset.toNat := by
  have hmax : 1 ≤ pool.maxHosts := by
    rw [UInt32.le_iff_toNat_le]
    by_contra hzero
    have hleft : pool.maxHosts.toNat = 0 := by
      have hone : (1 : UInt32).toNat = 1 := rfl
      omega
    rw [findOffset, hleft] at hfind
    cases hfind
  obtain ⟨hlo, hhi⟩ := searchOffset_range hmax hfind
  have hhi' := UInt32.le_iff_toNat_le.mp hhi
  refine ⟨UInt32.le_iff_toNat_le.mp hlo, hhi', fun hoccupied => ?_⟩
  exact searchOffset_spec hfind ((h.mem_allocatedOffsets hhi').mpr hoccupied)

/-- A pod at a free offset keeps the offsets distinct. -/
theorem Distinct.assign (h : pool.Distinct) {offset : UInt32} {podId : String} {alloc : Allocation}
    (hlo : 1 ≤ offset.toNat) (hhi : offset.toNat ≤ pool.maxHosts.toNat)
    (hfree : ¬pool.Occupied offset.toNat)
    (halloc : alloc.guestIpv4.bits.toNat = pool.baseIp.toNat + offset.toNat) :
    (pool.assign podId offset alloc).Distinct := by
  have hlookup : ∀ {podId' alloc'}, (pool.assign podId offset alloc).allocations.lookup podId' =
      some alloc' → podId' = podId ∧ alloc' = alloc ∨
        podId' ≠ podId ∧ pool.allocations.lookup podId' = some alloc' := by
    intro podId' alloc' hpod
    by_cases heq : podId' = podId
    · subst heq
      exact Or.inl ⟨rfl, (Option.some_inj.mp ((AList.lookup_insert _).symm.trans hpod)).symm⟩
    · exact Or.inr ⟨heq, (AList.lookup_insert_ne heq).symm.trans hpod⟩
  have hfresh : ∀ {podId' alloc'}, pool.allocations.lookup podId' = some alloc' →
      alloc'.guestIpv4 ≠ alloc.guestIpv4 := by
    intro podId' alloc' hpod heq
    exact hfree ⟨podId', alloc', hpod, heq ▸ halloc⟩
  refine ⟨h.fits, fun podId' alloc' hpod => ?_, fun p q a b hp hq hsame => ?_⟩
  · rcases hlookup hpod with ⟨-, rfl⟩ | ⟨-, hold⟩
    · exact ⟨offset.toNat, hlo, hhi, halloc⟩
    · exact h.within podId' alloc' hold
  · rcases hlookup hp with ⟨rfl, rfl⟩ | ⟨-, hp'⟩ <;> rcases hlookup hq with ⟨rfl, rfl⟩ | ⟨-, hq'⟩
    · rfl
    · exact absurd hsame.symm (hfresh hq')
    · exact absurd hsame (hfresh hp')
    · exact h.distinct p q a b hp' hq' hsame

end VpcPool

/-! ## Allocations -/

namespace GhostAllocator

/-- What a successful call with a new address leaves: the pod at a free host offset, and every
other pod and pool as it was. -/
structure Allocated (a : GhostAllocator) (pool : VpcPool) (podId vpcName : String)
    (r : AllocateResult) (a' : GhostAllocator) : Prop where
  offset : ∃ offset, 1 ≤ offset ∧ offset ≤ pool.maxHosts.toNat ∧ ¬pool.Occupied offset ∧
    r.guestIpv4.bits.toNat = pool.baseIp.toNat + offset
  pool : ∃ pool', a'.pools.lookup vpcName = some pool' ∧ pool'.Distinct ∧
    pool'.allocations.lookup podId = some r.allocation ∧
    ∀ other, other ≠ podId → pool'.allocations.lookup other = pool.allocations.lookup other
  others : ∀ name, name ≠ vpcName → a'.pools.lookup name = a.pools.lookup name

variable {a : GhostAllocator} {store : VpcStore} {podId vpcName : String} {pool : VpcPool}

theorem allocate_existing (hpool : a.pools.lookup vpcName = some pool) {existing : Allocation}
    (hpod : pool.allocations.lookup podId = some existing) (io : Except String Unit) :
    a.allocate store io podId vpcName =
      (.ok ⟨existing.guestIpv4, existing.ghostIpv6, pool.vpcId, pool.cidr⟩, a, store) := by
  simp only [allocate, hpool, hpod]

theorem allocate_exhausted (hpool : a.pools.lookup vpcName = some pool)
    (hpod : pool.allocations.lookup podId = none) (hfind : pool.findOffset = none)
    (io : Except String Unit) :
    a.allocate store io podId vpcName =
      (.error ("VPC '" ++ vpcName ++ "' pool exhausted"), a, store) := by
  simp only [allocate, hpool, hpod, hfind]

theorem allocate_new (hpool : a.pools.lookup vpcName = some pool)
    (hpod : pool.allocations.lookup podId = none) {offset : UInt32}
    (hfind : pool.findOffset = some offset) :
    a.allocate store (.ok ()) podId vpcName =
      (.ok ⟨(a.allocationAt pool offset).guestIpv4, (a.allocationAt pool offset).ghostIpv6,
          pool.vpcId, pool.cidr⟩,
        { a with
          pools := a.pools.insert vpcName
            (pool.assign podId offset (a.allocationAt pool offset)) },
        store.saveAllocation (recordOf podId vpcName pool (a.allocationAt pool offset))) := by
  simp only [allocate, hpool, hpod, hfind]
  rfl

/-- **The search is sound and complete.**  With a working store, `allocate` repeats the address of
a pod that has one; otherwise it succeeds exactly if some host offset is free, the pod then has
such an offset and nothing else has changed, and the loop ends after at most `max_hosts` occupied
probes. -/
theorem allocate_searches (hpool : a.pools.lookup vpcName = some pool) (hdistinct : pool.Distinct) :
    (∀ existing, pool.allocations.lookup podId = some existing →
        a.allocate store (.ok ()) podId vpcName =
          (.ok ⟨existing.guestIpv4, existing.ghostIpv6, pool.vpcId, pool.cidr⟩, a, store)) ∧
      (pool.allocations.lookup podId = none →
        ((∃ r, (a.allocate store (.ok ()) podId vpcName).1 = .ok r) ↔
            ∃ offset, 1 ≤ offset ∧ offset ≤ pool.maxHosts.toNat ∧ ¬pool.Occupied offset) ∧
          (∀ r, (a.allocate store (.ok ()) podId vpcName).1 = .ok r →
            Allocated a pool podId vpcName r (a.allocate store (.ok ()) podId vpcName).2.1) ∧
          (∀ e, (a.allocate store (.ok ()) podId vpcName).1 = .error e →
            (a.allocate store (.ok ()) podId vpcName).2 = (a, store))) ∧
      ∃ n ≤ pool.maxHosts.toNat, ∀ result m,
        Probes pool.allocatedOffsets pool.maxHosts pool.nextOffset 0 result m ↔
          result = pool.findOffset ∧ m = n := by
  refine ⟨fun existing hpod => allocate_existing hpool hpod _, fun hpod => ?_, ?_⟩
  · cases hfind : pool.findOffset with
    | none =>
        rw [allocate_exhausted hpool hpod hfind]
        refine ⟨iff_of_false ?_ ?_, fun r hr => ?_, fun e _ => rfl⟩
        · rintro ⟨r, hr⟩
          cases hr
        · rintro ⟨offset, hlo, hhi, hfree⟩
          exact hfree (hdistinct.findOffset_eq_none_iff.mp hfind offset hlo hhi)
        · cases hr
    | some offset =>
        obtain ⟨hlo, hhi, hfree⟩ := hdistinct.findOffset_eq_some hfind
        have hbits : (pool.baseIp + offset).toNat = pool.baseIp.toNat + offset.toNat := by
          rw [UInt32.toNat_add]
          exact Nat.mod_eq_of_lt (by have := hdistinct.fits; omega)
        rw [allocate_new hpool hpod hfind]
        refine ⟨iff_of_true ⟨_, rfl⟩ ⟨offset.toNat, hlo, hhi, hfree⟩, fun r hr => ?_, fun e he => ?_⟩
        · cases hr
          refine ⟨⟨offset.toNat, hlo, hhi, hfree, hbits⟩, ⟨_, AList.lookup_insert _,
            hdistinct.assign hlo hhi hfree hbits, AList.lookup_insert _,
            fun other hne => AList.lookup_insert_ne hne⟩, fun name hne => AList.lookup_insert_ne hne⟩
        · cases he
  · have hstart : (0 : UInt32).toNat + pool.maxHosts.toNat = pool.maxHosts.toNat := Nat.zero_add _
    obtain ⟨n, hn, hprobes⟩ := @exists_probes pool.allocatedOffsets pool.maxHosts
      pool.maxHosts.toNat pool.nextOffset 0 hstart
    refine ⟨n, hn, fun result m => ⟨fun h => h.unique hprobes, ?_⟩⟩
    rintro ⟨rfl, rfl⟩
    exact hprobes

/-- Two host offsets, of which the first is taken, and a cursor behind the last one. -/
def nearlyFullPool : VpcPool where
  vpcId := 1
  cidr := "10.0.0.0/30"
  baseIp := 0x0a000000
  maxHosts := 2
  nextOffset := 7
  allocations := AList.insert "web" ⟨⟨0x0a000001⟩, construct 0 0 1 ⟨0x0a000001⟩⟩ ∅

theorem nearlyFullPool_distinct : nearlyFullPool.Distinct := by
  have hlookup : ∀ {podId alloc}, nearlyFullPool.allocations.lookup podId = some alloc →
      podId = "web" ∧ alloc = ⟨⟨0x0a000001⟩, construct 0 0 1 ⟨0x0a000001⟩⟩ := by
    intro podId alloc hpod
    by_cases heq : podId = "web"
    · subst heq
      exact ⟨rfl, (Option.some_inj.mp ((AList.lookup_insert _).symm.trans hpod)).symm⟩
    · have hempty := (AList.lookup_insert_ne heq).symm.trans hpod
      rw [AList.lookup_empty] at hempty
      cases hempty
  refine ⟨by decide, fun podId alloc hpod => ?_, fun p q x y hp hq _ => ?_⟩
  · obtain ⟨-, rfl⟩ := hlookup hpod
    exact ⟨1, by decide, by decide, by decide⟩
  · exact (hlookup hp).1.trans (hlookup hq).1.symm

/-- The other offset is found from there. -/
theorem allocate_searches_nearlyFull :
    nearlyFullPool.Distinct ∧
      ((∃ r, (allocate ⟨0, 0, AList.insert "blue" nearlyFullPool ∅⟩ {} (.ok ()) "db" "blue").1 =
          .ok r) ↔
        ∃ offset, 1 ≤ offset ∧ offset ≤ nearlyFullPool.maxHosts.toNat ∧
          ¬nearlyFullPool.Occupied offset) :=
  ⟨nearlyFullPool_distinct,
    ((allocate_searches (AList.lookup_insert _) nearlyFullPool_distinct).2.1 (by decide)).1⟩

end GhostAllocator

end K3rs
