import K3rs.Lib.KeyValue

/-!
# Totals over a store

`total f t` adds up a weight over the pairs of a store, and a count is a total of ones.  A total
is a sum over any finite set of keys that has all keys of the store (`total_eq_sum`).  So two
totals are compared key by key, and a write changes a total by what it changes under its key.
-/

namespace KeyValue

variable {κ ν : Type*} [LinearOrder κ]

/-- The sum of a weight over the pairs of a store. -/
def total (f : κ → ν → ℕ) (t : KeyValue κ ν) : ℕ := (t.rows.map fun e => f e.1 e.2).sum

/-- The weight of what is under a key. -/
def weight (f : κ → ν → ℕ) (t : KeyValue κ ν) (k : κ) : ℕ := (t.lookup k).elim 0 (f k)

variable {f g : κ → ν → ℕ} {t t' : KeyValue κ ν} {k : κ} {v : ν}

theorem weight_of_some (h : t.lookup k = some v) : t.weight f k = f k v := by rw [weight, h]; rfl

theorem weight_of_none (h : t.lookup k = none) : t.weight f k = 0 := by rw [weight, h]; rfl

/-- A total is a sum over keys. -/
theorem total_eq_sum {K : Finset κ} (hK : ∀ k v, t.lookup k = some v → k ∈ K) :
    total f t = ∑ k ∈ K, t.weight f k := by
  have hrows : total f t = ∑ k ∈ (t.rows.map Prod.fst).toFinset, t.weight f k := by
    rw [List.sum_toFinset _ t.unique, List.map_map, total]
    refine congrArg List.sum (List.map_congr_left fun e he => ?_)
    exact (weight_of_some (lookup_eq_some.mpr he)).symm
  rw [hrows]
  refine Finset.sum_subset ?_ ?_
  · intro k hk
    obtain ⟨e, he, rfl⟩ := List.mem_map.mp (List.mem_toFinset.mp hk)
    exact hK e.1 e.2 (lookup_eq_some.mpr he)
  · intro k _ hk
    refine weight_of_none (lookup_eq_none.mpr fun v hv => hk ?_)
    exact List.mem_toFinset.mpr (List.mem_map_of_mem hv)

/-- The keys of two stores. -/
theorem exists_keys (t t' : KeyValue κ ν) : ∃ K : Finset κ,
    (∀ k v, t.lookup k = some v → k ∈ K) ∧ ∀ k v, t'.lookup k = some v → k ∈ K := by
  refine ⟨(t.rows.map Prod.fst).toFinset ∪ (t'.rows.map Prod.fst).toFinset, ?_, ?_⟩
  · intro k v h
    exact Finset.mem_union_left _ (List.mem_toFinset.mpr (List.mem_map_of_mem (lookup_eq_some.mp h)))
  · intro k v h
    exact Finset.mem_union_right _ (List.mem_toFinset.mpr (List.mem_map_of_mem (lookup_eq_some.mp h)))

/-- Totals are compared key by key. -/
theorem total_le_total (h : ∀ k, t.weight f k ≤ t'.weight g k) : total f t ≤ total g t' := by
  obtain ⟨K, ht, ht'⟩ := exists_keys t t'
  rw [total_eq_sum ht, total_eq_sum ht']
  exact Finset.sum_le_sum fun k _ => h k

/-- Two stores that differ under one key only. -/
theorem total_add_weight (h : ∀ k', k' ≠ k → t'.weight f k' = t.weight f k') :
    total f t' + t.weight f k = total f t + t'.weight f k := by
  obtain ⟨K, ht, ht'⟩ := exists_keys t t'
  have hK : ∀ {s : KeyValue κ ν}, (∀ k v, s.lookup k = some v → k ∈ K) →
      total f s = s.weight f k + ∑ k' ∈ K.erase k, s.weight f k' := by
    intro s hs
    rw [total_eq_sum fun k' v hv => Finset.mem_insert_of_mem (b := k) (hs k' v hv),
      ← Finset.add_sum_erase _ _ (Finset.mem_insert_self k K), Finset.erase_insert_eq_erase]
  have hsum : ∑ k' ∈ K.erase k, t'.weight f k' = ∑ k' ∈ K.erase k, t.weight f k' :=
    Finset.sum_congr rfl fun k' hk' => h k' (Finset.ne_of_mem_erase hk')
  rw [hK ht, hK ht', hsum]
  omega

/-- **The total after a write.** -/
theorem total_insert (f : κ → ν → ℕ) (t : KeyValue κ ν) (k : κ) (v : ν) :
    total f (t.insert k v) + t.weight f k = total f t + f k v := by
  have h : total f (t.insert k v) + t.weight f k = total f t + (t.insert k v).weight f k :=
    total_add_weight fun k' hk' => by rw [weight, lookup_insert_of_ne hk', ← weight]
  rw [weight_of_some (lookup_insert_self t k v)] at h
  exact h

/-- **The total after a removal.** -/
theorem total_erase (f : κ → ν → ℕ) (t : KeyValue κ ν) (k : κ) :
    total f (t.erase k) + t.weight f k = total f t := by
  have h : total f (t.erase k) + t.weight f k = total f t + (t.erase k).weight f k :=
    total_add_weight fun k' hk' => by rw [weight, lookup_erase_of_ne hk', ← weight]
  rw [weight_of_none (lookup_erase_self t k), add_zero] at h
  exact h

theorem total_add (f g : κ → ν → ℕ) (t : KeyValue κ ν) :
    total (fun k v => f k v + g k v) t = total f t + total g t :=
  List.sum_map_add

theorem total_eq_zero (h : ∀ k v, t.lookup k = some v → f k v = 0) : total f t = 0 := by
  refine List.sum_eq_zero fun n hn => ?_
  obtain ⟨e, he, rfl⟩ := List.mem_map.mp hn
  exact h e.1 e.2 (lookup_eq_some.mpr he)

/-! ## Counts -/

/-- The number of pairs with a property. -/
def count (p : κ → ν → Bool) (t : KeyValue κ ν) : ℕ := total (fun k v => if p k v then 1 else 0) t

/-- A filtered listing has as many entries as are counted. -/
theorem count_eq_length {μ : Type*} {p : κ → ν → Bool} {c : κ → Bool} {h : κ × ν → Option μ}
    (hsome : ∀ e ∈ t.scan c, (h e).isSome = p e.1 e.2)
    (hout : ∀ k v, t.lookup k = some v → c k = false → p k v = false) :
    ((t.scan c).filterMap h).length = t.count p := by
  have hcount : ∀ rows : List (κ × ν), (∀ e ∈ rows, e ∈ t.rows) →
      ((rows.filter fun e => c e.1).filterMap h).length =
        (rows.map fun e => if p e.1 e.2 then 1 else 0).sum := by
    intro rows
    induction rows with
    | nil => exact fun _ => rfl
    | cons e rest ih =>
        intro hrows
        have hmem := hrows e List.mem_cons_self
        have hih := ih fun e' he' => hrows e' (List.mem_cons_of_mem e he')
        rw [List.map_cons, List.sum_cons, ← hih]
        cases hc : c e.1 with
        | false =>
            rw [hout e.1 e.2 (lookup_eq_some.mpr hmem) hc, List.filter_cons_of_neg (by simp [hc])]
            simp
        | true =>
            rw [List.filter_cons_of_pos (by exact hc)]
            have he := hsome e (mem_scan.mpr ⟨lookup_eq_some.mpr hmem, hc⟩)
            cases hh : h e with
            | none => simp [hh, ← he]
            | some m => simp [hh, ← he, Nat.add_comm]
  exact hcount t.rows fun _ he => he

end KeyValue
