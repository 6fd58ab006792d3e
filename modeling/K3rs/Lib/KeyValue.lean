import K3rs.Lib.Tables

/-!
# Key-value stores

A `Table` whose records are pairs of a key and a value.  A store is determined by its lookups
(`ext_lookup`), and a scan returns the pairs whose keys satisfy a test, in key order.
-/

/-- Pairs of a key and a value in key order. -/
abbrev KeyValue (κ ν : Type*) [LinearOrder κ] := Tables.Table (Prod.fst : κ × ν → κ)

namespace KeyValue

variable {κ ν : Type*} [LinearOrder κ]

/-- The value under a key. -/
def lookup (t : KeyValue κ ν) (k : κ) : Option ν := (t.get k).map Prod.snd

/-- Put a value under a key. -/
def insert (t : KeyValue κ ν) (k : κ) (v : ν) : KeyValue κ ν := t.put (k, v)

/-- Remove a key. -/
def erase (t : KeyValue κ ν) (k : κ) : KeyValue κ ν := t.delete k

/-- The pairs whose keys satisfy a test. -/
def scan (t : KeyValue κ ν) (p : κ → Bool) : List (κ × ν) := t.rows.filter fun e => p e.1

variable {t t' : KeyValue κ ν} {k k' : κ} {v : ν} {p : κ → Bool}

theorem lookup_eq_some : t.lookup k = some v ↔ (k, v) ∈ t.rows := by
  rw [lookup, Option.map_eq_some_iff]
  constructor
  · rintro ⟨⟨k₀, v₀⟩, hget, rfl⟩
    obtain ⟨hmem, rfl⟩ := t.get_eq_some_iff.mp hget
    exact hmem
  · intro hmem
    exact ⟨(k, v), t.get_eq_some_iff.mpr ⟨hmem, rfl⟩, rfl⟩

theorem lookup_eq_none : t.lookup k = none ↔ ∀ v, (k, v) ∉ t.rows := by
  rw [Option.eq_none_iff_forall_ne_some]
  exact forall_congr' fun v => not_congr lookup_eq_some

@[simp] theorem lookup_empty : lookup (∅ : KeyValue κ ν) k = none := rfl

theorem lookup_insert (t : KeyValue κ ν) (k k' : κ) (v : ν) :
    (t.insert k v).lookup k' = if k' = k then some v else t.lookup k' := by
  apply Option.ext
  intro v'
  rw [lookup_eq_some, insert, t.mem_put, Prod.mk.injEq]
  split_ifs with hk
  · subst hk
    simp [eq_comm]
  · rw [lookup_eq_some]
    simp [hk]

@[simp] theorem lookup_insert_self (t : KeyValue κ ν) (k : κ) (v : ν) :
    (t.insert k v).lookup k = some v := by rw [lookup_insert, if_pos rfl]

theorem lookup_insert_of_ne (h : k' ≠ k) : (t.insert k v).lookup k' = t.lookup k' := by
  rw [lookup_insert, if_neg h]

theorem lookup_erase (t : KeyValue κ ν) (k k' : κ) :
    (t.erase k).lookup k' = if k' = k then none else t.lookup k' := by
  apply Option.ext
  intro v'
  rw [lookup_eq_some, erase, Tables.Table.delete, List.mem_filter, decide_eq_true_eq]
  split_ifs with hk
  · subst hk
    simp
  · rw [lookup_eq_some]
    exact and_iff_left hk

@[simp] theorem lookup_erase_self (t : KeyValue κ ν) (k : κ) : (t.erase k).lookup k = none := by
  rw [lookup_erase, if_pos rfl]

theorem lookup_erase_of_ne (h : k' ≠ k) : (t.erase k).lookup k' = t.lookup k' := by
  rw [lookup_erase, if_neg h]

/-- Pairs in key order are determined by which they are. -/
theorem eq_of_sorted {l l' : List (κ × ν)} (hl : l.Pairwise fun a b => a.1 < b.1)
    (hl' : l'.Pairwise fun a b => a.1 < b.1) (hmem : ∀ e, e ∈ l ↔ e ∈ l') : l = l' := by
  have hnodup : ∀ {l : List (κ × ν)}, l.Pairwise (fun a b => a.1 < b.1) → l.Nodup :=
    fun hl => hl.imp fun hlt heq => absurd (congrArg Prod.fst heq) hlt.ne
  refine List.Perm.eq_of_pairwise ?_ hl hl' ?_
  · intro a b _ _ hab hba
    exact absurd (hab.trans hba) (lt_irrefl _)
  · exact (List.perm_ext_iff_of_nodup (hnodup hl) (hnodup hl')).mpr hmem

/-- A store is its lookups. -/
theorem ext_lookup (h : ∀ k, t.lookup k = t'.lookup k) : t = t' := by
  obtain ⟨rows, sorted⟩ := t
  obtain ⟨rows', sorted'⟩ := t'
  have hrows : rows = rows' := by
    refine eq_of_sorted sorted sorted' ?_
    rintro ⟨k, v⟩
    have hk := h k
    constructor
    · intro hmem
      exact lookup_eq_some.mp (hk ▸ lookup_eq_some.mpr hmem)
    · intro hmem
      exact lookup_eq_some.mp (hk.symm ▸ lookup_eq_some.mpr hmem)
  subst hrows
  rfl

theorem mem_scan {e : κ × ν} : e ∈ t.scan p ↔ t.lookup e.1 = some e.2 ∧ p e.1 = true := by
  rw [scan, List.mem_filter, lookup_eq_some]

/-- A scan depends only on the keys it is about. -/
theorem scan_congr (h : ∀ k, p k = true → t.lookup k = t'.lookup k) : t.scan p = t'.scan p := by
  refine eq_of_sorted (t.sorted.sublist List.filter_sublist)
    (t'.sorted.sublist List.filter_sublist) fun e => ?_
  rw [mem_scan, mem_scan]
  exact and_congr_left fun hp => by rw [h e.1 hp]

theorem nodup_scan (t : KeyValue κ ν) (p : κ → Bool) : ((t.scan p).map Prod.fst).Nodup :=
  t.unique.sublist (List.filter_sublist.map Prod.fst)

omit [LinearOrder κ] in
/-- Keys stay distinct when values are filtered and changed. -/
theorem nodup_filterMap {μ : Type*} {entries : List (κ × ν)} {f : κ × ν → Option (κ × μ)}
    (hf : ∀ e e', f e = some e' → e'.1 = e.1) (h : (entries.map Prod.fst).Nodup) :
    ((entries.filterMap f).map Prod.fst).Nodup := by
  rw [List.Nodup, List.pairwise_map] at h ⊢
  rw [List.pairwise_filterMap]
  refine h.imp fun hne e he e' he' => ?_
  rw [hf _ _ he, hf _ _ he']
  exact hne

end KeyValue
