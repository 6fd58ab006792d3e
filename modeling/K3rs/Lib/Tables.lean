import Mathlib.Data.List.AList
import Mathlib.Data.List.Sort
import Mathlib.Data.String.Basic
import Mathlib.Tactic

/-!
# Tables

A hash map is an `AList`: an association list without duplicate keys.  `retain` keeps the
entries whose keys satisfy a test.

A `Table` is an ordered key-value store whose records carry their own key: a list of
records in strictly increasing key order, which is also the order of a scan.  Since the
order is strict, a key has at most one record (`Table.unique`), however the table came
about.
-/

namespace Tables

section Retain

variable {α : Type*} {β : Type*}

/-- `HashMap::retain`, for a test on the key. -/
def retain (p : α → Bool) (m : AList fun _ : α => β) : AList fun _ : α => β where
  entries := m.entries.filter fun e => p e.1
  nodupKeys := m.nodupKeys.sublist List.filter_sublist

theorem lookup_retain [DecidableEq α] (p : α → Bool) (m : AList fun _ : α => β) (a : α) :
    (retain p m).lookup a = if p a then m.lookup a else none := by
  apply Option.ext
  intro b
  rw [← Option.mem_def, ← Option.mem_def, AList.mem_lookup_iff]
  cases hp : p a with
  | false => simp [retain, hp]
  | true =>
      have hmem : (⟨a, b⟩ : Sigma fun _ : α => β) ∈ (retain p m).entries ↔ ⟨a, b⟩ ∈ m.entries := by
        simp [retain, hp]
      rw [hmem, if_pos rfl, AList.mem_lookup_iff]

end Retain

/-- Records in strictly increasing order of their keys. -/
structure Table {α : Type*} {κ : Type*} [LinearOrder κ] (key : α → κ) where
  rows : List α
  sorted : rows.Pairwise fun a b => key a < key b

namespace Table

variable {α κ : Type*} [LinearOrder κ] {key : α → κ}

instance : EmptyCollection (Table key) := ⟨⟨[], List.Pairwise.nil⟩⟩

/-- A key has at most one record. -/
theorem unique (t : Table key) : (t.rows.map key).Nodup := by
  rw [List.Nodup, List.pairwise_map]
  exact t.sorted.imp fun h => h.ne

/-- Insert a record in order, in place of the one with the same key. -/
def putRow (key : α → κ) (row : α) : List α → List α
  | [] => [row]
  | a :: rest =>
      if key row < key a then row :: a :: rest
      else if key row = key a then row :: rest
      else a :: putRow key row rest

theorem mem_putRow {row b : α} {rows : List α} (h : b ∈ putRow key row rows) :
    b = row ∨ b ∈ rows := by
  induction rows with
  | nil => simpa [putRow] using h
  | cons a rest ih =>
      unfold putRow at h
      split_ifs at h
      · simpa using h
      · rcases List.mem_cons.mp h with rfl | hb
        · exact Or.inl rfl
        · exact Or.inr (List.mem_cons_of_mem a hb)
      · rcases List.mem_cons.mp h with rfl | hb
        · exact Or.inr List.mem_cons_self
        · exact (ih hb).imp_right (List.mem_cons_of_mem a)

theorem putRow_sorted (row : α) {rows : List α}
    (h : rows.Pairwise fun a b => key a < key b) :
    (putRow key row rows).Pairwise fun a b => key a < key b := by
  induction rows with
  | nil => simp [putRow]
  | cons a rest ih =>
      obtain ⟨hfirst, hrest⟩ := List.pairwise_cons.mp h
      unfold putRow
      split_ifs with hlt heq
      · refine List.pairwise_cons.mpr ⟨fun b hb => ?_, h⟩
        rcases List.mem_cons.mp hb with rfl | hb
        · exact hlt
        · exact hlt.trans (hfirst b hb)
      · exact List.pairwise_cons.mpr ⟨fun b hb => heq ▸ hfirst b hb, hrest⟩
      · refine List.pairwise_cons.mpr ⟨fun b hb => ?_, ih hrest⟩
        rcases mem_putRow hb with rfl | hb
        · exact lt_of_le_of_ne (not_lt.mp hlt) (Ne.symm heq)
        · exact hfirst b hb

/-- Write a record under its key. -/
def put (t : Table key) (row : α) : Table key := ⟨putRow key row t.rows, putRow_sorted row t.sorted⟩

/-- Write several records. -/
def putAll (t : Table key) (rows : List α) : Table key := rows.foldl put t

/-- Remove the record of a key. -/
def delete (t : Table key) (k : κ) : Table key :=
  ⟨t.rows.filter fun a => decide (key a ≠ k), t.sorted.sublist List.filter_sublist⟩

/-- Read the record of a key. -/
def get (t : Table key) (k : κ) : Option α := t.rows.find? fun a => decide (key a = k)

theorem eq_of_key_eq (t : Table key) {a b : α} (ha : a ∈ t.rows) (hb : b ∈ t.rows)
    (h : key a = key b) : a = b := List.inj_on_of_nodup_map t.unique ha hb h

theorem get_eq_some_iff (t : Table key) {k : κ} {a : α} :
    t.get k = some a ↔ a ∈ t.rows ∧ key a = k := by
  constructor
  · intro h
    exact ⟨List.mem_of_find?_eq_some h, by simpa using List.find?_some h⟩
  · rintro ⟨ha, rfl⟩
    have hfound : (t.get (key a)).isSome := List.find?_isSome.mpr ⟨a, ha, decide_eq_true rfl⟩
    obtain ⟨b, hb⟩ := Option.isSome_iff_exists.mp hfound
    have hkey : key b = key a := by simpa using List.find?_some hb
    rw [hb, t.eq_of_key_eq (List.mem_of_find?_eq_some hb) ha hkey]

theorem mem_putRow_iff {row b : α} {rows : List α}
    (h : rows.Pairwise fun a b => key a < key b) :
    b ∈ putRow key row rows ↔ b = row ∨ b ∈ rows ∧ key b ≠ key row := by
  induction rows with
  | nil => simp [putRow]
  | cons a rest ih =>
      obtain ⟨hfirst, hrest⟩ := List.pairwise_cons.mp h
      unfold putRow
      split_ifs with hlt heq
      · have habove : ∀ c ∈ a :: rest, key c ≠ key row := by
          intro c hc
          rcases List.mem_cons.mp hc with rfl | hc
          · exact hlt.ne'
          · exact (hlt.trans (hfirst c hc)).ne'
        rw [List.mem_cons]
        exact or_congr_right (iff_self_and.mpr (habove b))
      · have habove : ∀ c ∈ rest, key c ≠ key row := fun c hc => (heq ▸ hfirst c hc).ne'
        rw [List.mem_cons, List.mem_cons]
        refine or_congr_right ⟨fun hb => ⟨Or.inr hb, habove b hb⟩, ?_⟩
        rintro ⟨rfl | hb, hne⟩
        · exact absurd heq.symm hne
        · exact hb
      · rw [List.mem_cons, ih hrest, List.mem_cons]
        constructor
        · rintro (rfl | rfl | ⟨hb, hne⟩)
          · exact Or.inr ⟨Or.inl rfl, Ne.symm heq⟩
          · exact Or.inl rfl
          · exact Or.inr ⟨Or.inr hb, hne⟩
        · rintro (rfl | ⟨rfl | hb, hne⟩)
          · exact Or.inr (Or.inl rfl)
          · exact Or.inl rfl
          · exact Or.inr (Or.inr ⟨hb, hne⟩)

/-- A written record takes the place of the one with its key; the others stay. -/
theorem mem_put (t : Table key) {row b : α} :
    b ∈ (t.put row).rows ↔ b = row ∨ b ∈ t.rows ∧ key b ≠ key row := mem_putRow_iff t.sorted

/-- A record of the table after several writes is one of them or was there before. -/
theorem mem_of_mem_putAll {rows : List α} :
    ∀ (t : Table key) {b : α}, b ∈ (t.putAll rows).rows → b ∈ rows ∨ b ∈ t.rows := by
  induction rows with
  | nil => exact fun _ _ h => Or.inr h
  | cons row rest ih =>
      intro t b h
      rcases ih (t.put row) h with hrest | hput
      · exact Or.inl (List.mem_cons_of_mem _ hrest)
      · rcases t.mem_put.mp hput with rfl | ⟨hold, -⟩
        · exact Or.inl List.mem_cons_self
        · exact Or.inr hold

/-- Written under different keys, they take the place of those with the same keys. -/
theorem mem_putAll {rows : List α} (hnodup : (rows.map key).Nodup) (t : Table key) {b : α} :
    b ∈ (t.putAll rows).rows ↔ b ∈ rows ∨ b ∈ t.rows ∧ key b ∉ rows.map key := by
  induction rows generalizing t with
  | nil => simp [putAll]
  | cons row rest ih =>
      obtain ⟨hrow, hrest⟩ := List.nodup_cons.mp hnodup
      refine (ih hrest (t.put row)).trans ?_
      rw [mem_put, List.mem_cons, List.map_cons, List.mem_cons]
      constructor
      · rintro (hb | ⟨rfl | ⟨hold, hne⟩, hnot⟩)
        · exact Or.inl (Or.inr hb)
        · exact Or.inl (Or.inl rfl)
        · exact Or.inr ⟨hold, not_or.mpr ⟨hne, hnot⟩⟩
      · rintro ((rfl | hb) | ⟨hold, hnot⟩)
        · exact Or.inr ⟨Or.inl rfl, hrow⟩
        · exact Or.inl hb
        · obtain ⟨hne, hrest'⟩ := not_or.mp hnot
          exact Or.inr ⟨Or.inr ⟨hold, hne⟩, hrest'⟩

end Table

end Tables
