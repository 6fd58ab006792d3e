import Mathlib.Tactic

/-!
# Joined texts

Two texts joined by a separator.  The join can be taken apart in several ways if the separator is
also in the texts: two joins are equal if the first part of one runs over into the second part of
the other (`Overlaps`), and a join is below every directory that it names on the way
(`below_only_iff`).
-/

namespace Joins

variable {α : Type*} {sep : α}

/-- The join of two texts. -/
def join (sep : α) (a b : List α) : List α := a ++ sep :: b

/-- The first part of the second join runs over into the second part of the first. -/
def Overlaps (sep : α) (a b c d : List α) : Prop := ∃ t, c = join sep a t ∧ b = join sep t d

/-- **Joins are equal** if their parts are, or if one of them overlaps the other. -/
theorem join_eq_join_iff {a b c d : List α} :
    join sep a b = join sep c d ↔ (a = c ∧ b = d) ∨ Overlaps sep a b c d ∨ Overlaps sep c d a b := by
  rw [join, join, List.append_eq_append_iff]
  constructor
  · rintro (⟨t, rfl, htail⟩ | ⟨t, rfl, htail⟩)
    · cases t with
      | nil => exact Or.inl ⟨by simp, (List.cons.inj htail).2⟩
      | cons x t =>
          obtain ⟨rfl, rfl⟩ := List.cons.inj htail
          exact Or.inr (Or.inl ⟨t, rfl, rfl⟩)
    · cases t with
      | nil => exact Or.inl ⟨by simp, (List.cons.inj htail).2.symm⟩
      | cons x t =>
          obtain ⟨rfl, rfl⟩ := List.cons.inj htail
          exact Or.inr (Or.inr ⟨t, rfl, rfl⟩)
  · rintro (⟨rfl, rfl⟩ | ⟨t, rfl, rfl⟩ | ⟨t, rfl, rfl⟩)
    · exact Or.inl ⟨[], by simp, rfl⟩
    · exact Or.inl ⟨sep :: t, rfl, rfl⟩
    · exact Or.inr ⟨sep :: t, rfl, rfl⟩

/-- Joins that overlap have different first parts. -/
theorem Overlaps.ne {a b c d : List α} (h : Overlaps sep a b c d) : a ≠ c := by
  obtain ⟨t, rfl, -⟩ := h
  intro heq
  have hlength := congrArg List.length heq
  rw [join, List.length_append, List.length_cons] at hlength
  omega

/-- First parts without the separator do not overlap. -/
theorem not_overlaps_of_notMem {a b c d : List α} (h : sep ∉ c) : ¬Overlaps sep a b c d := by
  rintro ⟨t, rfl, -⟩
  exact h (List.mem_append_right a List.mem_cons_self)

/-- Joins of first parts without the separator are equal only if the parts are. -/
theorem join_inj {a b c d : List α} (ha : sep ∉ a) (hc : sep ∉ c)
    (h : join sep a b = join sep c d) : a = c ∧ b = d := by
  rcases join_eq_join_iff.mp h with h | h | h
  · exact h
  · exact absurd h (not_overlaps_of_notMem hc)
  · exact absurd h (not_overlaps_of_notMem ha)

/-- Joins of second parts without the separator are equal only if the parts are. -/
theorem join_inj_of_right {a b c d : List α} (hb : sep ∉ b) (hd : sep ∉ d)
    (h : join sep a b = join sep c d) : a = c ∧ b = d := by
  rcases join_eq_join_iff.mp h with h | ⟨t, -, rfl⟩ | ⟨t, -, rfl⟩
  · exact h
  · exact absurd (List.mem_append_right t List.mem_cons_self) hb
  · exact absurd (List.mem_append_right t List.mem_cons_self) hd

/-- A join is below a directory. -/
theorem below_iff {a b c : List α} :
    join sep a [] <+: join sep b c ↔ a = b ∨ (∃ t, b = join sep a t) ∨ ∃ t u, a = join sep b t ∧
      c = join sep t u := by
  constructor
  · rintro ⟨u, hu⟩
    have hjoin : join sep a u = join sep b c := by rw [← hu, join, join, List.append_assoc]; rfl
    rcases join_eq_join_iff.mp hjoin with ⟨rfl, -⟩ | ⟨t, hb, -⟩ | ⟨t, ha, hc⟩
    · exact Or.inl rfl
    · exact Or.inr (Or.inl ⟨t, hb⟩)
    · exact Or.inr (Or.inr ⟨t, u, ha, hc⟩)
  · rintro (rfl | ⟨t, rfl⟩ | ⟨t, u, rfl, rfl⟩)
    · exact ⟨c, by simp [join]⟩
    · exact ⟨join sep t c, by simp [join]⟩
    · exact ⟨u, by simp [join]⟩

/-- **A join is below its first part only** if the separator is in neither of its parts. -/
theorem below_only_iff {b c : List α} :
    (∀ a, join sep a [] <+: join sep b c → a = b) ↔ sep ∉ b ∧ sep ∉ c := by
  constructor
  · intro honly
    constructor
    · intro hmem
      obtain ⟨a, t, rfl⟩ := List.append_of_mem hmem
      have heq := honly a (below_iff.mpr (Or.inr (Or.inl ⟨t, rfl⟩)))
      exact absurd (congrArg List.length heq) (by simp)
    · intro hmem
      obtain ⟨t, u, rfl⟩ := List.append_of_mem hmem
      have heq := honly (join sep b t) (below_iff.mpr (Or.inr (Or.inr ⟨t, u, rfl, rfl⟩)))
      exact absurd (congrArg List.length heq) (by simp [join])
  · rintro ⟨hb, hc⟩ a hbelow
    rcases below_iff.mp hbelow with heq | ⟨t, rfl⟩ | ⟨t, u, -, rfl⟩
    · exact heq
    · exact absurd (List.mem_append_right a List.mem_cons_self) hb
    · exact absurd (List.mem_append_right t List.mem_cons_self) hc

end Joins
