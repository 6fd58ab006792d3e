import Mathlib.Data.List.AList
import Mathlib.Tactic

/-!
# Maps filled by a loop

A loop that inserts one entry after the other into a hash map leaves under each key the last
entry that had it (`lookup_fill_append`).
-/

namespace Tables

variable {α β γ : Type*} [DecidableEq α]

/-- The map after all entries have been inserted, in this order. -/
def fill (entries : List (α × β)) : AList fun _ : α => β :=
  entries.foldl (fun m e => m.insert e.1 e.2) ∅

/-- **The last entry of a key wins.** -/
theorem lookup_fill_append (entries : List (α × β)) (e : α × β) (a : α) :
    (fill (entries ++ [e])).lookup a = if a = e.1 then some e.2 else (fill entries).lookup a := by
  rw [fill, List.foldl_append, List.foldl_cons, List.foldl_nil]
  split_ifs with ha
  · rw [ha]
    exact AList.lookup_insert _
  · exact AList.lookup_insert_ne ha

theorem mem_of_lookup_fill {entries : List (α × β)} {a : α} {b : β}
    (h : (fill entries).lookup a = some b) : (a, b) ∈ entries := by
  induction entries using List.reverseRecOn with
  | nil => exact nomatch h
  | append_singleton init e ih =>
      rw [lookup_fill_append] at h
      rw [List.mem_append, List.mem_singleton]
      split_ifs at h with ha
      · exact Or.inr (Prod.ext ha (Option.some_inj.mp h).symm)
      · exact Or.inl (ih h)

/-- A key is there exactly if some entry has it. -/
theorem isSome_lookup_fill {entries : List (α × β)} {a : α} :
    ((fill entries).lookup a).isSome = true ↔ ∃ e ∈ entries, e.1 = a := by
  induction entries using List.reverseRecOn with
  | nil => exact iff_of_false Bool.false_ne_true fun ⟨e, he, _⟩ => absurd he List.not_mem_nil
  | append_singleton init e ih =>
      simp only [lookup_fill_append, List.mem_append, List.mem_singleton, or_and_right, exists_or,
        exists_eq_left]
      split_ifs with ha
      · exact iff_of_true rfl (Or.inr ha.symm)
      · rw [ih]
        exact (or_iff_left fun heq => ha heq.symm).symm

/-- The map is empty exactly if nothing has been inserted. -/
theorem isEmpty_entries_fill {entries : List (α × β)} :
    (fill entries).entries.isEmpty = true ↔ entries = [] := by
  constructor
  · intro hempty
    by_contra hne
    obtain ⟨e, he⟩ := List.exists_mem_of_ne_nil _ hne
    have hsome := isSome_lookup_fill.mpr ⟨e, he, rfl⟩
    rw [AList.lookup, List.isEmpty_iff.mp hempty] at hsome
    exact Bool.false_ne_true hsome
  · rintro rfl
    rfl

/-- The entries may be computed before or after the map is filled. -/
theorem lookup_fill_map (f : β → γ) (entries : List (α × β)) (a : α) :
    (fill (entries.map fun e => (e.1, f e.2))).lookup a = ((fill entries).lookup a).map f := by
  induction entries using List.reverseRecOn with
  | nil => rfl
  | append_singleton init e ih =>
      rw [List.map_append, List.map_cons, List.map_nil, lookup_fill_append, lookup_fill_append, ih]
      split_ifs
      · rfl
      · rfl

end Tables
