import Mathlib.Data.Set.Basic
import Mathlib.Tactic

/-!
# Keys held in the name of owners

A shared table holds a set of keys.  Owners put keys into it, and the registry remembers
which owner put which; the table itself does not.  `assign` is the one operation: the keys
recorded for an owner are taken out, new ones are put in and recorded.  Two owners may hold
the same key, and taking it out for one of them takes it out for both.

* `Accounted`: every key of the table is recorded for some owner.  All assignments keep it.
* `recorded_assignAll_of_mem`: after a list of assignments to different owners, the records
  of these owners are the new ones.
* `mem_present_assignAll_of_granted`, `mem_present_assignAll_of_not_granted`: which keys the
  table holds then.  A key that is newly put in can be missing only because an owner that
  comes later held it before and gives it up.
-/

namespace Grants

/-- A table of keys and what is remembered about it. -/
@[ext]
structure Registry (ω κ : Type*) where
  /-- The keys put in for each owner. -/
  recorded : ω → Set κ
  /-- The keys of the table. -/
  present : Set κ

namespace Registry

variable {ω κ : Type*} [DecidableEq ω]

/-- Replace the keys of an owner. -/
def assign (r : Registry ω κ) (entry : ω × Set κ) : Registry ω κ where
  recorded := Function.update r.recorded entry.1 entry.2
  present := r.present \ r.recorded entry.1 ∪ entry.2

/-- Replace the keys of several owners, one after the other. -/
def assignAll (r : Registry ω κ) (entries : List (ω × Set κ)) : Registry ω κ :=
  entries.foldl assign r

variable {r : Registry ω κ} {entries : List (ω × Set κ)} {k : κ}

@[simp] theorem assignAll_nil : r.assignAll [] = r := rfl

@[simp] theorem assignAll_cons (entry : ω × Set κ) :
    r.assignAll (entry :: entries) = (r.assign entry).assignAll entries := rfl

theorem assignAll_append (entries' : List (ω × Set κ)) :
    r.assignAll (entries ++ entries') = (r.assignAll entries).assignAll entries' :=
  List.foldl_append

/-! ## Records -/

theorem recorded_assign_of_ne {entry : ω × Set κ} {o : ω} (h : o ≠ entry.1) :
    (r.assign entry).recorded o = r.recorded o := Function.update_of_ne h _ _

theorem recorded_assign_self (entry : ω × Set κ) :
    (r.assign entry).recorded entry.1 = entry.2 := Function.update_self _ _ _

/-- Assigning nothing to an owner without keys changes nothing. -/
theorem assign_empty {o : ω} (h : r.recorded o = ∅) : r.assign (o, ∅) = r := by
  refine Registry.ext ?_ ?_
  · exact Function.update_eq_self_iff.mpr h.symm
  · show r.present \ r.recorded o ∪ ∅ = r.present
    rw [h, Set.sdiff_empty, Set.union_empty]

/-- Taking an owner's keys out first makes no difference. -/
theorem assign_assign_empty (o : ω) (keys : Set κ) :
    (r.assign (o, ∅)).assign (o, keys) = r.assign (o, keys) := by
  refine Registry.ext ?_ ?_
  · exact Function.update_idem _ _ _
  · show (r.present \ r.recorded o ∪ ∅) \ (r.assign (o, ∅)).recorded o ∪ keys = _
    rw [recorded_assign_self (o, ∅), Set.union_empty, Set.sdiff_empty]
    rfl

theorem recorded_assignAll_of_notMem {o : ω} (h : o ∉ entries.map Prod.fst) :
    (r.assignAll entries).recorded o = r.recorded o := by
  induction entries generalizing r with
  | nil => rfl
  | cons entry rest ih =>
      rw [List.map_cons, List.mem_cons, not_or] at h
      exact (ih h.2).trans (recorded_assign_of_ne h.1)

/-- The last assignment to an owner counts, and here it is the only one. -/
theorem recorded_assignAll_of_mem (hnodup : (entries.map Prod.fst).Nodup) {entry : ω × Set κ}
    (hmem : entry ∈ entries) : (r.assignAll entries).recorded entry.1 = entry.2 := by
  induction entries generalizing r with
  | nil => cases hmem
  | cons first rest ih =>
      rw [List.map_cons, List.nodup_cons] at hnodup
      rcases List.mem_cons.mp hmem with rfl | hmem
      · exact (recorded_assignAll_of_notMem hnodup.1).trans (recorded_assign_self entry)
      · exact ih hnodup.2 hmem

/-! ## Every key has an owner -/

/-- Every key of the table is recorded for some owner. -/
def Accounted (r : Registry ω κ) : Prop := ∀ k ∈ r.present, ∃ o, k ∈ r.recorded o

theorem Accounted.assign (h : r.Accounted) (entry : ω × Set κ) : (r.assign entry).Accounted := by
  rintro k (⟨hk, hgone⟩ | hk)
  · obtain ⟨o, ho⟩ := h k hk
    have hne : o ≠ entry.1 := by
      rintro rfl
      exact hgone ho
    exact ⟨o, (recorded_assign_of_ne hne).symm ▸ ho⟩
  · exact ⟨entry.1, (recorded_assign_self entry).symm ▸ hk⟩

theorem Accounted.assignAll (h : r.Accounted) : (r.assignAll entries).Accounted := by
  induction entries generalizing r with
  | nil => exact h
  | cons entry rest ih => exact ih (h.assign entry)

/-! ## The keys of the table -/

/-- A key that no entry puts in stays if it was there and none of the owners had it. -/
theorem mem_present_assignAll_of_not_granted (hnodup : (entries.map Prod.fst).Nodup)
    (hnot : ∀ entry ∈ entries, k ∉ entry.2) :
    k ∈ (r.assignAll entries).present ↔
      k ∈ r.present ∧ ∀ entry ∈ entries, k ∉ r.recorded entry.1 := by
  induction entries generalizing r with
  | nil => simp
  | cons first rest ih =>
      rw [List.map_cons, List.nodup_cons] at hnodup
      have hkept : ∀ entry ∈ rest,
          (r.assign first).recorded entry.1 = r.recorded entry.1 := by
        intro entry hmem
        refine recorded_assign_of_ne fun heq => hnodup.1 ?_
        exact heq ▸ List.mem_map_of_mem hmem
      have hfirst : k ∈ (r.assign first).present ↔ k ∈ r.present ∧ k ∉ r.recorded first.1 := by
        have hk := hnot first List.mem_cons_self
        simp [Registry.assign, hk]
      rw [assignAll_cons, ih hnodup.2 fun entry hmem => hnot entry (List.mem_cons_of_mem _ hmem),
        hfirst, and_assoc, List.forall_mem_cons]
      refine and_congr_right fun _ => and_congr_right fun _ => ?_
      exact forall₂_congr fun entry hmem => by rw [hkept entry hmem]

omit [DecidableEq ω] in
/-- The last entry that puts a key in. -/
private theorem exists_last_grant (h : ∃ entry ∈ entries, k ∈ entry.2) :
    ∃ pre entry post, entries = pre ++ entry :: post ∧ k ∈ entry.2 ∧
      ∀ later ∈ post, k ∉ later.2 := by
  induction entries with
  | nil =>
      obtain ⟨entry, hmem, -⟩ := h
      cases hmem
  | cons first rest ih =>
      by_cases hrest : ∃ entry ∈ rest, k ∈ entry.2
      · obtain ⟨pre, entry, post, rfl, hk, hlater⟩ := ih hrest
        exact ⟨first :: pre, entry, post, rfl, hk, hlater⟩
      · obtain ⟨entry, hmem, hk⟩ := h
        rcases List.mem_cons.mp hmem with rfl | hmem
        · exact ⟨[], entry, rest, rfl, hk, fun later hl hkl => hrest ⟨later, hl, hkl⟩⟩
        · exact absurd ⟨entry, hmem, hk⟩ hrest

/-- In a list with different owners, an owner's record is untouched until its turn. -/
private theorem recorded_before {pre post : List (ω × Set κ)} {entry : ω × Set κ}
    (hnodup : ((pre ++ entry :: post).map Prod.fst).Nodup) :
    (r.assignAll pre).recorded entry.1 = r.recorded entry.1 := by
  refine recorded_assignAll_of_notMem fun hmem => ?_
  rw [List.map_append, List.map_cons] at hnodup
  exact (List.nodup_append.mp hnodup).2.2 _ hmem _ List.mem_cons_self rfl

/-- **When a key that is put in stays.**  Every owner that had the key and does not get it
again is followed by one that gets it. -/
theorem mem_present_assignAll_of_granted (hnodup : (entries.map Prod.fst).Nodup)
    (hgranted : ∃ entry ∈ entries, k ∈ entry.2) :
    k ∈ (r.assignAll entries).present ↔
      ∀ pre entry post, entries = pre ++ entry :: post → k ∈ r.recorded entry.1 →
        k ∉ entry.2 → ∃ later ∈ post, k ∈ later.2 := by
  have hpost : ∀ {pre entry post}, entries = pre ++ entry :: post →
      (post.map Prod.fst).Nodup := by
    rintro pre entry post rfl
    rw [List.map_append, List.map_cons] at hnodup
    exact (List.nodup_cons.mp (List.nodup_append.mp hnodup).2.1).2
  constructor
  · intro hk pre entry post hsplit hold hnew
    by_contra hlater
    push Not at hlater
    rw [hsplit, assignAll_append, assignAll_cons,
      mem_present_assignAll_of_not_granted (hpost hsplit) hlater] at hk
    have hgone : k ∉ ((r.assignAll pre).assign entry).present := by
      rintro (⟨-, hnot⟩ | hin)
      · exact hnot ((recorded_before (hsplit ▸ hnodup)).symm ▸ hold)
      · exact hnew hin
    exact hgone hk.1
  · intro hlater
    obtain ⟨pre, entry, post, hsplit, hk, hnone⟩ := exists_last_grant hgranted
    rw [hsplit, assignAll_append, assignAll_cons,
      mem_present_assignAll_of_not_granted (hpost hsplit) hnone]
    refine ⟨Or.inr hk, fun later hmem hold => ?_⟩
    obtain ⟨pre', post', hsplit'⟩ := List.append_of_mem hmem
    have hwhole : entries = (pre ++ entry :: pre') ++ later :: post' := by
      rw [hsplit, hsplit', List.append_assoc, List.cons_append]
    have hbefore : (((r.assignAll pre).assign entry).recorded later.1) = r.recorded later.1 := by
      have hfirst : later.1 ∉ (pre ++ [entry]).map Prod.fst := by
        intro hin
        have hnodup' : ((pre ++ [entry] ++ post).map Prod.fst).Nodup := by
          simpa [hsplit] using hnodup
        rw [List.map_append] at hnodup'
        exact (List.nodup_append.mp hnodup').2.2 _ hin _ (List.mem_map_of_mem hmem) rfl
      have happ : (r.assignAll pre).assign entry = r.assignAll (pre ++ [entry]) :=
        (assignAll_append [entry]).symm
      rw [happ]
      exact recorded_assignAll_of_notMem hfirst
    rw [hbefore] at hold
    obtain ⟨e, he, hke⟩ := hlater _ _ _ hwhole hold (hnone later hmem)
    refine hnone e ?_ hke
    rw [hsplit']
    exact List.mem_append_right _ (List.mem_cons_of_mem _ he)

/-- In particular, when no owner gives a key up. -/
theorem mem_present_assignAll_of_kept (hnodup : (entries.map Prod.fst).Nodup)
    (hgranted : ∃ entry ∈ entries, k ∈ entry.2)
    (hkept : ∀ entry ∈ entries, k ∈ r.recorded entry.1 → k ∈ entry.2) :
    k ∈ (r.assignAll entries).present := by
  refine (mem_present_assignAll_of_granted hnodup hgranted).mpr ?_
  intro pre entry post hsplit hold hnew
  refine absurd (hkept entry ?_ hold) hnew
  rw [hsplit]
  exact List.mem_append_right _ List.mem_cons_self

end Registry

end Grants
