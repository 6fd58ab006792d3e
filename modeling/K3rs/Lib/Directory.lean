import Mathlib.Logic.Function.Basic
import Mathlib.Tactic

/-!
# A directory of who is where

Owners hold a place: a key with a value.  A table maps the keys to the values, for others to
look up.  Whoever enters and removes an owner's entry has to know its key; that knowledge can
get lost while the table stays (`forget`).

`Exact` says that the table is what the owners hold.  Where no two owners hold the same key,
`attach` keeps it exactly when the owner keeps the key it had (`exact_attach_iff`), and
`detach` exactly when the key of the owner is known (`exact_detach_iff`).
-/

/-- The table, what the owners hold, and the keys that are known for them. -/
@[ext]
structure Directory (ω κ ν : Type*) where
  entries : κ → Option ν
  held : ω → Option (κ × ν)
  known : ω → Option κ

namespace Directory

variable {ω κ ν : Type*} [DecidableEq ω] [DecidableEq κ] (d : Directory ω κ ν)

/-- An owner takes a place. -/
def attach (o : ω) (k : κ) (v : ν) : Directory ω κ ν where
  entries := Function.update d.entries k (some v)
  held := Function.update d.held o (some (k, v))
  known := Function.update d.known o (some k)

/-- An owner leaves; the entry is removed if its key is known. -/
def detach (o : ω) : Directory ω κ ν where
  entries :=
    match d.known o with
    | some k => Function.update d.entries k none
    | none => d.entries
  held := Function.update d.held o none
  known := Function.update d.known o none

/-- What was known is lost. -/
def forget : Directory ω κ ν := { d with known := fun _ => none }

/-- The table is what the owners hold. -/
def Exact : Prop := ∀ k v, d.entries k = some v ↔ ∃ o, d.held o = some (k, v)

/-- No two owners hold the same key. -/
def Distinct : Prop := ∀ o o' k v v', d.held o = some (k, v) → d.held o' = some (k, v') → o = o'

/-- What is known of an owner is true. -/
def Truthful : Prop := ∀ o k, d.known o = some k → ∃ v, d.held o = some (k, v)

variable {d}

omit [DecidableEq ω] [DecidableEq κ] in
theorem truthful_forget : d.forget.Truthful := by
  intro o k hknown
  cases hknown

theorem Truthful.attach (h : d.Truthful) (o : ω) (k : κ) (v : ν) : (d.attach o k v).Truthful := by
  intro o' k' hknown
  simp only [Directory.attach] at hknown ⊢
  by_cases ho : o' = o
  · subst ho
    rw [Function.update_self, Option.some_inj] at hknown
    subst hknown
    exact ⟨v, Function.update_self _ _ _⟩
  · rw [Function.update_of_ne ho] at hknown ⊢
    exact h o' k' hknown

theorem Truthful.detach (h : d.Truthful) (o : ω) : (d.detach o).Truthful := by
  intro o' k' hknown
  simp only [Directory.detach] at hknown ⊢
  by_cases ho : o' = o
  · subst ho
    rw [Function.update_self] at hknown
    cases hknown
  · rw [Function.update_of_ne ho] at hknown ⊢
    exact h o' k' hknown

omit [DecidableEq ω] [DecidableEq κ] in
/-- The entry of an owner. -/
theorem Exact.entry (h : d.Exact) {o : ω} {k : κ} {v : ν} (hheld : d.held o = some (k, v)) :
    d.entries k = some v := (h k v).mpr ⟨o, hheld⟩

/-- **Attaching.**  The table stays exact when an owner that is attached again keeps its key:
the entry of another key would be left behind. -/
theorem exact_attach_iff (hexact : d.Exact) (hdistinct : d.Distinct) {o : ω} {k : κ} {v : ν}
    (hafter : (d.attach o k v).Distinct) :
    (d.attach o k v).Exact ↔ ∀ k' v', d.held o = some (k', v') → k' = k := by
  have hself : (d.attach o k v).held o = some (k, v) := Function.update_self _ _ _
  have hother : ∀ {o'}, o' ≠ o → (d.attach o k v).held o' = d.held o' :=
    fun hne => Function.update_of_ne hne _ _
  have hentry : ∀ {k'}, k' ≠ k → (d.attach o k v).entries k' = d.entries k' :=
    fun hne => Function.update_of_ne hne _ _
  constructor
  · intro h k' v' hheld
    by_contra hne
    have hleft : (d.attach o k v).entries k' = some v' := (hentry hne).trans (hexact.entry hheld)
    obtain ⟨o', ho'⟩ := (h k' v').mp hleft
    have hne' : o' ≠ o := by
      rintro rfl
      rw [hself, Option.some_inj, Prod.mk.injEq] at ho'
      exact hne ho'.1.symm
    exact hne' (hdistinct o' o k' v' v' ((hother hne').symm.trans ho') hheld)
  · intro hkeeps k' v'
    by_cases hk : k' = k
    · subst hk
      have hnew : (d.attach o k' v).entries k' = some v := Function.update_self _ _ _
      rw [hnew, Option.some_inj]
      constructor
      · rintro rfl
        exact ⟨o, hself⟩
      · rintro ⟨o', ho'⟩
        obtain rfl := hafter o' o k' v' v ho' hself
        rw [hself, Option.some_inj, Prod.mk.injEq] at ho'
        exact ho'.2
    · rw [hentry hk, hexact k' v']
      constructor
      · rintro ⟨o', ho'⟩
        have hne' : o' ≠ o := by
          rintro rfl
          exact hk (hkeeps k' v' ho')
        exact ⟨o', (hother hne').trans ho'⟩
      · rintro ⟨o', ho'⟩
        have hne' : o' ≠ o := by
          rintro rfl
          rw [hself, Option.some_inj, Prod.mk.injEq] at ho'
          exact hk ho'.1.symm
        exact ⟨o', (hother hne').symm.trans ho'⟩

omit [DecidableEq κ] in
/-- What the others hold when an owner has left. -/
theorem held_update_none {o o' : ω} {place : κ × ν} :
    Function.update d.held o none o' = some place ↔ o' ≠ o ∧ d.held o' = some place := by
  by_cases ho : o' = o
  · subst ho
    rw [Function.update_self]
    exact iff_of_false nofun fun h => h.1 rfl
  · rw [Function.update_of_ne ho, and_iff_right ho]

/-- An owner of which nothing is known leaves its entry behind, if it has one. -/
theorem exact_detach_of_unknown (hexact : d.Exact) (hdistinct : d.Distinct) {o : ω}
    (hknown : d.known o = none) : (d.detach o).Exact ↔ d.held o = none := by
  have hentries : (d.detach o).entries = d.entries := by
    simp only [Directory.detach, hknown]
  constructor
  · intro h
    by_contra hheld
    -- the entry of the owner is still there, and nobody else holds its key
    obtain ⟨⟨k, v⟩, hplace⟩ := Option.ne_none_iff_exists'.mp hheld
    have hleft : (d.detach o).entries k = some v := by
      rw [hentries]
      exact hexact.entry hplace
    obtain ⟨o', ho'⟩ := (h k v).mp hleft
    obtain ⟨hne, hother⟩ := held_update_none.mp ho'
    exact hne (hdistinct o' o k v v hother hplace)
  · intro hnone k v
    rw [hentries, hexact k v]
    refine exists_congr fun o' => Iff.trans ?_ held_update_none.symm
    refine (and_iff_right_of_imp ?_).symm
    rintro hheld rfl
    rw [hnone] at hheld
    cases hheld

/-- An owner that is known leaves nothing behind. -/
theorem exact_detach_of_known (hexact : d.Exact) (hdistinct : d.Distinct) {o : ω} {k : κ} {v : ν}
    (hknown : d.known o = some k) (hplace : d.held o = some (k, v)) : (d.detach o).Exact := by
  have hentries : (d.detach o).entries = Function.update d.entries k none := by
    simp only [Directory.detach, hknown]
  intro k' v'
  rw [hentries]
  by_cases hk : k' = k
  · subst hk
    rw [Function.update_self]
    refine iff_of_false nofun ?_
    rintro ⟨o', ho'⟩
    obtain ⟨hne, hother⟩ := held_update_none.mp ho'
    exact hne (hdistinct o' o k' v' v hother hplace)
  · rw [Function.update_of_ne hk, hexact k' v']
    refine exists_congr fun o' => Iff.trans ?_ held_update_none.symm
    refine (and_iff_right_of_imp ?_).symm
    rintro hheld rfl
    rw [hplace, Option.some_inj, Prod.mk.injEq] at hheld
    exact hk hheld.1.symm

/-- **Detaching.**  The table stays exact when the key of an owner that holds one is known. -/
theorem exact_detach_iff (hexact : d.Exact) (hdistinct : d.Distinct) (htruthful : d.Truthful)
    {o : ω} : (d.detach o).Exact ↔ (d.held o ≠ none → d.known o ≠ none) := by
  cases hknown : d.known o with
  | none =>
      rw [exact_detach_of_unknown hexact hdistinct hknown]
      simp only [ne_eq, not_true_eq_false, imp_false, not_not]
  | some k =>
      obtain ⟨v, hplace⟩ := htruthful o k hknown
      exact iff_of_true (exact_detach_of_known hexact hdistinct hknown hplace) fun _ => nofun

end Directory
