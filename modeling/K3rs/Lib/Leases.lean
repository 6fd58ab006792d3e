import Mathlib.Tactic

/-!
# Exclusive leases

A lease table assigns leases to holders, and `f` reads from a lease the resource it is
for.  The table is `Exclusive` when no resource has two holders.  Granting a resource that
nobody else holds, and keeping only some of the leases, leave a table exclusive.
-/

namespace Leases

variable {κ α γ : Type*} {f : α → γ} {table table' : κ → Option α}

/-- No resource has two holders. -/
def Exclusive (f : α → γ) (table : κ → Option α) : Prop :=
  ∀ k k' a a', table k = some a → table k' = some a' → f a = f a' → k = k'

/-- Every lease of the first table is one of the second. -/
def Sub (table table' : κ → Option α) : Prop := ∀ k a, table k = some a → table' k = some a

theorem Exclusive.mono (h : Exclusive f table') (hsub : Sub table table') :
    Exclusive f table :=
  fun k k' a a' hk hk' => h k k' a a' (hsub k a hk) (hsub k' a' hk')

/-- A resource that determines another one can stand in for it. -/
theorem Exclusive.of_determined {δ : Type*} {g : α → δ} (h : Exclusive f table)
    (hdet : ∀ k k' a a', table k = some a → table k' = some a' → g a = g a' → f a = f a') :
    Exclusive g table :=
  fun k k' a a' hk hk' heq => h k k' a a' hk hk' (hdet k k' a a' hk hk' heq)

/-- Granting a resource that nobody else holds. -/
theorem Exclusive.grant [DecidableEq κ] (h : Exclusive f table) {k : κ} {a : α}
    (hfresh : ∀ k' a', table k' = some a' → f a' ≠ f a) :
    Exclusive f (Function.update table k (some a)) := by
  intro k₁ k₂ b b' h₁ h₂ heq
  by_cases e₁ : k₁ = k <;> by_cases e₂ : k₂ = k
  · rw [e₁, e₂]
  · subst e₁
    rw [Function.update_self, Option.some_inj] at h₁
    rw [Function.update_of_ne e₂] at h₂
    exact absurd (heq.symm.trans (congrArg f h₁.symm)) (hfresh k₂ b' h₂)
  · subst e₂
    rw [Function.update_self, Option.some_inj] at h₂
    rw [Function.update_of_ne e₁] at h₁
    exact absurd (heq.trans (congrArg f h₂.symm)) (hfresh k₁ b h₁)
  · rw [Function.update_of_ne e₁] at h₁
    rw [Function.update_of_ne e₂] at h₂
    exact h k₁ k₂ b b' h₁ h₂ heq

/-- The same grant in both tables. -/
theorem Sub.grant [DecidableEq κ] (h : Sub table table') (k : κ) (a : α) :
    Sub (Function.update table k (some a)) (Function.update table' k (some a)) := by
  intro k' b hb
  by_cases e : k' = k
  · subst e
    rwa [Function.update_self] at hb ⊢
  · rw [Function.update_of_ne e] at hb ⊢
    exact h k' b hb

/-- The same revocation in both tables. -/
theorem Sub.revoke [DecidableEq κ] (h : Sub table table') (k : κ) :
    Sub (Function.update table k none) (Function.update table' k none) := by
  intro k' b hb
  by_cases e : k' = k
  · subst e
    rw [Function.update_self] at hb
    cases hb
  · rw [Function.update_of_ne e] at hb ⊢
    exact h k' b hb

/-- A revocation only takes leases away. -/
theorem Sub.of_revoke [DecidableEq κ] (table : κ → Option α) (k : κ) :
    Sub (Function.update table k none) table := by
  intro k' b hb
  by_cases e : k' = k
  · subst e
    rw [Function.update_self] at hb
    cases hb
  · rwa [Function.update_of_ne e] at hb

end Leases
