import Mathlib.Data.Nat.ModEq
import Mathlib.Tactic

/-!
# Polynomial hashes of texts

The value of a list of digits at a base, read from the left: `h ↦ h * base + d` for one digit
after the other.  Taken modulo a number that the base is coprime to, a part of a text matters
only through its length and its own value (`value_replace_iff`).  So a text that joins several
parts by a separator has the same hash in every order of the parts exactly if any two of them
may be exchanged (`forall_perm_iff`).
-/

namespace PolyHash

variable {base m : ℕ}

/-- The value of some digits. -/
def value (base : ℕ) (digits : List ℕ) : ℕ := digits.foldl (fun h d => h * base + d) 0

theorem foldl_eq (base h : ℕ) (digits : List ℕ) :
    digits.foldl (fun h d => h * base + d) h = h * base ^ digits.length + value base digits := by
  induction digits using List.reverseRecOn with
  | nil => simp [value]
  | append_singleton digits d ih =>
      rw [value, List.foldl_append, List.foldl_append, ih, List.length_append, pow_add]
      simp only [List.foldl_cons, List.foldl_nil, List.length_singleton, pow_one, value]
      ring

theorem value_append (base : ℕ) (xs ys : List ℕ) :
    value base (xs ++ ys) = value base xs * base ^ ys.length + value base ys := by
  rw [value, List.foldl_append, foldl_eq]
  rfl

/-- **Replacing a part.**  Parts of equal length are exchangeable exactly if they have the same
hash. -/
theorem value_replace_iff (hbase : base.Coprime m) (front back : List ℕ) {x y : List ℕ}
    (hlength : x.length = y.length) :
    value base (front ++ x ++ back) ≡ value base (front ++ y ++ back) [MOD m] ↔
      value base x ≡ value base y [MOD m] := by
  have hunit : m.gcd (base ^ back.length) = 1 :=
    Nat.Coprime.symm (Nat.Coprime.pow_left back.length hbase)
  have hpart : ∀ z, value base (front ++ z ++ back) =
      value base front * base ^ z.length * base ^ back.length + value base z * base ^ back.length +
        value base back := by
    intro z
    rw [value_append, value_append]
    ring
  rw [hpart, hpart, hlength]
  constructor
  · intro h
    have hsum := Nat.ModEq.add_right_cancel' (value base back) h
    exact Nat.ModEq.cancel_right_of_coprime hunit (Nat.ModEq.add_left_cancel' _ hsum)
  · intro h
    exact ((h.mul_right _).add_left _).add_right _

/-! ## Joined parts -/

/-- Two parts can be exchanged when they stand side by side. -/
def Exchange (base m : ℕ) (sep x y : List ℕ) : Prop :=
  value base (x ++ sep ++ y) ≡ value base (y ++ sep ++ x) [MOD m]

/-- Any two of the parts can be exchanged. -/
def Exchangeable (base m : ℕ) (sep : List ℕ) (parts : List (List ℕ)) : Prop :=
  ∀ x ∈ parts, ∀ y ∈ parts, Exchange base m sep x y

theorem Exchangeable.perm {sep : List ℕ} {l l' : List (List ℕ)} (h : Exchangeable base m sep l)
    (hl : l.Perm l') : Exchangeable base m sep l' :=
  fun x hx y hy => h x (hl.mem_iff.mpr hx) y (hl.mem_iff.mpr hy)

/-- The text behind the first of some parts. -/
def tailText (sep : List ℕ) : List (List ℕ) → List ℕ
  | [] => []
  | y :: l => sep ++ List.intercalate sep (y :: l)

theorem intercalate_cons (sep x : List ℕ) (l : List (List ℕ)) :
    List.intercalate sep (x :: l) = x ++ tailText sep l := by
  cases l with
  | nil => simp [tailText]
  | cons y l => rw [List.intercalate_cons_cons, tailText, List.append_assoc]

theorem exchange_front {sep x y : List ℕ} (hbase : base.Coprime m) (front back : List ℕ)
    (l : List (List ℕ)) :
    value base (front ++ List.intercalate sep (x :: y :: l) ++ back) ≡
        value base (front ++ List.intercalate sep (y :: x :: l) ++ back) [MOD m] ↔
      Exchange base m sep x y := by
  have hsplit : ∀ a b : List ℕ, front ++ List.intercalate sep (a :: b :: l) ++ back =
      front ++ (a ++ sep ++ b) ++ (tailText sep l ++ back) := by
    intro a b
    rw [List.intercalate_cons_cons, intercalate_cons]
    simp only [List.append_assoc]
  rw [hsplit, hsplit]
  refine value_replace_iff hbase front _ ?_
  simp only [List.length_append]
  omega

/-- The order of exchangeable parts does not matter. -/
theorem value_of_perm (hbase : base.Coprime m) (sep back : List ℕ) {l l' : List (List ℕ)}
    (hl : l.Perm l') : ∀ front : List ℕ, Exchangeable base m sep l →
      value base (front ++ List.intercalate sep l ++ back) ≡
        value base (front ++ List.intercalate sep l' ++ back) [MOD m] := by
  induction hl with
  | nil => exact fun _ _ => rfl
  | @cons x l₁ l₂ hperm ih =>
      intro front h
      have htail : Exchangeable base m sep l₁ := fun a ha b hb =>
        h a (List.mem_cons_of_mem x ha) b (List.mem_cons_of_mem x hb)
      cases l₁ with
      | nil =>
          rw [List.nil_perm.mp hperm]
      | cons y l₁ =>
          cases l₂ with
          | nil => exact absurd hperm.length_eq (by simp)
          | cons z l₂ =>
              have hrest := ih (front ++ (x ++ sep)) htail
              rw [List.intercalate_cons_cons, List.intercalate_cons_cons]
              simpa only [List.append_assoc] using hrest
  | swap x y l =>
      intro front h
      exact (exchange_front hbase front back l).mpr (h y (by simp) x (by simp))
  | trans h₁ _ ih₁ ih₂ => exact fun front h => (ih₁ front h).trans (ih₂ front (h.perm h₁))

/-- **All orders have one hash** exactly if any two parts can be exchanged. -/
theorem forall_perm_iff {α : Type*} (hbase : base.Coprime m) (sep front back : List ℕ)
    (part : α → List ℕ) (l : List α) :
    (∀ l', l.Perm l' → value base (front ++ List.intercalate sep (l'.map part) ++ back) ≡
        value base (front ++ List.intercalate sep (l.map part) ++ back) [MOD m]) ↔
      Exchangeable base m sep (l.map part) := by
  constructor
  · intro h x hx y hy
    obtain ⟨a, ha, rfl⟩ := List.mem_map.mp hx
    obtain ⟨b, hb, rfl⟩ := List.mem_map.mp hy
    classical
    by_cases hab : a = b
    · subst hab
      rfl
    · -- Put the two in front, in either order.
      have hb' : b ∈ l.erase a := (List.mem_erase_of_ne (Ne.symm hab)).mpr hb
      have hperm : l.Perm (a :: b :: (l.erase a).erase b) :=
        (List.perm_cons_erase ha).trans ((List.perm_cons_erase hb').cons a)
      have hab := h _ hperm
      have hba := h _ (hperm.trans (List.Perm.swap b a _))
      exact (exchange_front hbase front back _).mp (hab.trans hba.symm)
  · intro h l' hl
    exact (value_of_perm hbase sep back (hl.map part) front h).symm

end PolyHash
