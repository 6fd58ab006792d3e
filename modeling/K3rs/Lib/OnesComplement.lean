import Mathlib.Tactic
import Mathlib.Data.Nat.ModEq

/-!
# One's-complement checksums

A 16-bit one's-complement sum is a sum modulo `65535` with two representations
of zero.  `carry` is one end-around carry and `fold` enough of them for any sum
below `2 ^ 40`; both stay in the residue class of their argument
(`carry_modEq`, `fold_modEq`), so every law of this arithmetic is a congruence.

`update` is the incremental update of RFC 1624, `HC' = ~(~HC + ~m + m')`, for a
32-bit field that changes from `m` to `m'`; `update_modEq` is the only fact about
it that its users need.  `wordSum` is the sum a receiver forms over a header; the
header verifies when that sum folds to all ones (`fold_eq_iff`).
-/

namespace OnesComplement

/-- One end-around carry. -/
def carry (s : ℕ) : ℕ := s % 65536 + s / 65536

/-- A sum folded to 16 bits. -/
def fold (s : ℕ) : ℕ := carry (carry (carry s))

/-- A carry moves within the residue class: `65536` is `1` modulo `65535`. -/
theorem carry_modEq (s : ℕ) : carry s ≡ s [MOD 65535] := by
  unfold carry Nat.ModEq
  omega

theorem carry_pos {s : ℕ} (h : 0 < s) : 0 < carry s := by
  unfold carry
  omega

/-- Two carries bring a sum of a few words to 16 bits. -/
theorem carry_carry_lt {s : ℕ} (h : s < 2 ^ 31) : carry (carry s) < 65536 := by
  unfold carry
  omega

/-- A residue class has one representative in `1 .. 65535`. -/
theorem eq_of_modEq {a b : ℕ} (ha : 0 < a) (hb : 0 < b) (hae : a < 65536) (hbe : b < 65536)
    (h : a ≡ b [MOD 65535]) : a = b := by
  unfold Nat.ModEq at h
  omega

theorem fold_modEq (s : ℕ) : fold s ≡ s [MOD 65535] :=
  ((carry_modEq _).trans (carry_modEq _)).trans (carry_modEq _)

/-- A sum of a few words that folds to all ones does so after two carries. -/
theorem carry_carry_eq {s : ℕ} (hlt : s < 2 ^ 31) (h : fold s = 65535) :
    carry (carry s) = 65535 := by
  have hcarry := carry_carry_lt hlt
  have hclass : carry (carry s) ≡ 65535 [MOD 65535] := h ▸ (carry_modEq _).symm
  have hpos : 0 < carry (carry s) := by
    rcases Nat.eq_zero_or_pos (carry (carry s)) with hzero | hpos
    · rw [fold, hzero] at h
      cases h
    · exact hpos
  exact eq_of_modEq hpos (by omega) hcarry (by omega) hclass

theorem fold_lt {s : ℕ} (h : s < 2 ^ 40) : fold s < 65536 := by
  unfold fold carry
  omega

theorem fold_pos {s : ℕ} (h : 0 < s) : 0 < fold s :=
  carry_pos (carry_pos (carry_pos h))

/-- The RFC 1624 update of a checksum `hc` under a change of a 32-bit field from
`m` to `m'`: complement, add, complement. -/
def update (hc : UInt16) (m m' : UInt32) : UInt16 :=
  UInt16.ofNat (65535 - fold ((65535 - hc.toNat) + (4294967295 - m.toNat) + m'.toNat))

/-- The update adds the old field to the checksum and takes the new one away. -/
theorem update_modEq (hc : UInt16) (m m' : UInt32) :
    (update hc m m').toNat + m'.toNat ≡ hc.toNat + m.toNat [MOD 65535] := by
  have hhc := hc.toNat_lt
  have hm := m.toNat_lt
  have hm' := m'.toNat_lt
  set s := (65535 - hc.toNat) + (4294967295 - m.toNat) + m'.toNat with hs
  have hlt : fold s < 65536 := fold_lt (by omega)
  have hmod : fold s % 65535 = s % 65535 := fold_modEq s
  have hval : (update hc m m').toNat = 65535 - fold s := by
    rw [update, UInt16.toNat_ofNat', ← hs]
    omega
  rw [hval]
  unfold Nat.ModEq
  omega

/-- Swapping the bytes of a word multiplies it by 256. -/
theorem swap_modEq (b₀ b₁ : ℕ) : b₀ * 256 + b₁ ≡ 256 * (b₁ * 256 + b₀) [MOD 65535] := by
  have hsplit : 256 * (b₁ * 256 + b₀) = b₀ * 256 + b₁ + 65535 * b₁ := by ring
  rw [hsplit, Nat.ModEq, Nat.add_mul_mod_self_left]

/-- The sum of the big-endian 16-bit words of a byte string. -/
def wordSum : List UInt8 → ℕ
  | b₀ :: b₁ :: rest => b₀.toNat * 256 + b₁.toNat + wordSum rest
  | [b] => b.toNat * 256
  | [] => 0

/-- A sum may be split where a word ends. -/
theorem wordSum_append {a : List UInt8} (b : List UInt8) (h : 2 ∣ a.length) :
    wordSum (a ++ b) = wordSum a + wordSum b := by
  induction a using wordSum.induct with
  | case1 b₀ b₁ rest ih =>
      have hrest : 2 ∣ rest.length := by
        simp only [List.length_cons] at h
        omega
      rw [List.cons_append, List.cons_append, wordSum, wordSum, ih hrest]
      exact (Nat.add_assoc _ _ _).symm
  | case2 b₀ =>
      rw [List.length_singleton] at h
      omega
  | case3 => rw [List.nil_append, wordSum, Nat.zero_add]

theorem wordSum_le (a : List UInt8) : wordSum a ≤ 65535 * a.length := by
  induction a using wordSum.induct with
  | case1 b₀ b₁ rest ih =>
      have h₀ := b₀.toNat_lt
      have h₁ := b₁.toNat_lt
      rw [wordSum, List.length_cons, List.length_cons]
      omega
  | case2 b₀ =>
      have h₀ := b₀.toNat_lt
      rw [wordSum, List.length_singleton]
      omega
  | case3 => exact Nat.zero_le _

/-- A nonzero sum that vanishes modulo `65535` folds to all ones. -/
theorem fold_eq_of_modEq_zero {s : ℕ} (hpos : 0 < s) (hlt : s < 2 ^ 40)
    (h : s ≡ 0 [MOD 65535]) : fold s = 65535 := by
  have hfold : fold s % 65535 = 0 := (fold_modEq s).trans h
  have hfoldlt := fold_lt hlt
  have hfoldpos := fold_pos hpos
  omega

/-- All ones is what a receiver waits for. -/
theorem fold_eq_iff {s : ℕ} (hpos : 0 < s) (hlt : s < 2 ^ 40) :
    fold s = 65535 ↔ s ≡ 0 [MOD 65535] := by
  constructor
  · intro h
    have hfold := fold_modEq s
    rw [h] at hfold
    exact hfold.symm
  · exact fold_eq_of_modEq_zero hpos hlt

/-- Unless the checksum is `0xffff` and stays so, the update does not yield the representation of
zero that has all ones. -/
theorem update_lt {hc : UInt16} {m : UInt32} (h : hc.toNat < 65535 ∨ m = 0) (m' : UInt32) :
    (update hc m m').toNat < 65535 := by
  have hhc := hc.toNat_lt
  have hm := m.toNat_lt
  have hm' := m'.toNat_lt
  have hpos : 0 < (65535 - hc.toNat) + (4294967295 - m.toNat) + m'.toNat := by
    rcases h with hlt | rfl
    · omega
    · rw [UInt32.toNat_zero]
      omega
  have hlt := fold_lt (s := (65535 - hc.toNat) + (4294967295 - m.toNat) + m'.toNat) (by omega)
  have hfoldpos := fold_pos hpos
  rw [update, UInt16.toNat_ofNat']
  omega

/-- **The canonical zero.**  When a field that was zero is filled in, the update never yields the
representation of zero that has all ones. -/
theorem update_zero_lt (hc : UInt16) (m' : UInt32) : (update hc 0 m').toNat < 65535 :=
  update_lt (Or.inr rfl) m'

/-! ## Several updates -/

/-- One update after another. -/
def updateAll (hc : UInt16) (changes : List (UInt32 × UInt32)) : UInt16 :=
  changes.foldl (fun hc change => update hc change.1 change.2) hc

/-- Together they add the old fields and take the new ones away. -/
theorem updateAll_modEq (changes : List (UInt32 × UInt32)) (hc : UInt16) :
    (updateAll hc changes).toNat + (changes.map fun p => p.2.toNat).sum ≡
      hc.toNat + (changes.map fun p => p.1.toNat).sum [MOD 65535] := by
  induction changes generalizing hc with
  | nil => rfl
  | cons change rest ih =>
      have hfirst := update_modEq hc change.1 change.2
      rw [List.map_cons, List.map_cons, List.sum_cons, List.sum_cons]
      calc (updateAll (update hc change.1 change.2) rest).toNat +
            (change.2.toNat + (rest.map fun p => p.2.toNat).sum)
          = (updateAll (update hc change.1 change.2) rest).toNat +
              (rest.map fun p => p.2.toNat).sum + change.2.toNat := by ring
        _ ≡ (update hc change.1 change.2).toNat + (rest.map fun p => p.1.toNat).sum +
              change.2.toNat [MOD 65535] := (ih _).add_right _
        _ = (update hc change.1 change.2).toNat + change.2.toNat +
              (rest.map fun p => p.1.toNat).sum := by ring
        _ ≡ hc.toNat + change.1.toNat + (rest.map fun p => p.1.toNat).sum [MOD 65535] :=
            hfirst.add_right _
        _ = hc.toNat + (change.1.toNat + (rest.map fun p => p.1.toNat).sum) := by ring

/-- **The order of the updates** matters for the representation of zero only. -/
theorem updateAll_perm {changes changes' : List (UInt32 × UInt32)} (h : changes'.Perm changes)
    (hc : UInt16) : (updateAll hc changes').toNat ≡ (updateAll hc changes).toNat [MOD 65535] := by
  have hone := updateAll_modEq changes hc
  have hother := updateAll_modEq changes' hc
  rw [(h.map fun p => p.2.toNat).sum_eq, (h.map fun p => p.1.toNat).sum_eq] at hother
  exact Nat.ModEq.add_right_cancel' _ (hother.trans hone.symm)

/-- Once a zero has been filled in, the checksum is not `0xffff`. -/
theorem updateAll_lt (changes : List (UInt32 × UInt32)) {hc : UInt16}
    (h : hc.toNat < 65535 ∨ ∃ change ∈ changes, change.1 = 0) :
    (updateAll hc changes).toNat < 65535 := by
  induction changes generalizing hc with
  | nil =>
      rcases h with hlt | ⟨change, hmem, -⟩
      · exact hlt
      · cases hmem
  | cons change rest ih =>
      show (updateAll (update hc change.1 change.2) rest).toNat < 65535
      refine ih ?_
      rcases h with hlt | ⟨c, hmem, hzero⟩
      · exact Or.inl (update_lt (Or.inl hlt) _)
      · rcases List.mem_cons.mp hmem with rfl | hrest
        · exact Or.inl (update_lt (Or.inr hzero) _)
        · exact Or.inr ⟨c, hrest, hzero⟩

end OnesComplement
