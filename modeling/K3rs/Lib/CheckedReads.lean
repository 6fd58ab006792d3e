import K3rs.Lib.Bytes

/-!
# Reads that may be out of bounds

An index or a slice beyond the end of a byte string ends the program.  Here such a read is an
`outOfBounds`, so that a program reads within bounds exactly if it ends in `.ok`; `exists_ok_bind`
proves that step by step.

Where a byte string is known to be one piece behind another, `read_append` and `slice_append` say
what is read at the seam.
-/

namespace CheckedReads

open Wire

/-- How a program ends that reads out of bounds. -/
inductive Panic where
  | outOfBounds
  deriving DecidableEq, Repr

/-- A program that may read out of bounds. -/
abbrev Checked (α : Type) := Except Panic α

/-- `bytes[i]`. -/
def read (bytes : List UInt8) (i : ℕ) : Checked UInt8 :=
  match bytes[i]? with
  | some b => .ok b
  | none => .error .outOfBounds

/-- `bytes[start..stop]`. -/
def slice (bytes : List UInt8) (start stop : ℕ) : Checked (List UInt8) :=
  if start ≤ stop ∧ stop ≤ bytes.length then .ok ((bytes.drop start).take (stop - start))
  else .error .outOfBounds

/-- `u16::from_be_bytes([bytes[i], bytes[i + 1]])`. -/
def readU16 (bytes : List UInt8) (i : ℕ) : Checked UInt16 := do
  let b₀ ← read bytes i
  let b₁ ← read bytes (i + 1)
  return u16OfBe b₀ b₁

/-- `bytes[i] = b`. -/
def write (bytes : List UInt8) (i : ℕ) (b : UInt8) : Checked (List UInt8) :=
  if i < bytes.length then .ok (bytes.set i b) else .error .outOfBounds

theorem ok_bind {α β : Type} (a : α) (f : α → Checked β) : (Except.ok a >>= f) = f a := rfl

/-- A program reads within bounds if its first step does, and what follows every value that this
step can have. -/
theorem exists_ok_bind {α β : Type} {x : Checked α} {f : α → Checked β} (hx : ∃ a, x = .ok a)
    (hf : ∀ a, x = .ok a → ∃ b, f a = .ok b) : ∃ b, (x >>= f) = .ok b := by
  obtain ⟨a, ha⟩ := hx
  rw [ha, ok_bind]
  exact hf a ha

section Reads

variable {bytes : List UInt8} {i start stop : ℕ}

theorem read_eq (h : i < bytes.length) : read bytes i = .ok bytes[i] := by
  rw [read, List.getElem?_eq_getElem h]

theorem slice_eq (hstart : start ≤ stop) (hstop : stop ≤ bytes.length) :
    slice bytes start stop = .ok ((bytes.drop start).take (stop - start)) :=
  if_pos ⟨hstart, hstop⟩

theorem readU16_eq (h : i + 1 < bytes.length) :
    readU16 bytes i = .ok (u16OfBe (bytes.get ⟨i, by omega⟩) bytes[i + 1]) := by
  rw [readU16, read_eq (by omega), ok_bind, read_eq h, ok_bind]
  rfl

theorem write_eq (b : UInt8) (h : i < bytes.length) : write bytes i b = .ok (bytes.set i b) :=
  if_pos h

/-- The byte behind a piece. -/
theorem read_append {pre : List UInt8} (b : UInt8) (rest : List UInt8) (h : i = pre.length) :
    read (pre ++ b :: rest) i = .ok b := by
  subst h
  rw [read, List.getElem?_append_right le_rfl, Nat.sub_self]
  rfl

/-- The word behind a piece. -/
theorem readU16_append {pre : List UInt8} (w : UInt16) (rest : List UInt8) (h : i = pre.length) :
    readU16 (pre ++ (u16ToBe w ++ rest)) i = .ok w := by
  have hsecond : read (pre ++ (u16ToBe w ++ rest)) (i + 1) = .ok (u16Byte w 1) := by
    have hsplit : pre ++ (u16ToBe w ++ rest) = pre ++ [u16Byte w 0] ++ u16Byte w 1 :: rest := by
      rw [List.append_assoc]
      rfl
    rw [hsplit]
    exact read_append _ _ (by simp [h])
  have hfirst : read (pre ++ (u16ToBe w ++ rest)) i = .ok (u16Byte w 0) := read_append _ _ h
  rw [readU16, hfirst, ok_bind, hsecond, ok_bind, u16OfBe_bytes]
  rfl

/-- The piece behind a piece. -/
theorem slice_append {pre mid : List UInt8} (rest : List UInt8) (hstart : start = pre.length)
    (hstop : stop = start + mid.length) : slice (pre ++ (mid ++ rest)) start stop = .ok mid := by
  subst hstart hstop
  rw [slice_eq (Nat.le_add_right _ _) (by simp), List.drop_left, Nat.add_sub_cancel_left,
    List.take_left]

end Reads

end CheckedReads
