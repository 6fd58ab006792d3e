import Mathlib.Tactic

/-!
# UTF-8

Texts on a byte stream.  An ASCII character is one byte, and its byte occurs in no other character;
so a delimiter may be looked for in the bytes or in the text (`takeWhile_asBytes`).
-/

namespace Utf8

/-- `str::as_bytes`. -/
def asBytes (text : List Char) : List UInt8 := text.flatMap String.utf8EncodeChar

/-- `String::from_utf8`. -/
def fromUtf8 (bytes : List UInt8) : Option (List Char) :=
  bytes.toByteArray.utf8Decode?.map Array.toList

/-- The ranges of the bytes that may follow a first byte, or `none` if no character starts with
it. -/
def following (first : UInt8) : Option (List (UInt8 × UInt8)) :=
  if first < 0x80 then some []
  else if first < 0xC2 then none
  else if first < 0xE0 then some [(0x80, 0xBF)]
  else if first = 0xE0 then some [(0xA0, 0xBF), (0x80, 0xBF)]
  else if first = 0xED then some [(0x80, 0x9F), (0x80, 0xBF)]
  else if first < 0xF0 then some [(0x80, 0xBF), (0x80, 0xBF)]
  else if first = 0xF0 then some [(0x90, 0xBF), (0x80, 0xBF), (0x80, 0xBF)]
  else if first < 0xF4 then some [(0x80, 0xBF), (0x80, 0xBF), (0x80, 0xBF)]
  else if first = 0xF4 then some [(0x80, 0x8F), (0x80, 0xBF), (0x80, 0xBF)]
  else none

/-- The bytes that are in these ranges, up to the first that is not. -/
def takeRanges : List (UInt8 × UInt8) → List UInt8 → List UInt8
  | (lo, hi) :: ranges, b :: bytes =>
      if lo ≤ b ∧ b ≤ hi then b :: takeRanges ranges bytes else []
  | _, _ => []

/-- `String::from_utf8_lossy`.  What starts like a character and is none is replaced as a whole. -/
def fromUtf8Lossy : List UInt8 → List Char
  | [] => []
  | first :: bytes =>
      let taken := takeRanges ((following first).getD []) bytes
      (fromUtf8 (first :: taken)).getD ['\uFFFD'] ++ fromUtf8Lossy (bytes.drop taken.length)
termination_by bytes => bytes.length

@[simp] theorem fromUtf8_asBytes (text : List Char) : fromUtf8 (asBytes text) = some text := by
  have hdecode : (asBytes text).toByteArray.utf8Decode? = some text.toArray :=
    List.utf8Decode?_utf8Encode
  rw [fromUtf8, hdecode]
  rfl

@[simp] theorem asBytes_nil : asBytes [] = [] := rfl

theorem asBytes_cons (c : Char) (text : List Char) :
    asBytes (c :: text) = String.utf8EncodeChar c ++ asBytes text :=
  List.flatMap_cons

theorem asBytes_append (text text' : List Char) :
    asBytes (text ++ text') = asBytes text ++ asBytes text' :=
  List.flatMap_append

/-- What is read as a text are the bytes of the text. -/
theorem asBytes_of_fromUtf8 {bytes : List UInt8} {text : List Char}
    (h : fromUtf8 bytes = some text) : asBytes text = bytes := by
  obtain ⟨chars, hdecode, rfl⟩ := Option.map_eq_some_iff.mp h
  have hsome : bytes.toByteArray.utf8Decode?.isSome := by rw [hdecode]; rfl
  have hencode := ByteArray.utf8Encode_get_utf8Decode? (h := hsome)
  simp only [hdecode, Option.get_some] at hencode
  have hlist := congrArg (fun b : ByteArray => b.data.toList) hencode
  simpa [asBytes, List.utf8Encode] using hlist

/-- The bytes of a character show where it ends. -/
theorem utf8EncodeChar_append_inj {c c' : Char} {xs ys : List UInt8}
    (h : String.utf8EncodeChar c ++ xs = String.utf8EncodeChar c' ++ ys) : c = c' ∧ xs = ys := by
  have hread : ∀ (c : Char) (xs : List UInt8),
      ByteArray.utf8DecodeChar? (String.utf8EncodeChar c ++ xs).toByteArray 0 = some c := by
    intro c xs
    rw [List.toByteArray_append]
    exact ByteArray.utf8DecodeChar?_utf8EncodeChar_append
  have hc : c = c' := by
    have hcc := hread c xs
    rw [h, hread c' ys] at hcc
    exact (Option.some.inj hcc).symm
  subst hc
  exact ⟨rfl, List.append_cancel_left h⟩

/-- **A text that is cut off at a byte** is a text that is cut off at a character. -/
theorem exists_eq_append_of_asBytes {cut text : List Char} {rest : List UInt8}
    (h : asBytes cut ++ rest = asBytes text) : ∃ more, text = cut ++ more ∧ rest = asBytes more := by
  induction cut generalizing text with
  | nil => exact ⟨text, rfl, h⟩
  | cons c cut ih =>
      rw [asBytes_cons, List.append_assoc] at h
      cases text with
      | nil =>
          rw [asBytes_nil, List.append_eq_nil_iff] at h
          exact absurd h.1 String.utf8EncodeChar_ne_nil
      | cons d text =>
          rw [asBytes_cons] at h
          obtain ⟨rfl, htail⟩ := utf8EncodeChar_append_inj h
          obtain ⟨more, rfl, hrest⟩ := ih htail
          exact ⟨more, rfl, hrest⟩

/-! ## ASCII characters -/

section Ascii

variable {a c : Char} {b : UInt8}

/-- An ASCII character is its own byte. -/
theorem utf8EncodeChar_ascii (h : c.toNat < 128) : String.utf8EncodeChar c = [c.toUInt8] := by
  have hsize : c.utf8Size = 1 := by
    rw [Char.utf8Size_eq_one_iff, UInt32.le_iff_toNat_le]
    exact Nat.le_of_lt_succ h
  exact String.utf8EncodeChar_eq_singleton hsize

/-- ASCII bytes are their characters, whatever else is replaced. -/
theorem fromUtf8Lossy_ascii {text : List Char} (h : ∀ c ∈ text, c.toNat < 128) :
    fromUtf8Lossy (asBytes text) = text := by
  induction text with
  | nil =>
      rw [asBytes_nil, fromUtf8Lossy]
  | cons c text ih =>
      obtain ⟨hc, htext⟩ := List.forall_mem_cons.mp h
      have hbyte : c.toUInt8 < 0x80 := by
        rw [UInt8.lt_iff_toNat_lt, show c.toUInt8.toNat = c.toNat from
          (UInt32.toNat_toUInt8 c.val).trans (Nat.mod_eq_of_lt (hc.trans (by decide)))]
        exact hc
      have hone : fromUtf8 [c.toUInt8] = some [c] := by
        rw [← utf8EncodeChar_ascii hc, ← List.append_nil (String.utf8EncodeChar c)]
        exact fromUtf8_asBytes [c]
      have hnone : ∀ bytes, takeRanges [] bytes = [] := by
        intro bytes
        cases bytes
        all_goals rfl
      rw [asBytes_cons, utf8EncodeChar_ascii hc, List.singleton_append, fromUtf8Lossy, following,
        if_pos hbyte, Option.getD_some, hnone, hone, Option.getD_some, List.length_nil,
        List.drop_zero, ih htext]
      rfl

/-- The bytes of all other characters have their highest bit set. -/
theorem le_of_mem_utf8EncodeChar (h : 128 ≤ c.toNat) (hb : b ∈ String.utf8EncodeChar c) :
    128 ≤ b.toNat := by
  have hor : ∀ x y : UInt8, 128 ≤ y.toNat → 128 ≤ (x ||| y).toNat := by
    intro x y hy
    rw [UInt8.toNat_or]
    exact hy.trans Nat.right_le_or
  rcases c.utf8Size_eq with hsize | hsize | hsize | hsize
  · rw [Char.utf8Size_eq_one_iff, UInt32.le_iff_toNat_le] at hsize
    exact absurd hsize (Nat.not_le.mpr h)
  · rw [String.utf8EncodeChar_eq_cons_cons hsize] at hb
    fin_cases hb
    all_goals exact hor _ _ (by decide)
  · rw [String.utf8EncodeChar_eq_cons_cons_cons hsize] at hb
    fin_cases hb
    all_goals exact hor _ _ (by decide)
  · rw [String.utf8EncodeChar_eq_cons_cons_cons_cons hsize] at hb
    fin_cases hb
    all_goals exact hor _ _ (by decide)

/-- The byte of an ASCII character occurs in no other character. -/
theorem toUInt8_mem_utf8EncodeChar (ha : a.toNat < 128) :
    a.toUInt8 ∈ String.utf8EncodeChar c ↔ c = a := by
  have hbyte : ∀ {x : Char}, x.toNat < 128 → x.toUInt8.toNat = x.toNat := by
    intro x hx
    exact (UInt32.toNat_toUInt8 x.val).trans (Nat.mod_eq_of_lt (hx.trans (by decide)))
  constructor
  · intro hmem
    by_cases hc : c.toNat < 128
    · rw [utf8EncodeChar_ascii hc, List.mem_singleton] at hmem
      have heq := congrArg UInt8.toNat hmem
      rw [hbyte ha, hbyte hc] at heq
      exact (Char.toNat_inj.mp heq).symm
    · have hge := le_of_mem_utf8EncodeChar (not_lt.mp hc) hmem
      rw [hbyte ha] at hge
      omega
  · rintro rfl
    rw [utf8EncodeChar_ascii ha]
    exact List.mem_singleton_self _

/-- **A line of bytes is the line of the text**: reading up to an ASCII delimiter. -/
theorem takeWhile_asBytes (ha : a.toNat < 128) (text : List Char) (rest : List UInt8) :
    (asBytes (text ++ [a]) ++ rest).takeWhile (· ≠ a.toUInt8) =
      asBytes (text.takeWhile (· ≠ a)) := by
  have hstop : ∀ more : List UInt8,
      (String.utf8EncodeChar a ++ more).takeWhile (· ≠ a.toUInt8) = [] := by
    intro more
    rw [utf8EncodeChar_ascii ha, List.singleton_append, List.takeWhile_cons_of_neg (by simp)]
  induction text with
  | nil =>
      rw [List.nil_append, asBytes_cons, asBytes_nil, List.append_nil, hstop]
      rfl
  | cons c text ih =>
      rw [List.cons_append, asBytes_cons, List.append_assoc]
      by_cases hc : c = a
      · rw [hc, hstop, List.takeWhile_cons_of_neg (by simp)]
        rfl
      · have hother : ∀ b ∈ String.utf8EncodeChar c, decide (b ≠ a.toUInt8) = true := by
          intro b hb
          refine decide_eq_true fun heq => hc ?_
          exact (toUInt8_mem_utf8EncodeChar ha).mp (heq ▸ hb)
        rw [List.takeWhile_append_of_pos hother, ih, List.takeWhile_cons_of_pos (by simp [hc]),
          asBytes_cons]

/-- The first byte of a text belongs to its first character. -/
theorem exists_asBytes_cons (c : Char) (text : List Char) :
    ∃ first rest, asBytes (c :: text) = first :: rest ∧ first ∈ String.utf8EncodeChar c := by
  rw [asBytes_cons]
  cases hbytes : String.utf8EncodeChar c with
  | nil => exact absurd hbytes String.utf8EncodeChar_ne_nil
  | cons first more => exact ⟨first, more ++ asBytes text, rfl, List.mem_cons_self⟩

end Ascii

end Utf8
