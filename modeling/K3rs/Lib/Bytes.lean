import Mathlib.Tactic

/-!
# Byte sequences and machine words

Packets are lists of bytes, and a program reads and writes them through machine
words.  A word is read in the byte order of the host, while a packet carries its
numbers most significant byte first, so every access crosses two orders.  This
file fixes both once:

* `u16OfBe` / `u16ToBe` and `u32OfBe` / `u32ToBe` are the big-endian codecs;
* `u16OfNe` / `u16ToNe` and `u32OfNe` / `u32ToNe` are the same in the order of
  an `Endian`;
* `u16SwapToBe` and `u32SwapToBe` are the value conversions between the two
  orders, the identity on a big-endian host.

`load16`, `load32` and `store` are the bounds-checked accesses to a byte list.
The composition rules are `load8_append_right` and `load16_append_right` for reads
and `splice_splice_adjacent` for writes: consecutive stores collapse to one
store of the concatenation.
-/

namespace Wire

/-- The byte order of a host. -/
inductive Endian where
  | little
  | big
  deriving DecidableEq, Repr

/-! ## Words and their bytes -/

/-- The 16-bit word with bytes `b₀ b₁`, most significant first. -/
def u16OfBe (b₀ b₁ : UInt8) : UInt16 := UInt16.ofNat (b₀.toNat * 256 + b₁.toNat)

/-- Byte `i` of a 16-bit word, counted from the most significant one. -/
def u16Byte (x : UInt16) (i : ℕ) : UInt8 := UInt8.ofNat (x.toNat / 256 ^ (1 - i))

/-- The bytes of a 16-bit word, most significant first. -/
def u16ToBe (x : UInt16) : List UInt8 := [u16Byte x 0, u16Byte x 1]

/-- The 32-bit word with bytes `b₀ b₁ b₂ b₃`, most significant first. -/
def u32OfBe (b₀ b₁ b₂ b₃ : UInt8) : UInt32 :=
  UInt32.ofNat (b₀.toNat * 256 ^ 3 + b₁.toNat * 256 ^ 2 + b₂.toNat * 256 + b₃.toNat)

/-- Byte `i` of a 32-bit word, counted from the most significant one. -/
def u32Byte (x : UInt32) (i : ℕ) : UInt8 := UInt8.ofNat (x.toNat / 256 ^ (3 - i))

/-- The bytes of a 32-bit word, most significant first. -/
def u32ToBe (x : UInt32) : List UInt8 := [u32Byte x 0, u32Byte x 1, u32Byte x 2, u32Byte x 3]

/-- The 16-bit word a host of order `e` reads from the bytes `b₀ b₁`. -/
def u16OfNe : Endian → UInt8 → UInt8 → UInt16
  | .big, b₀, b₁ => u16OfBe b₀ b₁
  | .little, b₀, b₁ => u16OfBe b₁ b₀

/-- The bytes a host of order `e` keeps a 16-bit word in. -/
def u16ToNe : Endian → UInt16 → List UInt8
  | .big, x => [u16Byte x 0, u16Byte x 1]
  | .little, x => [u16Byte x 1, u16Byte x 0]

/-- The 32-bit word a host of order `e` reads from the bytes `b₀ b₁ b₂ b₃`. -/
def u32OfNe : Endian → UInt8 → UInt8 → UInt8 → UInt8 → UInt32
  | .big, b₀, b₁, b₂, b₃ => u32OfBe b₀ b₁ b₂ b₃
  | .little, b₀, b₁, b₂, b₃ => u32OfBe b₃ b₂ b₁ b₀

/-- The bytes a host of order `e` keeps a 32-bit word in. -/
def u32ToNe : Endian → UInt32 → List UInt8
  | .big, x => [u32Byte x 0, u32Byte x 1, u32Byte x 2, u32Byte x 3]
  | .little, x => [u32Byte x 3, u32Byte x 2, u32Byte x 1, u32Byte x 0]

/-- The conversion between host order and big-endian order, on 16-bit values:
the same function in both directions. -/
def u16SwapToBe : Endian → UInt16 → UInt16
  | .big, x => x
  | .little, x => u16OfBe (u16Byte x 1) (u16Byte x 0)

/-- The conversion between host order and big-endian order, on 32-bit values. -/
def u32SwapToBe : Endian → UInt32 → UInt32
  | .big, x => x
  | .little, x => u32OfBe (u32Byte x 3) (u32Byte x 2) (u32Byte x 1) (u32Byte x 0)

theorem u16OfBe_toNat (b₀ b₁ : UInt8) :
    (u16OfBe b₀ b₁).toNat = b₀.toNat * 256 + b₁.toNat := by
  have h₀ := b₀.toNat_lt
  have h₁ := b₁.toNat_lt
  rw [u16OfBe, UInt16.toNat_ofNat']
  omega

theorem u32OfBe_toNat (b₀ b₁ b₂ b₃ : UInt8) :
    (u32OfBe b₀ b₁ b₂ b₃).toNat =
      b₀.toNat * 256 ^ 3 + b₁.toNat * 256 ^ 2 + b₂.toNat * 256 + b₃.toNat := by
  have h₀ := b₀.toNat_lt
  have h₁ := b₁.toNat_lt
  have h₂ := b₂.toNat_lt
  have h₃ := b₃.toNat_lt
  rw [u32OfBe, UInt32.toNat_ofNat']
  omega

@[simp] theorem u16OfBe_bytes (x : UInt16) : u16OfBe (u16Byte x 0) (u16Byte x 1) = x := by
  have hx := x.toNat_lt
  apply UInt16.toNat_inj.mp
  simp only [u16OfBe_toNat, u16Byte, UInt8.toNat_ofNat']
  omega

@[simp] theorem u32OfBe_bytes (x : UInt32) :
    u32OfBe (u32Byte x 0) (u32Byte x 1) (u32Byte x 2) (u32Byte x 3) = x := by
  have hx := x.toNat_lt
  apply UInt32.toNat_inj.mp
  simp only [u32OfBe_toNat, u32Byte, UInt8.toNat_ofNat']
  omega

/-- The bytes of a word read big-endian are the bytes it was read from. -/
theorem u16ToBe_ofBe (b₀ b₁ : UInt8) : u16ToBe (u16OfBe b₀ b₁) = [b₀, b₁] := by
  have h₀ := b₀.toNat_lt
  have h₁ := b₁.toNat_lt
  simp only [u16ToBe, u16Byte, u16OfBe_toNat, List.cons.injEq, and_true,
    ← UInt8.toNat_inj, UInt8.toNat_ofNat']
  omega

theorem u32ToBe_ofBe (b₀ b₁ b₂ b₃ : UInt8) :
    u32ToBe (u32OfBe b₀ b₁ b₂ b₃) = [b₀, b₁, b₂, b₃] := by
  have h₀ := b₀.toNat_lt
  have h₁ := b₁.toNat_lt
  have h₂ := b₂.toNat_lt
  have h₃ := b₃.toNat_lt
  simp only [u32ToBe, u32Byte, u32OfBe_toNat, List.cons.injEq, and_true,
    ← UInt8.toNat_inj, UInt8.toNat_ofNat']
  omega

@[simp] theorem u16Byte_zero_ofBe (b₀ b₁ : UInt8) : u16Byte (u16OfBe b₀ b₁) 0 = b₀ :=
  (List.cons.inj (u16ToBe_ofBe b₀ b₁)).1

@[simp] theorem u16Byte_one_ofBe (b₀ b₁ : UInt8) : u16Byte (u16OfBe b₀ b₁) 1 = b₁ :=
  (List.cons.inj (List.cons.inj (u16ToBe_ofBe b₀ b₁)).2).1

section

variable (b₀ b₁ b₂ b₃ : UInt8)

@[simp] theorem u32Byte_zero_ofBe : u32Byte (u32OfBe b₀ b₁ b₂ b₃) 0 = b₀ := by
  have h := u32ToBe_ofBe b₀ b₁ b₂ b₃
  simp only [u32ToBe, List.cons.injEq] at h
  exact h.1

@[simp] theorem u32Byte_one_ofBe : u32Byte (u32OfBe b₀ b₁ b₂ b₃) 1 = b₁ := by
  have h := u32ToBe_ofBe b₀ b₁ b₂ b₃
  simp only [u32ToBe, List.cons.injEq] at h
  exact h.2.1

@[simp] theorem u32Byte_two_ofBe : u32Byte (u32OfBe b₀ b₁ b₂ b₃) 2 = b₂ := by
  have h := u32ToBe_ofBe b₀ b₁ b₂ b₃
  simp only [u32ToBe, List.cons.injEq] at h
  exact h.2.2.1

@[simp] theorem u32Byte_three_ofBe : u32Byte (u32OfBe b₀ b₁ b₂ b₃) 3 = b₃ := by
  have h := u32ToBe_ofBe b₀ b₁ b₂ b₃
  simp only [u32ToBe, List.cons.injEq] at h
  exact h.2.2.2.1

end

@[simp] theorem length_u16ToBe (x : UInt16) : (u16ToBe x).length = 2 := rfl

@[simp] theorem length_u32ToBe (x : UInt32) : (u32ToBe x).length = 4 := rfl

@[simp] theorem length_u16ToNe (e : Endian) (x : UInt16) : (u16ToNe e x).length = 2 := by
  cases e <;> rfl

@[simp] theorem length_u32ToNe (e : Endian) (x : UInt32) : (u32ToNe e x).length = 4 := by
  cases e <;> rfl

/-- Storing a word and reading it back, in either order. -/
@[simp] theorem u32ToNe_ofNe (e : Endian) (b₀ b₁ b₂ b₃ : UInt8) :
    u32ToNe e (u32OfNe e b₀ b₁ b₂ b₃) = [b₀, b₁, b₂, b₃] := by
  cases e <;> simp [u32ToNe, u32OfNe]

@[simp] theorem u16ToNe_ofNe (e : Endian) (b₀ b₁ : UInt8) :
    u16ToNe e (u16OfNe e b₀ b₁) = [b₀, b₁] := by
  cases e <;> simp [u16ToNe, u16OfNe]

/-- A value converted to big-endian order lies in memory most significant byte
first, whatever the host. -/
@[simp] theorem u16ToNe_swapToBe (e : Endian) (x : UInt16) :
    u16ToNe e (u16SwapToBe e x) = u16ToBe x := by
  cases e <;> simp [u16ToNe, u16SwapToBe, u16ToBe]

@[simp] theorem u32ToNe_swapToBe (e : Endian) (x : UInt32) :
    u32ToNe e (u32SwapToBe e x) = u32ToBe x := by
  cases e <;> simp [u32ToNe, u32SwapToBe, u32ToBe]

/-- Reading a word in host order and converting it is reading it big-endian. -/
@[simp] theorem u16SwapToBe_ofNe (e : Endian) (b₀ b₁ : UInt8) :
    u16SwapToBe e (u16OfNe e b₀ b₁) = u16OfBe b₀ b₁ := by
  cases e <;> simp [u16SwapToBe, u16OfNe]

@[simp] theorem u32SwapToBe_ofNe (e : Endian) (b₀ b₁ b₂ b₃ : UInt8) :
    u32SwapToBe e (u32OfNe e b₀ b₁ b₂ b₃) = u32OfBe b₀ b₁ b₂ b₃ := by
  cases e <;> simp [u32SwapToBe, u32OfNe]

@[simp] theorem u16SwapToBe_involutive (e : Endian) (x : UInt16) :
    u16SwapToBe e (u16SwapToBe e x) = x := by
  cases e <;> simp [u16SwapToBe]

@[simp] theorem u32SwapToBe_involutive (e : Endian) (x : UInt32) :
    u32SwapToBe e (u32SwapToBe e x) = x := by
  cases e <;> simp [u32SwapToBe]

/-- A word read in host order is a converted constant exactly when its
big-endian reading is the constant. -/
theorem u16OfNe_eq_swapToBe (e : Endian) (b₀ b₁ : UInt8) (x : UInt16) :
    u16OfNe e b₀ b₁ = u16SwapToBe e x ↔ u16OfBe b₀ b₁ = x := by
  constructor
  · intro h
    have h' := congrArg (u16SwapToBe e) h
    simpa using h'
  · intro h
    rw [← h, ← u16SwapToBe_ofNe e, u16SwapToBe_involutive]

theorem u32OfNe_eq_swapToBe (e : Endian) (b₀ b₁ b₂ b₃ : UInt8) (x : UInt32) :
    u32OfNe e b₀ b₁ b₂ b₃ = u32SwapToBe e x ↔ u32OfBe b₀ b₁ b₂ b₃ = x := by
  constructor
  · intro h
    have h' := congrArg (u32SwapToBe e) h
    simpa using h'
  · intro h
    rw [← h, ← u32SwapToBe_ofNe e, u32SwapToBe_involutive]

/-! ## Bounds-checked reads -/

/-- The byte at offset `off`. -/
def load8 (f : List UInt8) (off : ℕ) : Option UInt8 :=
  match f.drop off with
  | b :: _ => some b
  | _ => none

/-- The 16-bit word at offset `off`, in host order. -/
def load16 (e : Endian) (f : List UInt8) (off : ℕ) : Option UInt16 :=
  match f.drop off with
  | b₀ :: b₁ :: _ => some (u16OfNe e b₀ b₁)
  | _ => none

/-- The 32-bit word at offset `off`, in host order. -/
def load32 (e : Endian) (f : List UInt8) (off : ℕ) : Option UInt32 :=
  match f.drop off with
  | b₀ :: b₁ :: b₂ :: b₃ :: _ => some (u32OfNe e b₀ b₁ b₂ b₃)
  | _ => none

theorem load8_of_drop {f : List UInt8} {off : ℕ} {b : UInt8} {rest : List UInt8}
    (h : f.drop off = b :: rest) : load8 f off = some b := by
  simp [load8, h]

theorem load16_of_drop {e : Endian} {f : List UInt8} {off : ℕ} {b₀ b₁ : UInt8}
    {rest : List UInt8} (h : f.drop off = b₀ :: b₁ :: rest) :
    load16 e f off = some (u16OfNe e b₀ b₁) := by
  simp [load16, h]

theorem load32_of_drop {e : Endian} {f : List UInt8} {off : ℕ} {b₀ b₁ b₂ b₃ : UInt8}
    {rest : List UInt8} (h : f.drop off = b₀ :: b₁ :: b₂ :: b₃ :: rest) :
    load32 e f off = some (u32OfNe e b₀ b₁ b₂ b₃) := by
  simp [load32, h]

private theorem drop_append_add (a f : List UInt8) (k : ℕ) :
    (a ++ f).drop (a.length + k) = f.drop k := by
  rw [← List.drop_drop, List.drop_left]

/-- Reads past a prefix are reads of what follows it. -/
theorem load8_append_right {a f : List UInt8} {off : ℕ} (k : ℕ) (h : off = a.length + k) :
    load8 (a ++ f) off = load8 f k := by
  rw [load8, load8, h, drop_append_add]

theorem load16_append_right {e : Endian} {a f : List UInt8} {off : ℕ} (k : ℕ)
    (h : off = a.length + k) : load16 e (a ++ f) off = load16 e f k := by
  rw [load16, load16, h, drop_append_add]

theorem drop_eq_getD_cons {f : List UInt8} {off : ℕ} (h : off < f.length) :
    f.drop off = f.getD off 0 :: f.drop (off + 1) := by
  rw [List.drop_eq_getElem_cons h]
  simp [List.getD_eq_getElem?_getD, h]

/-- In bounds, a read returns the bytes at its offset. -/
theorem load8_eq {f : List UInt8} {off : ℕ} (h : off + 1 ≤ f.length) :
    load8 f off = some (f.getD off 0) :=
  load8_of_drop (drop_eq_getD_cons h)

theorem load16_eq {e : Endian} {f : List UInt8} {off : ℕ} (h : off + 2 ≤ f.length) :
    load16 e f off = some (u16OfNe e (f.getD off 0) (f.getD (off + 1) 0)) := by
  apply load16_of_drop
  rw [drop_eq_getD_cons (by omega), drop_eq_getD_cons (by omega)]

theorem load32_eq {e : Endian} {f : List UInt8} {off : ℕ} (h : off + 4 ≤ f.length) :
    load32 e f off = some (u32OfNe e (f.getD off 0) (f.getD (off + 1) 0)
      (f.getD (off + 2) 0) (f.getD (off + 3) 0)) := by
  apply load32_of_drop
  rw [drop_eq_getD_cons (by omega), drop_eq_getD_cons (by omega),
    drop_eq_getD_cons (by omega), drop_eq_getD_cons (by omega)]

/-- Out of bounds, it fails. -/
theorem load16_eq_none {e : Endian} {f : List UInt8} {off : ℕ} (h : f.length < off + 2) :
    load16 e f off = none := by
  rcases hd : f.drop off with _ | ⟨b₀, _ | ⟨b₁, rest⟩⟩
  · simp [load16, hd]
  · simp [load16, hd]
  · have := congrArg List.length hd
    simp at this
    omega

theorem load32_eq_none {e : Endian} {f : List UInt8} {off : ℕ} (h : f.length < off + 4) :
    load32 e f off = none := by
  rcases hd : f.drop off with _ | ⟨b₀, _ | ⟨b₁, _ | ⟨b₂, _ | ⟨b₃, rest⟩⟩⟩⟩
  · simp [load32, hd]
  · simp [load32, hd]
  · simp [load32, hd]
  · simp [load32, hd]
  · have := congrArg List.length hd
    simp at this
    omega

/-! ## Bounds-checked writes -/

/-- The bytes of `f` with those from `off` on overwritten by `bs`. -/
def splice (f : List UInt8) (off : ℕ) (bs : List UInt8) : List UInt8 :=
  f.take off ++ (bs ++ f.drop (off + bs.length))

/-- Overwrite in place, refused when `bs` does not fit. -/
def store (f : List UInt8) (off : ℕ) (bs : List UInt8) : Option (List UInt8) :=
  if off + bs.length ≤ f.length then some (splice f off bs) else none

theorem store_eq_some {f bs : List UInt8} {off : ℕ} (h : off + bs.length ≤ f.length) :
    store f off bs = some (splice f off bs) := if_pos h

theorem store_eq_some_iff {f f' bs : List UInt8} {off : ℕ} :
    store f off bs = some f' ↔ off + bs.length ≤ f.length ∧ f' = splice f off bs := by
  unfold store
  split <;> simp_all [eq_comm]

theorem length_splice {f bs : List UInt8} {off : ℕ} (h : off + bs.length ≤ f.length) :
    (splice f off bs).length = f.length := by
  simp only [splice, List.length_append, List.length_take, List.length_drop]
  omega

/-- Bytes before the written range stay. -/
theorem take_splice {f bs : List UInt8} {off k : ℕ} (hk : k ≤ off)
    (h : off + bs.length ≤ f.length) : (splice f off bs).take k = f.take k := by
  have hlen : k ≤ (f.take off).length := by
    rw [List.length_take]
    omega
  rw [splice, List.take_append_of_le_length hlen, List.take_take, min_eq_left hk]

/-- Bytes behind the written range stay. -/
theorem drop_splice {f bs : List UInt8} {off k : ℕ} (hoff : off ≤ f.length)
    (hk : off + bs.length ≤ k) : (splice f off bs).drop k = f.drop k := by
  rw [splice, ← List.append_assoc, List.drop_append, List.drop_eq_nil_of_le (by simp; omega),
    List.nil_append, List.drop_drop, List.length_append, List.length_take_of_le hoff]
  congr 1
  omega

/-- The general form of a write: the overwritten middle is replaced. -/
theorem splice_append {a m r bs : List UInt8} {off : ℕ} (hoff : off = a.length)
    (hlen : m.length = bs.length) : splice (a ++ (m ++ r)) off bs = a ++ (bs ++ r) := by
  subst hoff
  simp [splice, List.drop_append, ← hlen]

/-- **Adjacent writes are one write.** -/
theorem splice_splice_adjacent {f a b : List UInt8} {off off' : ℕ}
    (hoff : off' = off + a.length) (h : off + a.length + b.length ≤ f.length) :
    splice (splice f off a) off' b = splice f off (a ++ b) := by
  subst hoff
  have htake : (f.take off).length = off := by
    rw [List.length_take]
    omega
  have hpre : (f.take off ++ a).length = off + a.length := by
    simp [htake]
  have hmid : splice f off a = (f.take off ++ a) ++ f.drop (off + a.length) := by
    rw [splice, List.append_assoc]
  rw [hmid, splice, splice, List.take_left' hpre, ← hpre, drop_append_add, List.drop_drop,
    hpre, List.length_append, ← Nat.add_assoc]
  simp only [List.append_assoc]

/-- A second write of the same range replaces the first. -/
theorem splice_splice_self {f a b : List UInt8} {off : ℕ} (hlen : a.length = b.length)
    (h : off + a.length ≤ f.length) : splice (splice f off a) off b = splice f off b := by
  have htake : (f.take off).length = off := by
    rw [List.length_take]
    omega
  have hinner : splice f off a = f.take off ++ (a ++ f.drop (off + a.length)) := rfl
  rw [hinner, splice_append htake.symm hlen, hlen, splice]

/-- A write past a leading part is a write of what follows it. -/
theorem splice_append_right {a f bs : List UInt8} {off : ℕ} (k : ℕ) (h : off = a.length + k) :
    splice (a ++ f) off bs = a ++ splice f k bs := by
  subst h
  rw [splice, splice, Nat.add_assoc, drop_append_add, List.take_length_add_append,
    List.append_assoc]

/-- The written bytes are read back. -/
theorem getD_splice {f bs : List UInt8} {off i : ℕ} (h : off + bs.length ≤ f.length)
    (hi : i < bs.length) : (splice f off bs).getD (off + i) 0 = bs.getD i 0 := by
  have htake : (f.take off).length = off := by
    rw [List.length_take]
    omega
  simp only [splice, List.getD_eq_getElem?_getD]
  rw [List.getElem?_append_right (by omega), htake, Nat.add_sub_cancel_left,
    List.getElem?_append_left hi]

/-- The other bytes stay. -/
theorem getElem?_splice_of_outside {f bs : List UInt8} {off i : ℕ}
    (h : off + bs.length ≤ f.length) (hi : i < off ∨ off + bs.length ≤ i) :
    (splice f off bs)[i]? = f[i]? := by
  have htake : (f.take off).length = off := by
    rw [List.length_take]
    omega
  rcases hi with hi | hi
  · rw [splice, List.getElem?_append_left (by omega), List.getElem?_take_of_lt hi]
  · rw [splice, List.getElem?_append_right (by omega), htake,
      List.getElem?_append_right (by omega), List.getElem?_drop]
    congr 1
    omega

end Wire
