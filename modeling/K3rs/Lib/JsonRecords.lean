import K3rs.Lib.Json
import K3rs.Lib.Lines

/-!
# Records in JSON

Readers for the fields of an object, as the derived readers of `serde` have them: a field that
occurs twice is refused, one that is not asked for is ignored, and one that is missing is refused
unless there is a default for it.

The compact text of a value is one line: it has no control characters (`le_of_mem_render`).
-/

namespace Json

variable {α : Type*}

/-! ## Fields -/

/-- The values that an object has under a name. -/
def valuesOf (name : String) : Json → List Json
  | .obj fields => (fields.filter fun f => decide (f.1 = name)).map Prod.snd
  | _ => []

/-- A field that must be there. -/
def field (name : String) (decode : Json → Option α) (v : Json) : Option α :=
  match valuesOf name v with
  | [x] => decode x
  | _ => none

/-- A field with a default. -/
def fieldOr (default : α) (name : String) (decode : Json → Option α) (v : Json) : Option α :=
  match valuesOf name v with
  | [] => some default
  | [x] => decode x
  | _ => none

section Fields

variable {name other : String} {x : Json} {fields : List (String × Json)} {decode : Json → Option α}

/-- A field of another name is passed over. -/
theorem valuesOf_cons_of_ne (h : other ≠ name) :
    valuesOf name (.obj ((other, x) :: fields)) = valuesOf name (.obj fields) := by
  show (List.filter _ (_ :: _)).map Prod.snd = (List.filter _ _).map Prod.snd
  rw [List.filter_cons_of_neg (by simpa using h)]

theorem valuesOf_cons_self (h : name ∉ fields.map Prod.fst) :
    valuesOf name (.obj ((name, x) :: fields)) = [x] := by
  have hrest : fields.filter (fun f => decide (f.1 = name)) = [] := by
    refine List.filter_eq_nil_iff.mpr fun f hf heq => h ?_
    exact List.mem_map.mpr ⟨f, hf, of_decide_eq_true heq⟩
  show (List.filter _ (_ :: _)).map Prod.snd = [x]
  rw [List.filter_cons_of_pos (by simp), hrest]
  rfl

@[simp] theorem field_cons_of_ne (h : other ≠ name) :
    field name decode (.obj ((other, x) :: fields)) = field name decode (.obj fields) := by
  unfold field
  rw [valuesOf_cons_of_ne h]

@[simp] theorem field_cons_self (h : name ∉ fields.map Prod.fst) :
    field name decode (.obj ((name, x) :: fields)) = decode x := by
  unfold field
  rw [valuesOf_cons_self h]

@[simp] theorem fieldOr_cons_of_ne {default : α} (h : other ≠ name) :
    fieldOr default name decode (.obj ((other, x) :: fields)) =
      fieldOr default name decode (.obj fields) := by
  unfold fieldOr
  rw [valuesOf_cons_of_ne h]

@[simp] theorem fieldOr_cons_self {default : α} (h : name ∉ fields.map Prod.fst) :
    fieldOr default name decode (.obj ((name, x) :: fields)) = decode x := by
  unfold fieldOr
  rw [valuesOf_cons_self h]

end Fields

/-! ## Values -/

/-- An unsigned number below a bound. -/
def asBelow (bound : ℕ) : Json → Option ℕ
  | .num n => if 0 ≤ n ∧ n < bound then some n.toNat else none
  | _ => none

/-- `u16`. -/
def asU16 (v : Json) : Option UInt16 := (asBelow 65536 v).map UInt16.ofNat

/-- `u32`. -/
def asU32 (v : Json) : Option UInt32 := (asBelow 4294967296 v).map UInt32.ofNat

/-- `bool`. -/
def asBool : Json → Option Bool
  | .bool b => some b
  | _ => none

/-- `Option<T>`. -/
def asOption (decode : Json → Option α) : Json → Option (Option α)
  | .null => some none
  | v => (decode v).map some

/-- `Vec<T>`. -/
def asList (decode : Json → Option α) : Json → Option (List α)
  | .arr items => items.mapM decode
  | _ => none

/-- An optional value, `null` where there is none. -/
def ofOption (encode : α → Json) : Option α → Json
  | none => .null
  | some a => encode a

theorem asBelow_num {bound n : ℕ} (h : n < bound) : asBelow bound (.num n) = some n := by
  show (if (0 : ℤ) ≤ n ∧ (n : ℤ) < bound then some (n : ℤ).toNat else none) = some n
  rw [if_pos ⟨Int.natCast_nonneg n, Int.ofNat_lt.mpr h⟩]
  rfl

@[simp] theorem asStr_str (s : String) : asStr (.str s) = some s := rfl

@[simp] theorem asBool_bool (b : Bool) : asBool (.bool b) = some b := rfl

@[simp] theorem asU16_num (n : UInt16) : asU16 (.num n.toNat) = some n := by
  unfold asU16
  rw [asBelow_num n.toNat_lt, Option.map_some, UInt16.ofNat_toNat]

@[simp] theorem asU32_num (n : UInt32) : asU32 (.num n.toNat) = some n := by
  unfold asU32
  rw [asBelow_num n.toNat_lt, Option.map_some, UInt32.ofNat_toNat]

section Compound

variable {encode : α → Json} {decode : Json → Option α}

theorem asOption_ofOption (h : ∀ a, decode (encode a) = some a) (hnull : ∀ a, encode a ≠ .null) :
    ∀ o, asOption decode (ofOption encode o) = some o
  | none => rfl
  | some a => by
      have hread : asOption decode (encode a) = (decode (encode a)).map some := by
        cases hv : encode a with
        | null => exact absurd hv (hnull a)
        | bool b => rfl
        | num n => rfl
        | str s => rfl
        | arr items => rfl
        | obj fields => rfl
      rw [ofOption, hread, h, Option.map_some]

/-- The items of an array may be read as something else than was written. -/
theorem asList_map {β : Type*} {read : α → β} {decode : Json → Option β}
    (h : ∀ a, decode (encode a) = some (read a)) (items : List α) :
    asList decode (.arr (items.map encode)) = some (items.map read) := by
  show (items.map encode).mapM decode = some (items.map read)
  induction items with
  | nil => rfl
  | cons a rest ih => simp [h, ih]

end Compound

/-! ## One line -/

/-- No control characters. -/
def Printable (text : List Char) : Prop := ∀ c ∈ text, 32 ≤ c.toNat

instance (text : List Char) : Decidable (Printable text) :=
  List.decidableBAll (fun c : Char => 32 ≤ c.toNat) text

theorem printable_append {xs ys : List Char} :
    Printable (xs ++ ys) ↔ Printable xs ∧ Printable ys := List.forall_mem_append

theorem printable_cons {c : Char} {xs : List Char} :
    Printable (c :: xs) ↔ 32 ≤ c.toNat ∧ Printable xs := List.forall_mem_cons

/-- A digit is an ASCII character, and no control character. -/
theorem toNat_of_isSome_toDigit {radix : ℕ} {c : Char}
    (h : (Net.toDigit radix c).isSome = true) : 32 ≤ c.toNat ∧ c.toNat < 128 := by
  have hle : ∀ d e : Char, d ≤ e → d.toNat ≤ e.toNat := fun d e hd => hd
  unfold Net.toDigit at h
  split_ifs at h with h0 ha hA
  · exact ⟨le_trans (by decide) (hle '0' c h0.1), lt_of_le_of_lt (hle c '9' h0.2) (by decide)⟩
  · exact ⟨le_trans (by decide) (hle 'a' c ha.1), lt_of_le_of_lt (hle c 'z' ha.2) (by decide)⟩
  · exact ⟨le_trans (by decide) (hle 'A' c hA.1), lt_of_le_of_lt (hle c 'Z' hA.2) (by decide)⟩
  · cases h

theorem printable_toDigits (n : ℕ) : Printable (Nat.toDigits 10 n) := by
  intro c hc
  exact (toNat_of_isSome_toDigit ((Net.toDigits_spec (by decide) (by decide) n).1 c hc)).1

theorem printable_renderNum (n : ℤ) : Printable (renderNum n) := by
  unfold renderNum
  split_ifs
  · exact printable_cons.mpr ⟨by decide, printable_toDigits _⟩
  · exact printable_toDigits _

theorem printable_escapeChar (c : Char) : Printable (escapeChar c) := by
  have hhex : ∀ d < 16, 32 ≤ (Nat.digitChar d).toNat := by decide
  unfold escapeChar
  split_ifs with hquote hslash hn hr ht hb hf hlow
  iterate 7 exact of_decide_eq_true rfl
  · have hhigh := hhex (c.toNat / 16) (by omega)
    have hlow' := hhex (c.toNat % 16) (Nat.mod_lt _ (by norm_num))
    rintro d hd
    simp only [List.mem_cons, List.not_mem_nil, or_false] at hd
    rcases hd with rfl | rfl | rfl | rfl | rfl | rfl
    iterate 4 exact of_decide_eq_true rfl
    · exact hhigh
    · exact hlow'
  · exact printable_cons.mpr ⟨not_lt.mp hlow, fun d hd => absurd hd List.not_mem_nil⟩

theorem printable_quote (s : String) : Printable (quote s) := by
  unfold quote
  refine printable_cons.mpr ⟨by decide, printable_append.mpr ⟨?_, by decide⟩⟩
  intro c hc
  obtain ⟨d, -, hd⟩ := List.mem_flatMap.mp hc
  exact printable_escapeChar d c hd

theorem printable_intercalate {texts : List (List Char)} (h : ∀ text ∈ texts, Printable text) :
    Printable (List.intercalate [','] texts) := by
  have hcomma : Printable [','] := by decide
  exact Lines.forall_mem_intercalate hcomma h

mutual

/-- **The text of a value is one line.** -/
theorem printable_render : ∀ v : Json, Printable (render v)
  | .null => of_decide_eq_true rfl
  | .bool true => of_decide_eq_true rfl
  | .bool false => of_decide_eq_true rfl
  | .num n => printable_renderNum n
  | .str s => printable_quote s
  | .arr items =>
      printable_cons.mpr ⟨by decide, printable_append.mpr
        ⟨printable_intercalate (printable_renderItems items), by decide⟩⟩
  | .obj fields =>
      printable_cons.mpr ⟨by decide, printable_append.mpr
        ⟨printable_intercalate (printable_renderFields fields), by decide⟩⟩

theorem printable_renderItems : ∀ items : List Json, ∀ text ∈ renderItems items, Printable text
  | [] => fun _ h => absurd h List.not_mem_nil
  | v :: rest => List.forall_mem_cons.mpr ⟨printable_render v, printable_renderItems rest⟩

theorem printable_renderFields :
    ∀ fields : List (String × Json), ∀ text ∈ renderFields fields, Printable text
  | [] => fun _ h => absurd h List.not_mem_nil
  | (name, v) :: rest =>
      List.forall_mem_cons.mpr ⟨printable_append.mpr ⟨printable_quote name,
        printable_cons.mpr ⟨by decide, printable_render v⟩⟩, printable_renderFields rest⟩

end

end Json
