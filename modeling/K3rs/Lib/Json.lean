import K3rs.Lib.IpRoundTrip
import Mathlib.Tactic

/-!
# JSON texts

Values with integers for numbers, the compact text of a value, and a reader for it.  The fields
of an object are a list: their order is part of the text.

`parse_render`: the text of a value is read back.
-/

/-- A JSON value. -/
inductive Json where
  | null
  | bool (b : Bool)
  | num (n : ℤ)
  | str (s : String)
  | arr (items : List Json)
  | obj (fields : List (String × Json))

namespace Json

open Net

/-! ## Parts of values -/

/-- `Value::get`, of a field. -/
def get (name : String) : Json → Option Json
  | .obj fields => (fields.find? fun f => decide (f.1 = name)).map Prod.snd
  | _ => none

/-- `Value::as_str`. -/
def asStr : Json → Option String
  | .str s => some s
  | _ => none

/-- The strings of an array (`as_array` and `as_str`), and none of any other value. -/
def strings : Option Json → List String
  | some (.arr items) => items.filterMap asStr
  | _ => []

/-! ## Texts -/

/-- A character inside a string. -/
def escapeChar (c : Char) : List Char :=
  if c = '"' then ['\\', '"']
  else if c = '\\' then ['\\', '\\']
  else if c = '\n' then ['\\', 'n']
  else if c = '\r' then ['\\', 'r']
  else if c = '\t' then ['\\', 't']
  else if c.toNat = 8 then ['\\', 'b']
  else if c.toNat = 12 then ['\\', 'f']
  else if c.toNat < 32 then
    ['\\', 'u', '0', '0', Nat.digitChar (c.toNat / 16), Nat.digitChar (c.toNat % 16)]
  else [c]

/-- A string with its quotes. -/
def quote (s : String) : List Char := '"' :: (s.toList.flatMap escapeChar ++ ['"'])

/-- A number. -/
def renderNum (n : ℤ) : List Char :=
  if n < 0 then '-' :: Nat.toDigits 10 n.natAbs else Nat.toDigits 10 n.natAbs

mutual

/-- The compact text of a value. -/
def render : Json → List Char
  | .null => ['n', 'u', 'l', 'l']
  | .bool true => ['t', 'r', 'u', 'e']
  | .bool false => ['f', 'a', 'l', 's', 'e']
  | .num n => renderNum n
  | .str s => quote s
  | .arr items => '[' :: (List.intercalate [','] (renderItems items) ++ [']'])
  | .obj fields => '{' :: (List.intercalate [','] (renderFields fields) ++ ['}'])

/-- The texts of some values. -/
def renderItems : List Json → List (List Char)
  | [] => []
  | v :: rest => render v :: renderItems rest

/-- The texts of some fields. -/
def renderFields : List (String × Json) → List (List Char)
  | [] => []
  | (name, v) :: rest => (quote name ++ ':' :: render v) :: renderFields rest

end

theorem renderItems_eq_map (items : List Json) : renderItems items = items.map render := by
  induction items with
  | nil => rfl
  | cons v rest ih => rw [renderItems, ih, List.map_cons]

theorem renderFields_eq_map (fields : List (String × Json)) :
    renderFields fields = fields.map fun f => quote f.1 ++ ':' :: render f.2 := by
  induction fields with
  | nil => rfl
  | cons f rest ih => rw [renderFields, ih, List.map_cons]

/-! ## Reading -/

/-- The character after a backslash, and for `u` the four digits after it. -/
def readEscape : List Char → Option (Char × List Char)
  | 'n' :: rest => some ('\n', rest)
  | 'r' :: rest => some ('\r', rest)
  | 't' :: rest => some ('\t', rest)
  | 'b' :: rest => some (Char.ofNat 8, rest)
  | 'f' :: rest => some (Char.ofNat 12, rest)
  | 'u' :: a :: b :: c :: d :: rest => do
      let digits ← [a, b, c, d].mapM (toDigit 16)
      return (Char.ofNat (digits.foldl (fun acc digit => acc * 16 + digit) 0), rest)
  | c :: rest => if c = '"' ∨ c = '\\' ∨ c = '/' then some (c, rest) else none
  | [] => none

/-- The rest of a string, up to its closing quote. -/
def readString : ℕ → List Char → Option (List Char × List Char)
  | 0, _ => none
  | _ + 1, [] => none
  | left + 1, c :: rest =>
      if c = '"' then some ([], rest)
      else if c = '\\' then do
        let (d, rest) ← readEscape rest
        let (text, rest) ← readString left rest
        return (d :: text, rest)
      else do
        let (text, rest) ← readString left rest
        return (c :: text, rest)

/-- The digits of a number. -/
def readDigits (cs : List Char) : Option (ℕ × List Char) :=
  let digits := cs.takeWhile fun c => (toDigit 10 c).isSome
  if digits = [] then none
  else some (digitsValue 10 digits, cs.dropWhile fun c => (toDigit 10 c).isSome)

/-- A number. -/
def readNum : List Char → Option (ℤ × List Char)
  | '-' :: rest => (readDigits rest).map fun r => (-(r.1 : ℤ), r.2)
  | cs => (readDigits cs).map fun r => ((r.1 : ℤ), r.2)

mutual

/-- A value; the first argument bounds the depth of the recursion. -/
def readValue : ℕ → List Char → Option (Json × List Char)
  | 0, _ => none
  | left + 1, cs =>
      match cs with
      | 'n' :: 'u' :: 'l' :: 'l' :: rest => some (.null, rest)
      | 't' :: 'r' :: 'u' :: 'e' :: rest => some (.bool true, rest)
      | 'f' :: 'a' :: 'l' :: 's' :: 'e' :: rest => some (.bool false, rest)
      | '"' :: rest => (readString rest.length rest).map fun r => (.str (String.ofList r.1), r.2)
      | '[' :: ']' :: rest => some (.arr [], rest)
      | '[' :: rest => (readItems left rest).map fun r => (.arr r.1, r.2)
      | '{' :: '}' :: rest => some (.obj [], rest)
      | '{' :: rest => (readFields left rest).map fun r => (.obj r.1, r.2)
      | cs => (readNum cs).map fun r => (.num r.1, r.2)

/-- The items of an array, up to its closing bracket. -/
def readItems : ℕ → List Char → Option (List Json × List Char)
  | 0, _ => none
  | left + 1, cs =>
      match readValue left cs with
      | some (v, ',' :: rest) => (readItems left rest).map fun r => (v :: r.1, r.2)
      | some (v, ']' :: rest) => some ([v], rest)
      | _ => none

/-- The fields of an object, up to its closing brace. -/
def readFields : ℕ → List Char → Option (List (String × Json) × List Char)
  | 0, _ => none
  | left + 1, cs =>
      match cs with
      | '"' :: cs =>
          match readString cs.length cs with
          | some (name, ':' :: cs) =>
              match readValue left cs with
              | some (v, ',' :: rest) =>
                  (readFields left rest).map fun r => ((String.ofList name, v) :: r.1, r.2)
              | some (v, '}' :: rest) => some ([(String.ofList name, v)], rest)
              | _ => none
          | _ => none
      | _ => none

end

/-- `from_str`: a value and nothing behind it. -/
def parse (text : List Char) : Option Json :=
  match readValue text.length text with
  | some (v, []) => some v
  | _ => none

/-! ## Strings -/

/-- A character is written as it is, or as an escape that is read back. -/
theorem escapeChar_cases (c : Char) :
    (escapeChar c = [c] ∧ c ≠ '"' ∧ c ≠ '\\') ∨
      ∃ tail, escapeChar c = '\\' :: tail ∧
        ∀ rest, readEscape (tail ++ rest) = some (c, rest) := by
  unfold escapeChar
  by_cases hquote : c = '"'
  · rw [if_pos hquote]
    exact Or.inr ⟨_, rfl, fun rest => by rw [hquote]; rfl⟩
  by_cases hslash : c = '\\'
  · rw [if_neg hquote, if_pos hslash]
    exact Or.inr ⟨_, rfl, fun rest => by rw [hslash]; rfl⟩
  rw [if_neg hquote, if_neg hslash]
  by_cases hn : c = '\n'
  · rw [if_pos hn]
    exact Or.inr ⟨_, rfl, fun rest => by rw [hn]; rfl⟩
  by_cases hr : c = '\r'
  · rw [if_neg hn, if_pos hr]
    exact Or.inr ⟨_, rfl, fun rest => by rw [hr]; rfl⟩
  by_cases ht : c = '\t'
  · rw [if_neg hn, if_neg hr, if_pos ht]
    exact Or.inr ⟨_, rfl, fun rest => by rw [ht]; rfl⟩
  rw [if_neg hn, if_neg hr, if_neg ht]
  by_cases hb : c.toNat = 8
  · rw [if_pos hb]
    refine Or.inr ⟨_, rfl, fun rest => ?_⟩
    rw [← Char.ofNat_toNat c, hb]
    rfl
  by_cases hf : c.toNat = 12
  · rw [if_neg hb, if_pos hf]
    refine Or.inr ⟨_, rfl, fun rest => ?_⟩
    rw [← Char.ofNat_toNat c, hf]
    rfl
  by_cases hlow : c.toNat < 32
  · rw [if_neg hb, if_neg hf, if_pos hlow]
    refine Or.inr ⟨_, rfl, fun rest => ?_⟩
    have hhigh : toDigit 16 (Nat.digitChar (c.toNat / 16)) = some (c.toNat / 16) :=
      toDigit_digitChar le_rfl (by omega)
    have hlow' : toDigit 16 (Nat.digitChar (c.toNat % 16)) = some (c.toNat % 16) :=
      toDigit_digitChar le_rfl (Nat.mod_lt _ (by norm_num))
    have hzero : toDigit 16 '0' = some 0 := by decide
    have hvalue : c.toNat / 16 * 16 + c.toNat % 16 = c.toNat := Nat.div_add_mod' _ _
    simp [readEscape, hhigh, hlow', hzero, hvalue]
  · rw [if_neg hb, if_neg hf, if_neg hlow]
    exact Or.inl ⟨rfl, hquote, hslash⟩

theorem readString_escape (text rest : List Char) {left : ℕ} (hleft : text.length < left) :
    readString left (text.flatMap escapeChar ++ '"' :: rest) = some (text, rest) := by
  induction text generalizing left with
  | nil =>
      obtain ⟨n, rfl⟩ := Nat.exists_eq_succ_of_ne_zero (Nat.ne_zero_of_lt hleft)
      simp [readString]
  | cons c text ih =>
      obtain ⟨n, rfl⟩ := Nat.exists_eq_succ_of_ne_zero (Nat.ne_zero_of_lt hleft)
      have hrest := ih (Nat.lt_of_succ_lt_succ hleft)
      rw [List.flatMap_cons, List.append_assoc]
      rcases escapeChar_cases c with ⟨hself, hquote, hslash⟩ | ⟨tail, htail, hread⟩
      · rw [hself]
        simp [readString, hquote, hslash, hrest]
      · rw [htail]
        simp [readString, hread, hrest]

theorem length_le_flatMap_escapeChar (text : List Char) :
    text.length ≤ (text.flatMap escapeChar).length := by
  induction text with
  | nil => exact le_rfl
  | cons c text ih =>
      have hpos : 0 < (escapeChar c).length := by
        rcases escapeChar_cases c with ⟨hself, -⟩ | ⟨tail, htail, -⟩
        · simp [hself]
        · simp [htail]
      rw [List.flatMap_cons, List.length_append, List.length_cons]
      omega

/-- A string is read back from behind its opening quote. -/
theorem readString_quote (s : String) (rest : List Char) :
    readString (s.toList.flatMap escapeChar ++ '"' :: rest).length
      (s.toList.flatMap escapeChar ++ '"' :: rest) = some (s.toList, rest) := by
  refine readString_escape _ _ ?_
  rw [List.length_append, List.length_cons]
  have := length_le_flatMap_escapeChar s.toList
  omega

/-! ## Numbers -/

/-- A text that does not go on with a digit. -/
def EndsNumber (rest : List Char) : Prop := ∀ c ∈ rest.head?, toDigit 10 c = none

theorem readDigits_toDigits (n : ℕ) {rest : List Char} (h : EndsNumber rest) :
    readDigits (Nat.toDigits 10 n ++ rest) = some (n, rest) := by
  obtain ⟨hdigits, hvalue⟩ := toDigits_spec (show 1 < 10 by decide) (show 10 ≤ 16 by decide) n
  have htake : (Nat.toDigits 10 n ++ rest).takeWhile (fun c => (toDigit 10 c).isSome) =
      Nat.toDigits 10 n := by
    rw [List.takeWhile_append_of_pos hdigits]
    cases rest with
    | nil => simp
    | cons c rest => simp [h c rfl]
  have hdrop : (Nat.toDigits 10 n ++ rest).dropWhile (fun c => (toDigit 10 c).isSome) = rest := by
    rw [List.dropWhile_append_of_pos hdigits]
    cases rest with
    | nil => rfl
    | cons c rest => simp [h c rfl]
  have hne : Nat.toDigits 10 n ≠ [] := Nat.toDigits_ne_nil
  simp only [readDigits, htake, hdrop, if_neg hne, hvalue]

theorem head_toDigits (n : ℕ) : ∃ c cs, Nat.toDigits 10 n = c :: cs ∧ (toDigit 10 c).isSome := by
  obtain ⟨hdigits, -⟩ := toDigits_spec (show 1 < 10 by decide) (show 10 ≤ 16 by decide) n
  cases h : Nat.toDigits 10 n with
  | nil => exact absurd h Nat.toDigits_ne_nil
  | cons c cs => exact ⟨c, cs, rfl, hdigits c (by rw [h]; exact List.mem_cons_self)⟩

theorem readNum_renderNum (n : ℤ) {rest : List Char} (h : EndsNumber rest) :
    readNum (renderNum n ++ rest) = some (n, rest) := by
  unfold renderNum
  split_ifs with hneg
  · simp only [List.cons_append, readNum, readDigits_toDigits _ h, Option.map_some]
    rw [show -((n.natAbs : ℕ) : ℤ) = n by omega]
  · obtain ⟨c, cs, hcs, hc⟩ := head_toDigits n.natAbs
    have hminus : c ≠ '-' := by
      rintro rfl
      revert hc
      decide
    have hread := readDigits_toDigits n.natAbs h
    rw [hcs, List.cons_append] at hread ⊢
    rw [readNum, hread, Option.map_some, show ((n.natAbs : ℕ) : ℤ) = n by omega]
    intro rest' heq
    exact hminus (List.cons.inj heq).1

/-! ## Values -/

theorem head_renderNum (n : ℤ) :
    ∃ c cs, renderNum n = c :: cs ∧ (c = '-' ∨ (toDigit 10 c).isSome) := by
  unfold renderNum
  split_ifs
  · exact ⟨_, _, rfl, Or.inl rfl⟩
  · obtain ⟨c, cs, hcs, hc⟩ := head_toDigits n.natAbs
    exact ⟨c, cs, hcs, Or.inr hc⟩

/-- No text of a value starts with a closing bracket. -/
theorem head_render (v : Json) : ∃ c cs, render v = c :: cs ∧ c ≠ ']' := by
  cases v with
  | null => exact ⟨_, _, rfl, by decide⟩
  | bool b => cases b <;> exact ⟨_, _, rfl, by decide⟩
  | num n =>
      obtain ⟨c, cs, hcs, hc⟩ := head_renderNum n
      refine ⟨c, cs, hcs, ?_⟩
      rintro rfl
      revert hc
      decide
  | str s => exact ⟨_, _, rfl, by decide⟩
  | arr items => exact ⟨_, _, rfl, by decide⟩
  | obj fields => exact ⟨_, _, rfl, by decide⟩

mutual

/-- A bound for the depth of the recursion that reads a value. -/
def size : Json → ℕ
  | .arr items => sizeItems items + 1
  | .obj fields => sizeFields fields + 1
  | _ => 1

def sizeItems : List Json → ℕ
  | [] => 0
  | v :: rest => size v + sizeItems rest + 1

def sizeFields : List (String × Json) → ℕ
  | [] => 0
  | (_, v) :: rest => size v + sizeFields rest + 1

end

theorem readValue_num (left : ℕ) (n : ℤ) {rest : List Char} (h : EndsNumber rest) :
    readValue (left + 1) (renderNum n ++ rest) = some (.num n, rest) := by
  have hread := readNum_renderNum n h
  obtain ⟨c, cs, hcs, hc⟩ := head_renderNum n
  rw [hcs, List.cons_append] at hread ⊢
  have hnot : ∀ d ∈ ['n', 't', 'f', '"', '[', '{'], c ≠ d := by
    intro d hd heq
    subst heq
    simp only [List.mem_cons, List.not_mem_nil, or_false] at hd
    rcases hd with rfl | rfl | rfl | rfl | rfl | rfl
    all_goals
      revert hc
      decide
  rw [readValue, hread, Option.map_some]
  all_goals
    intros
    rename_i heq
    exact hnot _ (by simp) (List.cons.inj heq).1

/-- What is read of a value, of items and of fields whose size is within the bound. -/
structure ReadsUpTo (left : ℕ) : Prop where
  value : ∀ v, size v ≤ left → ∀ rest, EndsNumber rest →
    readValue left (render v ++ rest) = some (v, rest)
  items : ∀ v items, sizeItems (v :: items) ≤ left → ∀ rest,
    readItems left (List.intercalate [','] (renderItems (v :: items)) ++ ']' :: rest) =
      some (v :: items, rest)
  fields : ∀ name v fields, sizeFields ((name, v) :: fields) ≤ left → ∀ rest,
    readFields left (List.intercalate [','] (renderFields ((name, v) :: fields)) ++ '}' :: rest) =
      some ((name, v) :: fields, rest)

theorem endsNumber_cons {c : Char} (h : toDigit 10 c = none) (rest : List Char) :
    EndsNumber (c :: rest) := by
  rintro d ⟨⟩
  exact h

theorem readsUpTo_value {left : ℕ} (ih : ReadsUpTo left) (v : Json) (hsize : size v ≤ left + 1)
    (rest : List Char) (hrest : EndsNumber rest) :
    readValue (left + 1) (render v ++ rest) = some (v, rest) := by
  cases v with
  | null => rfl
  | bool b => cases b <;> rfl
  | num n => exact readValue_num left n hrest
  | str s =>
      rw [render, quote, List.cons_append, List.append_assoc, List.singleton_append, readValue,
        readString_quote, Option.map_some, String.ofList_toList]
  | arr items =>
      cases items with
      | nil => rfl
      | cons v items =>
          have hread := ih.items v items (by simpa [size] using hsize) rest
          obtain ⟨c, cs, hcs, hc⟩ := head_render v
          have hhead : ∃ tail, List.intercalate [','] (renderItems (v :: items)) ++ ']' :: rest =
              c :: tail := by
            cases items <;> simp [renderItems, hcs, List.intercalate]
          obtain ⟨tail, htail⟩ := hhead
          rw [render, List.cons_append, List.append_assoc, List.singleton_append]
          rw [htail] at hread ⊢
          rw [readValue, hread, Option.map_some]
          intro rest' heq
          exact hc (List.cons.inj heq).1
  | obj fields =>
      cases fields with
      | nil => rfl
      | cons field fields =>
          obtain ⟨name, v⟩ := field
          have hread := ih.fields name v fields (by simpa [size] using hsize) rest
          have hhead : ∃ tail, List.intercalate [','] (renderFields ((name, v) :: fields)) ++
              '}' :: rest = '"' :: tail := by
            cases fields <;> simp [renderFields, quote, List.intercalate]
          obtain ⟨tail, htail⟩ := hhead
          rw [render, List.cons_append, List.append_assoc, List.singleton_append]
          rw [htail] at hread ⊢
          rw [readValue, hread, Option.map_some]
          intro rest' heq
          exact absurd (List.cons.inj heq).1 (by decide)

theorem readsUpTo (left : ℕ) : ReadsUpTo left := by
  induction left with
  | zero =>
      constructor
      · intro v hsize
        cases v <;> simp [size] at hsize
      · intro v items hsize
        simp [sizeItems] at hsize
      · intro name v fields hsize
        simp [sizeFields] at hsize
  | succ left ih =>
      refine ⟨readsUpTo_value ih, ?_, ?_⟩
      · intro v items hsize rest
        have hv : size v ≤ left := by
          rw [sizeItems] at hsize
          omega
        cases items with
        | nil =>
            have hread := ih.value v hv (']' :: rest) (endsNumber_cons (by decide) rest)
            simp only [renderItems, List.intercalate_singleton, readItems, hread]
        | cons w items =>
            have hrest := ih.items w items (by rw [sizeItems] at hsize; omega) rest
            have hread := ih.value v hv (',' :: (List.intercalate [','] (renderItems (w :: items)) ++
              ']' :: rest)) (endsNumber_cons (by decide) _)
            have htext : List.intercalate [','] (renderItems (v :: w :: items)) ++ ']' :: rest =
                render v ++ ',' :: (List.intercalate [','] (renderItems (w :: items)) ++
                  ']' :: rest) := by
              simp [renderItems, List.intercalate_cons_cons]
            rw [htext, readItems, hread]
            simp only [hrest, Option.map_some]
      · intro name v fields hsize rest
        have hv : size v ≤ left := by
          rw [sizeFields] at hsize
          omega
        cases fields with
        | nil =>
            have hread := ih.value v hv ('}' :: rest) (endsNumber_cons (by decide) rest)
            have hname := readString_quote name (':' :: (render v ++ '}' :: rest))
            simp only [renderFields, List.intercalate_singleton, quote, List.cons_append,
              List.append_assoc, List.nil_append, readFields, hname, hread, String.ofList_toList]
        | cons field fields =>
            obtain ⟨name', w⟩ := field
            have hrest := ih.fields name' w fields (by rw [sizeFields] at hsize; omega) rest
            have hread := ih.value v hv
              (',' :: (List.intercalate [','] (renderFields ((name', w) :: fields)) ++ '}' :: rest))
              (endsNumber_cons (by decide) _)
            have hname := readString_quote name (':' :: (render v ++
              ',' :: (List.intercalate [','] (renderFields ((name', w) :: fields)) ++ '}' :: rest)))
            have htext : List.intercalate [','] (renderFields ((name, v) :: (name', w) :: fields)) ++
                '}' :: rest = '"' :: (name.toList.flatMap escapeChar ++ '"' :: ':' :: (render v ++
                  ',' :: (List.intercalate [','] (renderFields ((name', w) :: fields)) ++
                    '}' :: rest))) := by
              simp [renderFields, List.intercalate_cons_cons, quote]
            rw [htext, readFields]
            simp only [hname, hread, hrest, Option.map_some, String.ofList_toList]

/-! ## Whole texts -/

theorem length_quote (s : String) : 2 ≤ (quote s).length := by
  simp only [quote, List.length_cons, List.length_append, List.length_nil]
  omega

mutual

theorem size_le_length : ∀ v, size v ≤ (render v).length
  | .null => by decide
  | .bool true => by decide
  | .bool false => by decide
  | .num n => by
      obtain ⟨c, cs, hcs, -⟩ := head_renderNum n
      simp [size, render, hcs]
  | .str s => by
      have := length_quote s
      simp only [size, render]
      omega
  | .arr items => by
      have := sizeItems_le_length items
      simp only [size, render, List.length_cons, List.length_append, List.length_nil]
      omega
  | .obj fields => by
      have := sizeFields_le_length fields
      simp only [size, render, List.length_cons, List.length_append, List.length_nil]
      omega

theorem sizeItems_le_length :
    ∀ items, sizeItems items ≤ (List.intercalate [','] (renderItems items)).length + 1
  | [] => by simp [sizeItems]
  | [v] => by
      have := size_le_length v
      simp only [sizeItems, renderItems, List.intercalate_singleton]
      omega
  | v :: w :: rest => by
      have hv := size_le_length v
      have hrest := sizeItems_le_length (w :: rest)
      rw [sizeItems]
      simp only [renderItems, List.intercalate_cons_cons, List.length_append, List.length_singleton]
        at hrest ⊢
      omega

theorem sizeFields_le_length :
    ∀ fields, sizeFields fields ≤ (List.intercalate [','] (renderFields fields)).length + 1
  | [] => by simp [sizeFields]
  | [(name, v)] => by
      have hv := size_le_length v
      simp only [sizeFields, renderFields, List.intercalate_singleton, List.length_append,
        List.length_cons]
      omega
  | (name, v) :: (name', w) :: rest => by
      have hv := size_le_length v
      have hrest := sizeFields_le_length ((name', w) :: rest)
      rw [sizeFields]
      simp only [renderFields, List.intercalate_cons_cons, List.length_append, List.length_cons]
        at hrest ⊢
      omega

end

/-- **The text of a value is read back.** -/
theorem parse_render (v : Json) : parse (render v) = some v := by
  have hread := (readsUpTo (render v).length).value v (size_le_length v) [] (by rintro c ⟨⟩)
  rw [List.append_nil] at hread
  rw [parse, hread]

end Json
