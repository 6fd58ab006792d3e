import K3rs.Lib.JsonRecords

/-!
# JSON texts that are cut off

What a reader has read does not depend on what comes behind, unless it is a number at the end of the
text.  So no text that goes on behind an object is an object itself: the text of an object that is
cut off is no value at all (`parse_eq_none_of_cut`), and a connection that breaks in the middle of a
message delivers nothing.
-/

namespace Json

open Net

variable {more : List Char}

/-! ## Strings and numbers -/

theorem readEscape_append {cs rest : List Char} {c : Char} (h : readEscape cs = some (c, rest)) :
    readEscape (cs ++ more) = some (c, rest ++ more) := by
  unfold readEscape at h
  split at h
  iterate 5
    · cases h
      rfl
  · obtain ⟨digits, hdigits, heq⟩ := Option.bind_eq_some_iff.mp h
    cases heq
    simp [readEscape, hdigits]
  · split_ifs at h with hc
    cases h
    rcases hc with rfl | rfl | rfl
    all_goals rfl
  · cases h

theorem readString_append {left left' : ℕ} (hle : left ≤ left') {cs text rest : List Char}
    (h : readString left cs = some (text, rest)) :
    readString left' (cs ++ more) = some (text, rest ++ more) := by
  induction left generalizing left' cs text rest with
  | zero => cases h
  | succ left ih =>
      obtain ⟨left', rfl⟩ := Nat.exists_eq_add_of_lt hle
      cases cs with
      | nil => cases h
      | cons c cs =>
          have hle' : left ≤ left + left' := Nat.le_add_right left left'
          rw [List.cons_append, readString]
          rw [readString] at h
          split_ifs at h ⊢ with hquote hslash
          · cases h
            rfl
          · obtain ⟨⟨d, cs'⟩, hescape, h⟩ := Option.bind_eq_some_iff.mp h
            obtain ⟨⟨text', rest'⟩, hstring, heq⟩ := Option.bind_eq_some_iff.mp h
            cases heq
            rw [readEscape_append hescape, Option.bind_eq_bind, Option.bind_some]
            show (readString (left + left') (cs' ++ more)).bind _ = _
            rw [ih hle' hstring]
            rfl
          · obtain ⟨⟨text', rest'⟩, hstring, heq⟩ := Option.bind_eq_some_iff.mp h
            cases heq
            rw [ih hle' hstring]
            rfl

/-- A number that something follows is the same number in a longer text. -/
theorem readDigits_append {cs rest : List Char} {n : ℕ} (h : readDigits cs = some (n, rest))
    (hrest : rest ≠ []) : readDigits (cs ++ more) = some (n, rest ++ more) := by
  simp only [readDigits] at h ⊢
  split_ifs at h with hnil
  obtain ⟨hn, hdrop⟩ := Prod.mk.inj (Option.some.inj h)
  have hne : cs.dropWhile (fun c => (toDigit 10 c).isSome) ≠ [] := by rwa [hdrop]
  have hstop : ¬ (cs.takeWhile fun c => (toDigit 10 c).isSome).length = cs.length := by
    intro hlen
    have hsplit := congrArg List.length
      (List.takeWhile_append_dropWhile (p := fun c => (toDigit 10 c).isSome) (l := cs))
    rw [List.length_append, hlen] at hsplit
    exact hne (List.eq_nil_of_length_eq_zero (by omega))
  rw [List.takeWhile_append, if_neg hstop, if_neg hnil, List.dropWhile_append, hn, hdrop]
  cases rest with
  | nil => exact absurd rfl hrest
  | cons c rest => rfl

theorem readNum_append {cs rest : List Char} {n : ℤ} (h : readNum cs = some (n, rest))
    (hrest : rest ≠ []) : readNum (cs ++ more) = some (n, rest ++ more) := by
  cases cs with
  | nil => cases h
  | cons c cs =>
      by_cases hminus : c = '-'
      · subst hminus
        obtain ⟨⟨m, rest'⟩, hdigits, heq⟩ := Option.map_eq_some_iff.mp h
        cases heq
        rw [List.cons_append, readNum, readDigits_append hdigits hrest]
        rfl
      · have hplain : ∀ tail, readNum (c :: tail) =
            (readDigits (c :: tail)).map fun r => ((r.1 : ℤ), r.2) := by
          intro tail
          rw [readNum]
          intro rest' heq
          exact hminus (List.cons.inj heq).1
        rw [hplain] at h
        obtain ⟨⟨m, rest'⟩, hdigits, heq⟩ := Option.map_eq_some_iff.mp h
        cases heq
        have hread : readDigits (c :: cs ++ more) = some (_, _ ++ more) :=
          readDigits_append hdigits hrest
        rw [List.cons_append] at hread ⊢
        rw [hplain, hread]
        rfl

/-! ## Values -/

/-- A value whose text does not show where it ends. -/
def isNum : Json → Bool
  | .num _ => true
  | _ => false

/-- What is read within a bound is read of every longer text. -/
structure ExtendsUpTo (left : ℕ) : Prop where
  value : ∀ {left' : ℕ} {cs rest : List Char} {v : Json}, left ≤ left' →
    readValue left cs = some (v, rest) → rest ≠ [] ∨ v.isNum = false →
    ∀ more, readValue left' (cs ++ more) = some (v, rest ++ more)
  items : ∀ {left' : ℕ} {cs rest : List Char} {items : List Json}, left ≤ left' →
    readItems left cs = some (items, rest) →
    ∀ more, readItems left' (cs ++ more) = some (items, rest ++ more)
  fields : ∀ {left' : ℕ} {cs rest : List Char} {fields : List (String × Json)}, left ≤ left' →
    readFields left cs = some (fields, rest) →
    ∀ more, readFields left' (cs ++ more) = some (fields, rest ++ more)

theorem head_of_readNum {cs rest : List Char} {n : ℤ} (h : readNum cs = some (n, rest)) :
    ∃ c tail, cs = c :: tail ∧ (c = '-' ∨ (toDigit 10 c).isSome = true) := by
  cases cs with
  | nil => cases h
  | cons c tail =>
      refine ⟨c, tail, rfl, or_iff_not_imp_left.mpr fun hminus => ?_⟩
      rw [readNum] at h
      · obtain ⟨r, hdigits, -⟩ := Option.map_eq_some_iff.mp h
        by_contra hdigit
        rw [readDigits,
          List.takeWhile_cons_of_neg (p := fun c => (toDigit 10 c).isSome) hdigit] at hdigits
        cases hdigits
      · intro rest' heq
        exact hminus (List.cons.inj heq).1

/-- What starts like a number is read as one. -/
theorem readValue_number (left : ℕ) {c : Char} (hc : c = '-' ∨ (toDigit 10 c).isSome = true)
    (cs : List Char) :
    readValue (left + 1) (c :: cs) = (readNum (c :: cs)).map fun r => (.num r.1, r.2) := by
  have hnot : ∀ d ∈ ['n', 't', 'f', '"', '[', '{'], c ≠ d := by
    intro d hd heq
    subst heq
    simp only [List.mem_cons, List.not_mem_nil, or_false] at hd
    rcases hd with rfl | rfl | rfl | rfl | rfl | rfl
    all_goals
      revert hc
      decide
  rw [readValue]
  all_goals
    intros
    rename_i heq
    exact hnot _ (by simp) (List.cons.inj heq).1

theorem readItems_nil (left : ℕ) : readItems left [] = none := by
  cases left with
  | zero => rfl
  | succ left => cases left <;> rfl

theorem readFields_nil (left : ℕ) : readFields left [] = none := by
  cases left <;> rfl

theorem extendsUpTo_value {left : ℕ} (ih : ExtendsUpTo left) {left' : ℕ} (hle : left ≤ left')
    {cs rest : List Char} {v : Json} (h : readValue (left + 1) cs = some (v, rest))
    (hend : rest ≠ [] ∨ v.isNum = false) (more : List Char) :
    readValue (left' + 1) (cs ++ more) = some (v, rest ++ more) := by
  rw [readValue.eq_def] at h
  simp only at h
  split at h
  iterate 3
    · cases h
      rfl
  · rename_i tail
    obtain ⟨⟨text, rest'⟩, hstring, heq⟩ := Option.map_eq_some_iff.mp h
    cases heq
    have hlen : tail.length ≤ (tail ++ more).length := by
      rw [List.length_append]
      exact Nat.le_add_right _ _
    rw [List.cons_append, readValue, readString_append hlen hstring]
    rfl
  · cases h
    rfl
  · rename_i tail hclose
    obtain ⟨⟨items, rest'⟩, hitems, heq⟩ := Option.map_eq_some_iff.mp h
    cases heq
    have hread := ih.items hle hitems more
    cases tail with
    | nil => exact absurd (readItems_nil left) (by rw [hitems]; exact Option.some_ne_none _)
    | cons d tail =>
        rw [List.cons_append, List.cons_append, readValue, ← List.cons_append, hread]
        · rfl
        · intro rest'' heq
          exact hclose tail (by rw [(List.cons.inj heq).1])
  · cases h
    rfl
  · rename_i tail hclose
    obtain ⟨⟨fields, rest'⟩, hfields, heq⟩ := Option.map_eq_some_iff.mp h
    cases heq
    have hread := ih.fields hle hfields more
    cases tail with
    | nil => exact absurd (readFields_nil left) (by rw [hfields]; exact Option.some_ne_none _)
    | cons d tail =>
        rw [List.cons_append, List.cons_append, readValue, ← List.cons_append, hread]
        · rfl
        · intro rest'' heq
          exact hclose tail (by rw [(List.cons.inj heq).1])
  · obtain ⟨⟨n, rest'⟩, hnum, heq⟩ := Option.map_eq_some_iff.mp h
    cases heq
    obtain ⟨c, tail, rfl, hc⟩ := head_of_readNum hnum
    have hrest : rest' ≠ [] := hend.resolve_right Bool.noConfusion
    have hread : readNum (_ ++ more) = some (_, _ ++ more) := readNum_append hnum hrest
    rw [List.cons_append] at hread ⊢
    rw [readValue_number left' hc, hread]
    rfl

theorem extendsUpTo (left : ℕ) : ExtendsUpTo left := by
  induction left with
  | zero =>
      constructor
      · intro left' cs rest v _ h
        cases h
      · intro left' cs rest items _ h
        cases h
      · intro left' cs rest fields _ h
        cases h
  | succ left ih =>
      constructor
      · intro left' cs rest v hle h hend more
        obtain ⟨n, rfl⟩ := Nat.exists_eq_add_of_lt hle
        exact extendsUpTo_value ih (Nat.le_add_right left n) h hend more
      · intro left' cs rest items hle h more
        obtain ⟨n, rfl⟩ := Nat.exists_eq_add_of_lt hle
        have hle' := Nat.le_add_right left n
        rw [readItems] at h ⊢
        split at h
        · rename_i v tail hv
          obtain ⟨⟨items', rest'⟩, hitems, heq⟩ := Option.map_eq_some_iff.mp h
          cases heq
          have hvalue := ih.value hle' hv (Or.inl (List.cons_ne_nil _ _)) more
          rw [hvalue]
          show (readItems (left + n) (tail ++ more)).map _ = _
          rw [ih.items hle' hitems more]
          rfl
        · rename_i v tail hv
          cases h
          have hvalue := ih.value hle' hv (Or.inl (List.cons_ne_nil _ _)) more
          rw [hvalue]
          rfl
        · cases h
      · intro left' cs rest fields hle h more
        obtain ⟨n, rfl⟩ := Nat.exists_eq_add_of_lt hle
        have hle' := Nat.le_add_right left n
        rw [readFields.eq_def] at h
        simp only at h
        split at h
        · rename_i tail
          split at h
          · rename_i name tail' hname
            have hlen : tail.length ≤ (tail ++ more).length := by
              rw [List.length_append]
              exact Nat.le_add_right _ _
            have hstring : readString _ (_ ++ more) = some (_, _ ++ more) :=
              readString_append hlen hname
            rw [List.cons_append, readFields, hstring, List.cons_append]
            split at h
            · rename_i v tail'' hv
              obtain ⟨⟨fields', rest'⟩, hfields, heq⟩ := Option.map_eq_some_iff.mp h
              cases heq
              have hvalue := ih.value hle' hv (Or.inl (List.cons_ne_nil _ _)) more
              simp only
              rw [hvalue]
              show (readFields (left + n) (tail'' ++ more)).map _ = _
              rw [ih.fields hle' hfields more]
              rfl
            · rename_i v tail'' hv
              cases h
              have hvalue := ih.value hle' hv (Or.inl (List.cons_ne_nil _ _)) more
              simp only
              rw [hvalue]
              rfl
            · cases h
          · cases h
        · cases h

/-! ## Objects -/

theorem isNum_of_brace {left : ℕ} {cs rest : List Char} {v : Json}
    (h : readValue left ('{' :: cs) = some (v, rest)) : v.isNum = false := by
  cases left with
  | zero => cases h
  | succ left =>
      rw [readValue.eq_def] at h
      simp only at h
      split at h
      all_goals
        rename_i heq
        first
          | cases heq
          | skip
      · cases h
        rfl
      · obtain ⟨r, -, heq⟩ := Option.map_eq_some_iff.mp h
        cases heq
        rfl
      · exact absurd rfl (heq _)

/-- **The text of an object that is cut off is no value.** -/
theorem parse_eq_none_of_cut {fields : List (String × Json)} {cut more : List Char}
    (h : cut ++ more = render (.obj fields)) (hmore : more ≠ []) : parse cut = none := by
  cases hread : readValue cut.length cut with
  | none => rw [parse, hread]
  | some r =>
      obtain ⟨v, rest⟩ := r
      cases rest with
      | cons c rest => rw [parse, hread]
      | nil =>
          cases cut with
          | nil => cases hread
          | cons c cut =>
              obtain ⟨rfl, -⟩ := List.cons.inj h
              have hlen : ('{' :: cut).length ≤ (render (.obj fields)).length := by
                rw [← h, List.length_append]
                exact Nat.le_add_right _ _
              have hlonger := (extendsUpTo _).value hlen hread (Or.inr (isNum_of_brace hread)) more
              have hwhole := (readsUpTo (render (.obj fields)).length).value (.obj fields)
                (size_le_length _) [] (by rintro c ⟨⟩)
              rw [h] at hlonger
              rw [List.append_nil, hlonger] at hwhole
              obtain ⟨-, hnil⟩ := Prod.mk.inj (Option.some.inj hwhole)
              exact absurd hnil hmore

/-! ## Readers of texts -/

/-- A reader of texts (`serde_json`), of which nothing more is known than that it reads the compact
text of every value, and refuses the text of an object that is cut off.  `complaint` is what it says
of a text that is not what was asked for. -/
structure Reader where
  fromStr : List Char → Option Json
  complaint : List Char → String
  fromStr_render : ∀ v, fromStr (render v) = some v
  fromStr_cut : ∀ fields cut more, cut ++ more = render (.obj fields) → more ≠ [] →
    fromStr cut = none

/-- The reader of compact texts. -/
def Reader.compact (complaint : List Char → String) : Reader where
  fromStr := parse
  complaint
  fromStr_render := parse_render
  fromStr_cut _ _ _ := parse_eq_none_of_cut

end Json
