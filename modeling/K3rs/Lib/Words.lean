import Mathlib.Tactic

/-!
# Words

Texts as the Rust standard library takes them apart: `split_whitespace`, `split_once`, `trim` and
`trim_start_matches`.  White space is what Unicode calls so, and not only what ASCII has of it.

* `splitWhitespace_append_word`: a word after a blank is found again.
* `trim_append_blank`: `trim` takes off the end of the line and nothing else.
-/

namespace Words

/-! ## White space -/

/-- `char::is_whitespace`, the Unicode property `White_Space`. -/
def isWhiteSpace (c : Char) : Bool :=
  let n := c.toNat
  (9 ≤ n && n ≤ 13) || n == 0x20 || n == 0x85 || n == 0xA0 || n == 0x1680 ||
    (0x2000 ≤ n && n ≤ 0x200A) || n == 0x2028 || n == 0x2029 || n == 0x202F || n == 0x205F ||
    n == 0x3000

/-- A text without white space. -/
def Blankless (text : List Char) : Prop := ∀ c ∈ text, isWhiteSpace c = false

instance (text : List Char) : Decidable (Blankless text) :=
  List.decidableBAll (fun c => isWhiteSpace c = false) text

@[simp] theorem blankless_append {text text' : List Char} :
    Blankless (text ++ text') ↔ Blankless text ∧ Blankless text' :=
  List.forall_mem_append

@[simp] theorem blankless_cons {c : Char} {text : List Char} :
    Blankless (c :: text) ↔ isWhiteSpace c = false ∧ Blankless text :=
  List.forall_mem_cons

/-! ## Splitting -/

/-- `str::split_whitespace`. -/
def splitWhitespace (text : List Char) : List (List Char) :=
  (text.splitOnP isWhiteSpace).filter (· ≠ [])

theorem splitWhitespace_append_blank (text text' : List Char) {blank : Char}
    (h : isWhiteSpace blank = true) :
    splitWhitespace (text ++ blank :: text') = splitWhitespace text ++ splitWhitespace text' := by
  rw [splitWhitespace, List.splitOnP_append_cons _ _ h, List.filter_append]
  rfl

theorem splitWhitespace_word {word : List Char} (hne : word ≠ []) (h : Blankless word) :
    splitWhitespace word = [word] := by
  rw [splitWhitespace, List.splitOnP_eq_singleton h]
  exact List.filter_cons_of_pos (decide_eq_true hne)

/-- **A word after a blank** is a word of its own. -/
theorem splitWhitespace_append_word (text : List Char) {word : List Char} (hne : word ≠ [])
    (h : Blankless word) : splitWhitespace (text ++ ' ' :: word) = splitWhitespace text ++ [word] := by
  rw [splitWhitespace_append_blank text word rfl, splitWhitespace_word hne h]

/-- `str::split_once`. -/
def splitOnce (sep : Char) : List Char → Option (List Char × List Char)
  | [] => none
  | c :: rest => if c = sep then some ([], rest) else (splitOnce sep rest).map (Prod.map (c :: ·) id)

/-- The first part has no separator. -/
theorem notMem_of_splitOnce {sep : Char} {text key val : List Char}
    (h : splitOnce sep text = some (key, val)) : sep ∉ key := by
  induction text generalizing key with
  | nil => cases h
  | cons c text ih =>
      rw [splitOnce] at h
      split_ifs at h with hc
      · cases h
        exact List.not_mem_nil
      · obtain ⟨e, hrest, heq⟩ := Option.map_eq_some_iff.mp h
        cases heq
        rw [List.mem_cons, not_or]
        exact ⟨fun heq => hc heq.symm, ih hrest⟩

/-- A text is split at the first separator. -/
theorem splitOnce_append {sep : Char} {key : List Char} (h : sep ∉ key) (val : List Char) :
    splitOnce sep (key ++ sep :: val) = some (key, val) := by
  induction key with
  | nil => exact if_pos rfl
  | cons c key ih =>
      rw [List.mem_cons, not_or] at h
      rw [List.cons_append, splitOnce, if_neg fun heq => h.1 heq.symm, ih h.2]
      rfl

/-! ## Trimming -/

/-- `str::trim`. -/
def trim (text : List Char) : List Char :=
  ((text.dropWhile isWhiteSpace).reverse.dropWhile isWhiteSpace).reverse

/-- **The end of a line is trimmed**, and nothing else if the line has no white space at its
ends. -/
theorem trim_append_blank {text : List Char} {blank : Char} (hblank : isWhiteSpace blank = true)
    (hhead : ∀ c ∈ text.head?, isWhiteSpace c = false)
    (hlast : ∀ c ∈ text.getLast?, isWhiteSpace c = false) : trim (text ++ [blank]) = text := by
  have hkeep : ∀ {l : List Char}, (∀ c ∈ l.head?, isWhiteSpace c = false) →
      l.dropWhile isWhiteSpace = l := by
    intro l hl
    cases l with
    | nil => rfl
    | cons c l => exact List.dropWhile_cons_of_neg (by rw [hl c rfl]; exact Bool.false_ne_true)
  rw [trim]
  cases text with
  | nil =>
      rw [List.nil_append, List.dropWhile_cons_of_pos hblank]
      rfl
  | cons c text =>
      rw [hkeep (l := c :: text ++ [blank]) hhead, List.reverse_append, List.reverse_singleton,
        List.singleton_append, List.dropWhile_cons_of_pos hblank,
        hkeep (by rw [List.head?_reverse]; exact hlast), List.reverse_reverse]

/-- A text with no white space at its ends is left as it is. -/
theorem trim_of_ends {text : List Char} (hhead : ∀ c ∈ text.head?, isWhiteSpace c = false)
    (hlast : ∀ c ∈ text.getLast?, isWhiteSpace c = false) : trim text = text := by
  have hkeep : ∀ {l : List Char}, (∀ c ∈ l.head?, isWhiteSpace c = false) →
      l.dropWhile isWhiteSpace = l := by
    intro l hl
    cases l with
    | nil => rfl
    | cons c l => exact List.dropWhile_cons_of_neg (by rw [hl c rfl]; exact Bool.false_ne_true)
  rw [trim, hkeep hhead, hkeep (by rw [List.head?_reverse]; exact hlast), List.reverse_reverse]

/-- Behind a first character that is no white space, only the end is trimmed. -/
theorem trim_isPrefix {text : List Char} (hhead : ∀ c ∈ text.head?, isWhiteSpace c = false) :
    trim text <+: text := by
  have hkeep : text.dropWhile isWhiteSpace = text := by
    cases text with
    | nil => rfl
    | cons c text =>
        exact List.dropWhile_cons_of_neg (by rw [hhead c rfl]; exact Bool.false_ne_true)
  rw [trim, hkeep, ← List.reverse_suffix, List.reverse_reverse]
  exact List.dropWhile_suffix isWhiteSpace

end Words
