import Mathlib.Tactic

/-!
# Lines of a stream

A reader keeps the symbols of the line it has not seen the end of.  `feed` hands it some more and
returns the lines that end among them.  How a stream is cut into pieces does not matter
(`feed_append`), and the lines are the ones the stream is made of: `feed_terminated` and its converse
`terminated_feed`.
-/

namespace Lines

variable {α : Type*} (nl : α)

/-- Lines, each with its end. -/
def terminated (lines : List (List α)) : List α := lines.flatMap (· ++ [nl])

theorem terminated_nil : terminated nl [] = [] := rfl

theorem terminated_cons (line : List α) (lines : List (List α)) :
    terminated nl (line :: lines) = line ++ nl :: terminated nl lines := by
  unfold terminated
  rw [List.flatMap_cons, List.append_assoc, List.singleton_append]

variable [DecidableEq α]

/-- The lines that end among some symbols, and what is left of the last one. -/
def feed : (pending : List α) → List α → List (List α) × List α
  | pending, [] => ([], pending)
  | pending, a :: rest =>
      if a = nl then
        let more := feed [] rest
        (pending :: more.1, more.2)
      else feed (pending ++ [a]) rest

variable {nl}

@[simp] theorem feed_nil (pending : List α) : feed nl pending [] = ([], pending) := rfl

theorem feed_cons_of_ne {a : α} (h : a ≠ nl) (pending rest : List α) :
    feed nl pending (a :: rest) = feed nl (pending ++ [a]) rest := by
  rw [feed, if_neg h]

theorem feed_cons_self (pending rest : List α) :
    feed nl pending (nl :: rest) =
      (pending :: (feed nl [] rest).1, (feed nl [] rest).2) := by
  rw [feed, if_pos rfl]

/-- **Reading in pieces** is reading the whole: the state carries across the cut. -/
theorem feed_append (pending xs ys : List α) :
    feed nl pending (xs ++ ys) =
      ((feed nl pending xs).1 ++ (feed nl (feed nl pending xs).2 ys).1,
        (feed nl (feed nl pending xs).2 ys).2) := by
  induction xs generalizing pending with
  | nil => rfl
  | cons a xs ih =>
      rw [List.cons_append]
      by_cases ha : a = nl
      · rw [ha, feed_cons_self, feed_cons_self, ih []]
        rfl
      · rw [feed_cons_of_ne ha, feed_cons_of_ne ha, ih]

/-- Symbols without an end of line extend the unfinished line. -/
theorem feed_of_notMem {xs : List α} (h : nl ∉ xs) (pending : List α) :
    feed nl pending xs = ([], pending ++ xs) := by
  induction xs generalizing pending with
  | nil => rw [feed_nil, List.append_nil]
  | cons a xs ih =>
      rw [List.mem_cons, not_or] at h
      obtain ⟨ha, hxs⟩ := h
      rw [feed_cons_of_ne (Ne.symm ha), ih hxs, List.append_assoc, List.singleton_append]

theorem feed_line {line : List α} (h : nl ∉ line) (pending rest : List α) :
    feed nl pending (line ++ nl :: rest) =
      ((pending ++ line) :: (feed nl [] rest).1, (feed nl [] rest).2) := by
  rw [feed_append, feed_of_notMem h, feed_cons_self]
  rfl

/-- **Terminated lines are read as they are.** -/
theorem feed_terminated {lines : List (List α)} (h : ∀ line ∈ lines, nl ∉ line) {tail : List α}
    (htail : nl ∉ tail) : feed nl [] (terminated nl lines ++ tail) = (lines, tail) := by
  induction lines with
  | nil => exact feed_of_notMem htail []
  | cons line lines ih =>
      obtain ⟨hline, hlines⟩ := List.forall_mem_cons.mp h
      rw [terminated_cons, List.append_assoc, List.cons_append, feed_line hline, ih hlines,
        List.nil_append]

/-- **What is read is the stream**, cut at the ends of its lines. -/
theorem terminated_feed (pending xs : List α) :
    terminated nl (feed nl pending xs).1 ++ (feed nl pending xs).2 = pending ++ xs := by
  induction xs generalizing pending with
  | nil => rw [feed_nil, terminated_nil, List.nil_append, List.append_nil]
  | cons a xs ih =>
      by_cases ha : a = nl
      · have hrest := ih []
        rw [List.nil_append] at hrest
        rw [ha, feed_cons_self, terminated_cons, List.append_assoc, List.cons_append, hrest]
      · rw [feed_cons_of_ne ha, ih, List.append_assoc, List.singleton_append]

omit [DecidableEq α] in
/-- What holds of the separator and of all parts holds of the whole. -/
theorem forall_mem_intercalate {P : α → Prop} {sep : List α} {parts : List (List α)}
    (hsep : ∀ a ∈ sep, P a) (h : ∀ part ∈ parts, ∀ a ∈ part, P a) :
    ∀ a ∈ List.intercalate sep parts, P a := by
  induction parts with
  | nil =>
      intro a ha
      cases ha
  | cons part parts ih =>
      obtain ⟨hpart, hparts⟩ := List.forall_mem_cons.mp h
      cases parts with
      | nil => rwa [List.intercalate_singleton]
      | cons next parts =>
          rw [List.intercalate_cons_cons]
          exact List.forall_mem_append.mpr
            ⟨List.forall_mem_append.mpr ⟨hpart, hsep⟩, ih hparts⟩

/-! ## Line by line -/

variable (nl) in
/-- The first line, and what comes behind its end. -/
def takeLine : List α → Option (List α × List α)
  | [] => none
  | a :: rest => if a = nl then some ([], rest) else (takeLine rest).map (Prod.map (a :: ·) id)

variable (nl) in
/-- The lines of a stream; one that has ended may have a last line without an end. -/
def streamLines (ended : Bool) (xs : List α) : List (List α) :=
  (feed nl [] xs).1 ++
    if ended = true ∧ (feed nl [] xs).2 ≠ [] then [(feed nl [] xs).2] else []

theorem takeLine_eq_some {xs line rest : List α} (h : takeLine nl xs = some (line, rest)) :
    xs = line ++ nl :: rest ∧ nl ∉ line := by
  induction xs generalizing line with
  | nil => cases h
  | cons a xs ih =>
      rw [takeLine] at h
      split_ifs at h with ha
      · cases h
        exact ⟨congrArg (· :: rest) ha, List.not_mem_nil⟩
      · obtain ⟨⟨line', rest'⟩, htake, heq⟩ := Option.map_eq_some_iff.mp h
        cases heq
        obtain ⟨rfl, hline⟩ := ih htake
        refine ⟨rfl, ?_⟩
        rw [List.mem_cons, not_or]
        exact ⟨Ne.symm ha, hline⟩

theorem takeLine_append {line : List α} (h : nl ∉ line) (rest : List α) :
    takeLine nl (line ++ nl :: rest) = some (line, rest) := by
  induction line with
  | nil => exact if_pos rfl
  | cons a line ih =>
      rw [List.mem_cons, not_or] at h
      rw [List.cons_append, takeLine, if_neg (Ne.symm h.1), ih h.2]
      rfl

theorem takeLine_eq_none {xs : List α} : takeLine nl xs = none ↔ nl ∉ xs := by
  constructor
  · intro h hmem
    obtain ⟨line, rest, rfl, hline⟩ := List.eq_append_cons_of_mem hmem
    rw [takeLine_append hline] at h
    cases h
  · intro h
    cases htake : takeLine nl xs with
    | none => rfl
    | some r =>
        obtain ⟨line, rest⟩ := r
        obtain ⟨rfl, -⟩ := takeLine_eq_some htake
        exact absurd (List.mem_append_right _ List.mem_cons_self) h

/-- Taking the first line is what `feed` does first. -/
theorem feed_of_takeLine {xs line rest : List α} (h : takeLine nl xs = some (line, rest)) :
    feed nl [] xs = (line :: (feed nl [] rest).1, (feed nl [] rest).2) := by
  obtain ⟨rfl, hline⟩ := takeLine_eq_some h
  rw [feed_line hline, List.nil_append]

end Lines
