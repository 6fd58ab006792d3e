import Mathlib.Tactic

/-!
# Reading in pieces

A client appends what arrives to a buffer and tries to parse the buffer after every read.  If the
parser is stable, that is, if more bytes never change what it has found, then it does not matter how
the stream was cut into pieces (`readUntil_eq`).

`positionOf` is the search for a pattern.  It is stable, and it finds the pattern behind a text that
cannot contain its first symbol (`positionOf_append_of_notMem`).
-/

namespace Incremental

variable {α β ε : Type*}

/-! ## Stable parsers -/

/-- More input does not change a result. -/
def Stable (parse : List α → Option β) : Prop :=
  ∀ xs r, parse xs = some r → ∀ more, parse (xs ++ more) = some r

/-- Read until the buffer can be parsed.  An empty read is the end of the stream. -/
def readUntil (parse : List α → Option β) (eof : List α → ε) :
    (buf : List α) → List (Except ε (List α)) → Except ε β
  | buf, [] => .error (eof buf)
  | _, .error e :: _ => .error e
  | buf, .ok piece :: rest =>
      if piece = [] then .error (eof buf)
      else
        match parse (buf ++ piece) with
        | some r => .ok r
        | none => readUntil parse eof (buf ++ piece) rest

variable {parse : List α → Option β} {eof : List α → ε}

/-- **The pieces do not matter**, nor does what comes after the pieces, once the whole can be
parsed. -/
theorem readUntil_eq (hstable : Stable parse) {pieces : List (List α)}
    (hpieces : ∀ p ∈ pieces, p ≠ []) {buf : List α} (hbuf : parse buf = none)
    (after : List (Except ε (List α))) :
    readUntil parse eof buf (pieces.map .ok ++ after) =
      match parse (buf ++ pieces.flatten) with
      | some r => .ok r
      | none => readUntil parse eof (buf ++ pieces.flatten) after := by
  induction pieces generalizing buf with
  | nil => rw [List.flatten_nil, List.append_nil, hbuf, List.map_nil, List.nil_append]
  | cons piece pieces ih =>
      obtain ⟨hpiece, hrest⟩ := List.forall_mem_cons.mp hpieces
      rw [List.map_cons, List.cons_append, readUntil, if_neg hpiece, List.flatten_cons,
        ← List.append_assoc]
      cases hparse : parse (buf ++ piece) with
      | none => exact ih hrest hparse
      | some r => rw [hstable _ _ hparse]

/-! ## Searching -/

section Search

variable [DecidableEq α] {pat xs ys : List α} {x : α} {i : ℕ}

/-- The first position of a pattern. -/
def positionOf (pat : List α) : List α → Option ℕ
  | [] => if pat = [] then some 0 else none
  | x :: xs => if pat <+: x :: xs then some 0 else (positionOf pat xs).map (· + 1)

theorem positionOf_nil : positionOf pat [] = if pat = [] then some 0 else none := rfl

theorem positionOf_cons : positionOf pat (x :: xs) =
    if pat <+: x :: xs then some 0 else (positionOf pat xs).map (· + 1) := rfl

theorem positionOf_le (h : positionOf pat xs = some i) : i + pat.length ≤ xs.length := by
  induction xs generalizing i with
  | nil =>
      rw [positionOf_nil] at h
      split_ifs at h with hpat
      cases h
      rw [hpat]
      exact le_rfl
  | cons x xs ih =>
      rw [positionOf_cons] at h
      split_ifs at h with hpat
      · cases h
        rw [Nat.zero_add]
        exact hpat.length_le
      · obtain ⟨j, hj, rfl⟩ := Option.map_eq_some_iff.mp h
        have := ih hj
        rw [List.length_cons]
        omega

/-- The search is stable. -/
theorem positionOf_append (hne : pat ≠ []) (h : positionOf pat xs = some i) :
    positionOf pat (xs ++ ys) = some i := by
  induction xs generalizing i with
  | nil =>
      rw [positionOf_nil, if_neg hne] at h
      cases h
  | cons x xs ih =>
      rw [positionOf_cons] at h
      rw [List.cons_append, positionOf_cons]
      split_ifs at h with hpat
      · rw [← List.cons_append, if_pos (hpat.trans (List.prefix_append _ _))]
        exact h
      · obtain ⟨j, hj, rfl⟩ := Option.map_eq_some_iff.mp h
        have hle := positionOf_le hj
        have hnot : ¬ pat <+: x :: (xs ++ ys) := by
          intro hprefix
          refine hpat (List.prefix_of_prefix_length_le hprefix ?_ ?_)
          · rw [← List.cons_append]
            exact List.prefix_append _ _
          · rw [List.length_cons]
            omega
        rw [if_neg hnot, ih hj]
        rfl

theorem positionOf_self (hne : pat ≠ []) (xs : List α) : positionOf pat (pat ++ xs) = some 0 := by
  obtain ⟨a, pat, rfl⟩ := List.exists_cons_of_ne_nil hne
  rw [List.cons_append, positionOf_cons, ← List.cons_append, if_pos (List.prefix_append _ _)]

theorem positionOf_cons_of_not (h : ¬ pat <+: x :: xs) :
    positionOf pat (x :: xs) = (positionOf pat xs).map (· + 1) := by
  rw [positionOf_cons, if_neg h]

/-- A pattern is not found where its first symbol is missing. -/
theorem positionOf_append_of_notMem {a : α} {text : List α} (h : a ∉ text) :
    positionOf (a :: pat) (text ++ xs) = (positionOf (a :: pat) xs).map (· + text.length) := by
  induction text with
  | nil =>
      rw [List.nil_append, List.length_nil]
      exact Option.map_id'.symm
  | cons x text ih =>
      rw [List.mem_cons, not_or] at h
      have hnot : ¬ a :: pat <+: x :: (text ++ xs) :=
        fun hprefix => h.1 (List.cons_prefix_cons.mp hprefix).1
      rw [List.cons_append, positionOf_cons, if_neg hnot, ih h.2, Option.map_map]
      refine congrArg (fun f => Option.map f _) ?_
      funext j
      show j + text.length + 1 = j + (text.length + 1)
      omega

end Search

end Incremental
