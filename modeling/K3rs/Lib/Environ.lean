import Mathlib.Data.List.TakeWhile
import Mathlib.Tactic

/-!
# Environments

The environment of a process is a list of texts `name=value`.  A variable has the value of the first
entry with its name, as in `getenv`; so where entries are only added for names that are new, those
before them win.

* `getenv_addNew`: what the variables are after entries have been added.
-/

namespace Environ

/-- The name of a variable: it is not empty, and has no `=`. -/
def IsVarName (name : List Char) : Prop := name ≠ [] ∧ '=' ∉ name

/-- An entry. -/
def entry (e : List Char × List Char) : List Char := e.1 ++ '=' :: e.2

/-- The text before the first `=`. -/
def nameOf (text : List Char) : List Char := text.takeWhile (· ≠ '=')

/-- The entry begins with the name and a `=`. -/
def Names (name text : List Char) : Prop := name ++ ['='] <+: text

instance (name text : List Char) : Decidable (Names name text) :=
  inferInstanceAs (Decidable (_ <+: _))

/-- `getenv`. -/
def getenv (name : List Char) (env : List (List Char)) : Option (List Char) :=
  (env.find? fun text => decide (Names name text)).map fun text => text.drop (name.length + 1)

/-- An entry is added if it has a name, and no entry has it already. -/
def addNew (env : List (List Char)) (text : List Char) : List (List Char) :=
  if nameOf text ≠ [] ∧ ¬∃ other ∈ env, Names (nameOf text) other then env ++ [text] else env

section Names

variable {name key text : List Char}

theorem names_iff : Names name text ↔ ∃ value, text = entry (name, value) := by
  constructor
  · rintro ⟨value, rfl⟩
    exact ⟨value, by rw [entry, List.append_assoc]; rfl⟩
  · rintro ⟨value, rfl⟩
    exact ⟨value, by rw [entry, List.append_assoc]; rfl⟩

theorem drop_entry (value : List Char) :
    (entry (name, value)).drop (name.length + 1) = value := by
  rw [entry, List.drop_append, List.drop_eq_nil_of_le (Nat.le_succ _), Nat.add_sub_cancel_left]
  rfl

theorem nameOf_entry (key value : List Char) : nameOf (entry (key, value)) = nameOf key := by
  unfold nameOf entry
  induction key with
  | nil => rfl
  | cons c key ih =>
      by_cases hc : c = '='
      · subst hc
        rfl
      · rw [List.cons_append, List.takeWhile_cons_of_pos (by simpa using hc), ih,
          List.takeWhile_cons_of_pos (by simpa using hc)]

theorem nameOf_eq_self (h : '=' ∉ key) : nameOf key = key := by
  refine List.takeWhile_eq_self_iff.mpr fun c hc => decide_eq_true ?_
  rintro rfl
  exact h hc

/-- An entry has its name, whatever its key and value are. -/
theorem names_nameOf (key value : List Char) : Names (nameOf key) (entry (key, value)) := by
  unfold Names nameOf entry
  induction key with
  | nil => exact List.prefix_append ['='] value
  | cons c key ih =>
      by_cases hc : c = '='
      · subst hc
        exact List.prefix_append ['='] _
      · rw [List.takeWhile_cons_of_pos (by simpa using hc), List.cons_append, List.cons_append]
        exact List.cons_prefix_cons.mpr ⟨rfl, ih⟩

/-- An entry has no other name. -/
theorem nameOf_of_names (h : '=' ∉ name) (hnames : Names name text) : nameOf text = name := by
  obtain ⟨value, rfl⟩ := names_iff.mp hnames
  rw [nameOf_entry, nameOf_eq_self h]

theorem names_entry_iff (h : '=' ∉ name) (key value : List Char) :
    Names name (entry (key, value)) ↔ nameOf key = name := by
  constructor
  · intro hnames
    rw [← nameOf_entry key value, nameOf_of_names h hnames]
  · rintro rfl
    exact names_nameOf key value

end Names

section Getenv

variable {name : List Char} {env env' : List (List Char)}

theorem getenv_append (name : List Char) (env env' : List (List Char)) :
    getenv name (env ++ env') = (getenv name env).or (getenv name env') := by
  unfold getenv
  rw [List.find?_append]
  cases env.find? fun text => decide (Names name text) with
  | none => rfl
  | some text => rfl

theorem getenv_singleton (name text : List Char) :
    getenv name [text] = if Names name text then some (text.drop (name.length + 1)) else none := by
  unfold getenv
  by_cases h : Names name text
  · rw [if_pos h, List.find?_cons_of_pos (by simpa using h)]
    rfl
  · rw [if_neg h, List.find?_cons_of_neg (by simpa using h)]
    rfl

/-- A variable is set if an entry has its name. -/
theorem exists_getenv_eq (h : ∃ text ∈ env, Names name text) :
    ∃ value, getenv name env = some value := by
  obtain ⟨text, hmem, hnames⟩ := h
  unfold getenv
  cases hfind : env.find? fun text => decide (Names name text) with
  | none => exact absurd (decide_eq_true hnames) (List.find?_eq_none.mp hfind text hmem)
  | some found => exact ⟨_, rfl⟩

/-- The value of a variable is that of an entry. -/
theorem mem_of_getenv_eq {value : List Char} (h : getenv name env = some value) :
    entry (name, value) ∈ env := by
  unfold getenv at h
  obtain ⟨text, hfind, rfl⟩ := Option.map_eq_some_iff.mp h
  have hnames : Names name text := by simpa using List.find?_some hfind
  obtain ⟨value, rfl⟩ := names_iff.mp hnames
  rw [drop_entry]
  exact List.mem_of_find?_eq_some hfind

/-- The first entry that has the name. -/
theorem getenv_cons {text : List Char} (h : Names name text) (env : List (List Char)) :
    getenv name (text :: env) = some (text.drop (name.length + 1)) := by
  unfold getenv
  rw [List.find?_cons_of_pos (by simpa using h)]
  rfl

theorem getenv_map_entry (h : '=' ∉ name) {vars : List (List Char × List Char)}
    (hvars : ∀ e ∈ vars, '=' ∉ e.1) :
    getenv name (vars.map entry) = (vars.find? fun e => decide (e.1 = name)).map Prod.snd := by
  unfold getenv
  induction vars with
  | nil => rfl
  | cons e vars ih =>
      have hnames : Names name (entry e) ↔ e.1 = name := by
        rw [← nameOf_eq_self (hvars e List.mem_cons_self)]
        exact names_entry_iff h e.1 e.2
      rw [List.map_cons]
      by_cases hname : e.1 = name
      · rw [List.find?_cons_of_pos (by simpa using hnames.mpr hname),
          List.find?_cons_of_pos (by simpa using hname), ← hname]
        exact congrArg some (drop_entry e.2)
      · rw [List.find?_cons_of_neg (by simpa using fun h => hname (hnames.mp h)),
          List.find?_cons_of_neg (by simpa using hname)]
        exact ih fun other hother => hvars other (List.mem_cons_of_mem _ hother)

/-- A variable that is set stays, and one that is not may be set. -/
theorem getenv_addNew_single (h : IsVarName name) (text : List Char) :
    getenv name (addNew env text) = (getenv name env).or (getenv name [text]) := by
  unfold addNew
  split_ifs with hnew
  · exact getenv_append name env [text]
  · rw [getenv_singleton]
    split_ifs with hnames
    · have hname := nameOf_of_names h.2 hnames
      rw [hname, not_and, not_not] at hnew
      obtain ⟨value, hvalue⟩ := exists_getenv_eq (hnew h.1)
      rw [hvalue]
      rfl
    · rw [Option.or_none]

/-- **The first entries win.** -/
theorem getenv_addNew (h : IsVarName name) (added : List (List Char)) :
    ∀ env, getenv name (added.foldl addNew env) = (getenv name env).or (getenv name added) := by
  induction added with
  | nil =>
      intro env
      exact (Option.or_none).symm
  | cons text added ih =>
      intro env
      rw [List.foldl_cons, ih, getenv_addNew_single h, Option.or_assoc, ← getenv_append]
      rfl

end Getenv

end Environ
