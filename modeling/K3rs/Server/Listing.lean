import K3rs.Lib.Programs

/-!
# Listings

`StateStore::list_prefix` drains the iterator of a scan.  Its loop goes on while the iterator
returns an entry, so that an error of the iterator ends it like the end of the scan does: what
was collected is returned as if it were everything (`drain_breaksAt`).  For the programs over
the store that is the outcome `Outcome.cut`.
-/

namespace K3rs

open Programs

/-! ## Prefixes -/

/-- `str::starts_with`. -/
def startsWith (key start : String) : Bool := start.toList.isPrefixOf key.toList

theorem startsWith_iff {key start : String} :
    startsWith key start = true ↔ start.toList <+: key.toList := List.isPrefixOf_iff_prefix

/-- A key is below at most one of two directories. -/
theorem not_startsWith_of_startsWith {k a b : String} (ha : startsWith k a = true)
    (hab : startsWith a b = false) (hba : startsWith b a = false) : startsWith k b = false := by
  rw [← Bool.not_eq_true, startsWith_iff]
  intro hb
  rcases List.prefix_or_prefix_of_prefix (startsWith_iff.mp ha) hb with h | h
  · exact absurd (startsWith_iff.mpr h) (by simp [hba])
  · exact absurd (startsWith_iff.mpr h) (by simp [hab])

/-- A key outside of a directory is outside of what is below it. -/
theorem not_startsWith_of_not {k a b : String} (hk : startsWith k b = false)
    (hab : startsWith a b = true) : startsWith k a = false := by
  rw [← Bool.not_eq_true, startsWith_iff] at hk ⊢
  exact fun ha => hk ((startsWith_iff.mp hab).trans ha)

theorem startsWith_append (a b : String) : startsWith (a ++ b) a = true := by
  rw [startsWith_iff, String.toList_append]
  exact List.prefix_append _ _

theorem startsWith_append_left {k a : String} (h : startsWith k a = true) (b : String) :
    startsWith (k ++ b) a = true := by
  rw [startsWith_iff, String.toList_append]
  exact (startsWith_iff.mp h).trans (List.prefix_append _ _)

theorem startsWith_trans {k a b : String} (hk : startsWith k a = true)
    (ha : startsWith a b = true) : startsWith k b = true :=
  startsWith_iff.mpr ((startsWith_iff.mp ha).trans (startsWith_iff.mp hk))

/-! ## The loop over the iterator -/

variable {ν : Type}

/-- The loop of `list_prefix`, over what the iterator is going to return; at the end of the list
it returns `Ok(None)`. -/
def drain : List (Except String (String × ν)) → List (String × ν)
  | .ok kv :: rest => kv :: drain rest
  | .error _ :: _ => []
  | [] => []

/-- An iterator over some entries that fails after `n` of them. -/
def breaksAt (entries : List (String × ν)) (n : ℕ) (e : String) :
    List (Except String (String × ν)) :=
  (entries.take n).map .ok ++ [.error e]

/-- The error is taken for the end. -/
theorem drain_breaksAt (entries : List (String × ν)) (n : ℕ) (e : String) :
    drain (breaksAt entries n e) = entries.take n := by
  rw [breaksAt]
  induction entries.take n with
  | nil => rfl
  | cons kv rest ih => exact congrArg (kv :: ·) ih

/-- `StateStore::list_prefix`. -/
def listPrefix (start : String) : Prog String ν (List (String × ν)) :=
  .list fun key => startsWith key start

theorem exec_list_ok (start : String) (outcomes : List Outcome)
    (store : KeyValue String ν) (hok : outcomes.headD .ok = .ok) :
    (listPrefix start).exec outcomes store =
      (.ok (store.scan fun key => startsWith key start), outcomes.tail, store) := by
  simp only [listPrefix, Prog.list, Prog.exec, hok]
  rfl

/-- A listing that breaks off returns what the loop over the failing iterator collects. -/
theorem exec_list_cut (start : String) (n : ℕ) (outcomes : List Outcome)
    (store : KeyValue String ν) (e : String) :
    (listPrefix start).exec (.cut n :: outcomes) store =
      (.ok (drain (breaksAt (store.scan fun key => startsWith key start) n e)), outcomes, store) := by
  rw [drain_breaksAt]
  rfl

end K3rs
