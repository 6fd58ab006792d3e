import Mathlib.Tactic

/-!
# File trees

A tree of directories, files and symlinks, and how paths are looked up in it: a symlink on the way
is followed from the directory that it is in, or from the root, and only so many symlinks nest.  On
top of this are the operations that a program performs by path.  Each is described by the real paths
that it touches, and by the tree that it leaves.

* `resolve_mono`: a lookup that succeeds also succeeds in a larger tree, with the same result.
* `createDirAll_made`: the directories that are made on a path are below what existed on it, and
  each new one is empty.
* `Leaf.resolve`: removing what is no directory leaves every path to a directory as it is.
-/

namespace FileTree

/-! ## Trees -/

/-- A step on the way. -/
inductive Step where
  | up
  | down (name : String)
  deriving DecidableEq, Repr

/-- Where a symlink points to. -/
structure Target where
  absolute : Bool
  steps : List Step
  deriving DecidableEq, Repr

/-- What is at a path. -/
inductive Node where
  | dir
  | file (content : List UInt8)
  | symlink (target : Target)
  deriving DecidableEq, Repr

/-- A tree, by the real paths from its root. -/
abbrev Tree := List String → Option Node

namespace Tree

variable (t : Tree)

/-- There is a directory. -/
def isDirAt (p : List String) : Bool :=
  match t p with
  | some .dir => true
  | _ => false

theorem isDirAt_iff {p : List String} : t.isDirAt p = true ↔ t p = some .dir := by
  rw [isDirAt]
  cases h : t p with
  | none => simp
  | some node => cases node <;> simp

/-- Everything is in a directory. -/
def WellFormed : Prop := ∀ p name, t (p ++ [name]) ≠ none → t.isDirAt p = true

/-- Put a node at a path, or remove what is there. -/
def set (p : List String) (node : Option Node) : Tree := Function.update t p node

/-! ## Lookup -/

/-- Why a lookup fails. -/
inductive LookupError where
  | notFound
  | notDir
  | loop
  deriving DecidableEq, Repr

/-- One step from a directory; `follow` follows a symlink. -/
def stepInto (follow : List String → List Step → Except LookupError (List String))
    (cur : List String) (s : Step) : Except LookupError (List String) :=
  if t.isDirAt cur then
    match s with
    | .up => .ok cur.dropLast
    | .down name =>
        match t (cur ++ [name]) with
        | none => .error .notFound
        | some (.symlink target) => follow (if target.absolute then [] else cur) target.steps
        | some _ => .ok (cur ++ [name])
  else .error .notDir

/-- The real path that the steps lead to. -/
def walkWith (follow : List String → List Step → Except LookupError (List String)) :
    List String → List Step → Except LookupError (List String)
  | cur, [] => .ok cur
  | cur, s :: rest =>
      match t.stepInto follow cur s with
      | .ok next => walkWith follow next rest
      | .error e => .error e

/-- How symlinks are followed, when `limit` of them nest. -/
def follow : ℕ → List String → List Step → Except LookupError (List String)
  | 0 => fun _ _ => .error .loop
  | limit + 1 => t.walkWith (follow limit)

/-- The real path of a path of names below a directory; symlinks are followed. -/
def resolve (limit : ℕ) (root names : List String) : Except LookupError (List String) :=
  t.walkWith (t.follow limit) root (names.map .down)

/-- The real path that a path of names stands for; a symlink at its end is not followed. -/
def locate (limit : ℕ) (root names : List String) : Except LookupError (List String) :=
  match names.getLast? with
  | none => .ok root
  | some name =>
      match t.resolve limit root names.dropLast with
      | .ok cur => if t.isDirAt cur then .ok (cur ++ [name]) else .error .notDir
      | .error e => .error e

/-- Something exists at the end of the path. -/
def pathExists (limit : ℕ) (root names : List String) : Bool :=
  match t.resolve limit root names with
  | .ok _ => true
  | .error _ => false

/-- There is a directory at the end of the path. -/
def isDir (limit : ℕ) (root names : List String) : Bool :=
  match t.resolve limit root names with
  | .ok p => t.isDirAt p
  | .error _ => false

variable {t} {limit : ℕ} {root names p : List String}

theorem walkWith_append {g : List String → List Step → Except LookupError (List String)}
    {cur : List String} {steps more : List Step} : t.walkWith g cur (steps ++ more) =
      match t.walkWith g cur steps with
      | .ok next => t.walkWith g next more
      | .error e => .error e := by
  induction steps generalizing cur with
  | nil => rfl
  | cons s rest ih =>
      rw [List.cons_append, walkWith, walkWith]
      cases t.stepInto g cur s with
      | ok next => exact ih
      | error e => rfl

theorem resolve_concat {name : String} : t.resolve limit root (names ++ [name]) =
    match t.resolve limit root names with
    | .ok cur => t.stepInto (t.follow limit) cur (.down name)
    | .error e => .error e := by
  rw [resolve, resolve, List.map_append, walkWith_append]
  cases t.walkWith (t.follow limit) root (names.map .down) with
  | error e => rfl
  | ok cur =>
      change (match t.stepInto (t.follow limit) cur (.down name) with
        | .ok next => .ok next
        | .error e => .error e) = t.stepInto (t.follow limit) cur (.down name)
      cases t.stepInto (t.follow limit) cur (.down name) <;> rfl

theorem locate_concat {name : String} : t.locate limit root (names ++ [name]) =
    match t.resolve limit root names with
    | .ok cur => if t.isDirAt cur then .ok (cur ++ [name]) else .error .notDir
    | .error e => .error e := by
  rw [locate, List.getLast?_concat, List.dropLast_concat]

/-! ## Larger trees -/

/-- Everything that is in the one tree is also in the other. -/
def Within (t t' : Tree) : Prop := ∀ p node, t p = some node → t' p = some node

theorem Within.isDirAt {t' : Tree} (h : t.Within t') {p : List String}
    (hdir : t.isDirAt p = true) : t'.isDirAt p = true :=
  t'.isDirAt_iff.mpr (h p .dir (t.isDirAt_iff.mp hdir))

theorem stepInto_mono {t' : Tree} (h : t.Within t')
    {g g' : List String → List Step → Except LookupError (List String)}
    (hg : ∀ cur steps p, g cur steps = .ok p → g' cur steps = .ok p) {cur : List String} {s : Step}
    (hstep : t.stepInto g cur s = .ok p) : t'.stepInto g' cur s = .ok p := by
  rw [stepInto.eq_def] at hstep ⊢
  split_ifs at hstep with hdir
  rw [if_pos (h.isDirAt hdir)]
  cases s with
  | up => exact hstep
  | down name =>
      dsimp only at hstep ⊢
      cases hnode : t (cur ++ [name]) with
      | none =>
          rw [hnode] at hstep
          cases hstep
      | some node =>
          rw [hnode] at hstep
          rw [h _ _ hnode]
          cases node with
          | dir => exact hstep
          | file content => exact hstep
          | symlink target => exact hg _ _ _ hstep

theorem walkWith_mono {t' : Tree} (h : t.Within t')
    {g g' : List String → List Step → Except LookupError (List String)}
    (hg : ∀ cur steps p, g cur steps = .ok p → g' cur steps = .ok p) {cur : List String}
    {steps : List Step} (hwalk : t.walkWith g cur steps = .ok p) :
    t'.walkWith g' cur steps = .ok p := by
  induction steps generalizing cur with
  | nil => exact hwalk
  | cons s rest ih =>
      rw [walkWith] at hwalk ⊢
      cases hstep : t.stepInto g cur s with
      | error e =>
          rw [hstep] at hwalk
          cases hwalk
      | ok next =>
          rw [hstep] at hwalk
          rw [stepInto_mono h hg hstep]
          exact ih hwalk

theorem follow_mono {t' : Tree} (h : t.Within t') {cur : List String} {steps : List Step}
    (hfollow : t.follow limit cur steps = .ok p) : t'.follow limit cur steps = .ok p := by
  induction limit generalizing cur steps p with
  | zero => cases hfollow
  | succ limit ih => exact walkWith_mono h (fun _ _ _ => ih) hfollow

/-- **A lookup in a larger tree** has the same result. -/
theorem resolve_mono {t' : Tree} (h : t.Within t') (hresolve : t.resolve limit root names = .ok p) :
    t'.resolve limit root names = .ok p :=
  walkWith_mono h (fun _ _ _ => follow_mono h) hresolve

/-! ## Changes -/

theorem set_eq (node : Option Node) : t.set p node p = node := Function.update_self ..

theorem set_of_ne {q : List String} (h : q ≠ p) (node : Option Node) : t.set p node q = t q :=
  Function.update_of_ne h ..

theorem set_set (node node' : Option Node) : (t.set p node).set p node' = t.set p node' :=
  Function.update_idem ..

theorem within_set {node : Node} (hfree : t p = none) : t.Within (t.set p (some node)) := by
  intro q n hq
  have hne : q ≠ p := by
    rintro rfl
    rw [hfree] at hq
    cases hq
  rw [set_of_ne hne]
  exact hq

theorem isDirAt_set_of_ne {q : List String} (h : q ≠ p) (node : Option Node) :
    (t.set p node).isDirAt q = t.isDirAt q := by
  rw [isDirAt, isDirAt, set_of_ne h]

/-- A node that is put into a directory keeps a tree well-formed, if a directory stays one. -/
theorem WellFormed.set (h : t.WellFormed) {cur : List String} {name : String} {node : Option Node}
    (hcur : t.isDirAt cur = true)
    (hdir : t.isDirAt (cur ++ [name]) = true → node = some .dir) :
    (t.set (cur ++ [name]) node).WellFormed := by
  intro q other hq
  by_cases hqp : q = cur ++ [name]
  · subst hqp
    have hne : cur ++ [name] ++ [other] ≠ cur ++ [name] := by simp
    rw [set_of_ne hne] at hq
    rw [isDirAt_iff, set_eq]
    exact hdir (h _ _ hq)
  · rw [isDirAt_set_of_ne hqp]
    by_cases hat : q ++ [other] = cur ++ [name]
    · rwa [(List.append_inj' hat rfl).1]
    · rw [set_of_ne hat] at hq
      exact h q other hq

/-- Nothing is below a place where no directory is. -/
theorem WellFormed.none_below (h : t.WellFormed) (hdir : t.isDirAt p = false) {rest : List String}
    (hrest : rest ≠ []) : t (p ++ rest) = none := by
  induction rest using List.reverseRecOn with
  | nil => exact absurd rfl hrest
  | append_singleton rest name ih =>
      by_contra hnode
      rw [← List.append_assoc] at hnode
      have habove := h _ _ hnode
      cases rest with
      | nil =>
          rw [List.append_nil, hdir] at habove
          cases habove
      | cons first rest =>
          rw [isDirAt_iff, ih (by simp)] at habove
          cases habove

/-! ## Directories -/

/-- Why a directory cannot be made. -/
inductive MkdirError where
  | notFound
  | alreadyExists
  | other
  deriving DecidableEq, Repr

variable (t limit root)

/-- `mkdir`: the real path of the new directory. -/
def mkdir (names : List String) : Except MkdirError (List String) :=
  match t.locate limit root names with
  | .ok p =>
      match t p with
      | none => .ok p
      | some _ => .error .alreadyExists
  | .error .notFound => .error .notFound
  | .error _ => .error .other

end Tree

/-- A tree after an operation, the real paths that the operation touched, and whether it returned
`Ok`. -/
structure Outcome where
  tree : Tree
  touched : List (List String)
  ok : Bool

namespace Tree

variable (t : Tree) (limit : ℕ) (root : List String)

/-- A directory and all that are missing above it.  The names are in reverse order. -/
def createDirAll : List String → Outcome
  | [] => ⟨t, [], t.isDir limit root []⟩
  | name :: above =>
      let names := above.reverse ++ [name]
      match t.mkdir limit root names with
      | .ok p => ⟨t.set p (some .dir), [p], true⟩
      | .error .notFound =>
          let made := createDirAll above
          if made.ok then
            match made.tree.mkdir limit root names with
            | .ok p => ⟨made.tree.set p (some .dir), made.touched ++ [p], true⟩
            | .error _ => { made with ok := made.tree.isDir limit root names }
          else made
      | .error _ => ⟨t, [], t.isDir limit root names⟩

/-- What the path leads to, as far as it exists.  The names are in reverse order. -/
def deepest : List String → List String
  | [] => root
  | name :: above =>
      match t.resolve limit root (above.reverse ++ [name]) with
      | .ok p => p
      | .error _ => deepest above

/-- `set_permissions`: the paths whose mode is set. -/
def setPermissions (names : List String) : List (List String) :=
  match t.resolve limit root names with
  | .ok p => [p]
  | .error _ => []

/-- `remove_file`. -/
def removeFile (names : List String) : Outcome :=
  match t.locate limit root names with
  | .error _ => ⟨t, [], false⟩
  | .ok p =>
      match t p with
      | none => ⟨t, [], false⟩
      | some .dir => ⟨t, [], false⟩
      | some _ => ⟨t.set p none, [p], true⟩

/-- `hard_link`: a copy of what is at the source, as for files that are only ever replaced. -/
def hardLink (src dest : List String) : Outcome :=
  match t.locate limit root src, t.locate limit root dest with
  | .ok s, .ok d =>
      match t s, t d with
      | some .dir, _ => ⟨t, [], false⟩
      | some node, none => ⟨t.set d (some node), [s, d], true⟩
      | _, _ => ⟨t, [], false⟩
  | _, _ => ⟨t, [], false⟩

variable {t limit root} {names p cur : List String} {name : String}

theorem resolve_concat_of_dir (hup : t.resolve limit root names = .ok cur)
    (hcur : t.isDirAt cur = true) (hdir : t (cur ++ [name]) = some .dir) :
    t.resolve limit root (names ++ [name]) = .ok (cur ++ [name]) := by
  rw [resolve_concat, hup]
  dsimp only
  rw [stepInto.eq_def, if_pos hcur]
  dsimp only
  rw [hdir]

theorem resolve_concat_of_free (hup : t.resolve limit root names = .ok cur)
    (hcur : t.isDirAt cur = true) (hfree : t (cur ++ [name]) = none) :
    t.resolve limit root (names ++ [name]) = .error .notFound := by
  rw [resolve_concat, hup]
  dsimp only
  rw [stepInto.eq_def, if_pos hcur]
  dsimp only
  rw [hfree]

theorem locate_concat_of_dir (hup : t.resolve limit root names = .ok cur)
    (hcur : t.isDirAt cur = true) :
    t.locate limit root (names ++ [name]) = .ok (cur ++ [name]) := by
  rw [locate_concat, hup]
  exact if_pos hcur

/-- What can be resolved has a parent that is a directory. -/
theorem resolve_concat_ok (h : t.resolve limit root (names ++ [name]) = .ok p) :
    ∃ cur, t.resolve limit root names = .ok cur ∧ t.isDirAt cur = true := by
  rw [resolve_concat] at h
  cases hup : t.resolve limit root names with
  | error e =>
      rw [hup] at h
      cases h
  | ok cur =>
      rw [hup] at h
      dsimp only at h
      rw [stepInto.eq_def] at h
      split_ifs at h with hcur
      exact ⟨cur, rfl, hcur⟩

/-- What can be located has a parent that is a directory. -/
theorem locate_concat_ok (h : t.locate limit root (names ++ [name]) = .ok p) :
    ∃ cur, t.resolve limit root names = .ok cur ∧ t.isDirAt cur = true ∧ p = cur ++ [name] := by
  rw [locate_concat] at h
  cases hup : t.resolve limit root names with
  | error e =>
      rw [hup] at h
      cases h
  | ok cur =>
      rw [hup] at h
      dsimp only at h
      split_ifs at h with hcur
      exact ⟨cur, rfl, hcur, (Except.ok.inj h).symm⟩

theorem locate_of_resolve (h : t.resolve limit root names = .ok p) :
    ∃ q, t.locate limit root names = .ok q := by
  induction names using List.reverseRecOn with
  | nil => exact ⟨root, rfl⟩
  | append_singleton names name _ =>
      obtain ⟨cur, hup, hcur⟩ := resolve_concat_ok h
      exact ⟨_, locate_concat_of_dir hup hcur⟩

theorem locate_mono {t' : Tree} (h : t.Within t') (hlocate : t.locate limit root names = .ok p) :
    t'.locate limit root names = .ok p := by
  induction names using List.reverseRecOn with
  | nil => exact hlocate
  | append_singleton names name _ =>
      obtain ⟨cur, hup, hcur, rfl⟩ := locate_concat_ok hlocate
      exact locate_concat_of_dir (resolve_mono h hup) (h.isDirAt hcur)

theorem pathExists_iff : t.pathExists limit root names = true ↔
    ∃ p, t.resolve limit root names = .ok p := by
  rw [pathExists]
  cases t.resolve limit root names with
  | ok p => simp
  | error e => simp

/-- A hard link is made between two places that are located, or nothing happens. -/
theorem hardLink_cases (t : Tree) (limit : ℕ) (root src dest : List String) :
    t.hardLink limit root src dest = ⟨t, [], false⟩ ∨
      ∃ s d node, t.locate limit root src = .ok s ∧ t.locate limit root dest = .ok d ∧
        t s = some node ∧ t d = none ∧
          t.hardLink limit root src dest = ⟨t.set d (some node), [s, d], true⟩ := by
  rw [hardLink]
  cases hsrc : t.locate limit root src with
  | error e => exact Or.inl rfl
  | ok s =>
      cases hdest : t.locate limit root dest with
      | error e => exact Or.inl rfl
      | ok d =>
          dsimp only
          cases hs : t s with
          | none => exact Or.inl rfl
          | some node =>
              cases hd : t d with
              | some other => cases node <;> exact Or.inl rfl
              | none =>
                  cases node with
                  | dir => exact Or.inl rfl
                  | file content => exact Or.inr ⟨s, d, _, rfl, rfl, hs, hd, rfl⟩
                  | symlink target => exact Or.inr ⟨s, d, _, rfl, rfl, hs, hd, rfl⟩

/-- What can be located and is no directory is removed. -/
theorem removeFile_of_locate {node : Node} (hlocate : t.locate limit root names = .ok p)
    (hnode : t p = some node) (hdir : t.isDirAt p = false) :
    t.removeFile limit root names = ⟨t.set p none, [p], true⟩ := by
  rw [removeFile, hlocate]
  dsimp only
  rw [hnode]
  cases node with
  | dir =>
      rw [isDirAt, hnode] at hdir
      cases hdir
  | file content => rfl
  | symlink target => rfl

theorem isDir_of_resolve (h : t.resolve limit root names = .ok p) :
    t.isDir limit root names = t.isDirAt p := by
  rw [isDir, h]

theorem isDir_iff : t.isDir limit root names = true ↔
    ∃ p, t.resolve limit root names = .ok p ∧ t.isDirAt p = true := by
  rw [isDir]
  cases t.resolve limit root names with
  | ok p => simp
  | error e => simp

theorem deepest_of_resolve {above : List String}
    (h : t.resolve limit root above.reverse = .ok p) : t.deepest limit root above = p := by
  cases above with
  | nil => exact Except.ok.inj h
  | cons name above =>
      rw [List.reverse_cons] at h
      rw [deepest, h]

/-- What `createDirAll` leaves on a path: the tree grows, by places below what existed on the path.
If it succeeds, a directory is at the end of the path, with nothing in it if it is new. -/
structure Made (t : Tree) (limit : ℕ) (root above : List String) (made : Outcome) : Prop where
  within : t.Within made.tree
  wellFormed : made.tree.WellFormed
  touched : ∀ p ∈ made.touched, t.deepest limit root above <+: p
  outcome : (made.ok = true ∧ ∃ p, made.tree.resolve limit root above.reverse = .ok p ∧
      made.tree.isDirAt p = true ∧ t.deepest limit root above <+: p ∧
      (made.tree = t ∨ ∀ name, made.tree (p ++ [name]) = none)) ∨
    made = ⟨t, [], false⟩ ∧ t.isDir limit root above.reverse = false

/-- Nothing is made. -/
theorem Made.unchanged (hwf : t.WellFormed) (limit : ℕ) (root above : List String) :
    t.Made limit root above ⟨t, [], t.isDir limit root above.reverse⟩ where
  within _ _ hnode := hnode
  wellFormed := hwf
  touched _ hp := by cases hp
  outcome := by
    cases hdir : t.isDir limit root above.reverse with
    | false => exact Or.inr ⟨rfl, rfl⟩
    | true =>
        obtain ⟨p, hresolve, hp⟩ := isDir_iff.mp hdir
        refine Or.inl ⟨rfl, p, hresolve, hp, ?_, Or.inl rfl⟩
        rw [deepest_of_resolve hresolve]

/-- A directory is made in the last one of a path. -/
theorem Made.concat {above : List String} {made : Outcome} (hmade : t.Made limit root above made)
    (hok : t.resolve limit root (above.reverse ++ [name]) = .error .notFound)
    (hup : made.tree.resolve limit root above.reverse = .ok cur)
    (hcur : made.tree.isDirAt cur = true) (hdeep : t.deepest limit root above <+: cur)
    (hfree : made.tree (cur ++ [name]) = none) :
    t.Made limit root (name :: above)
      ⟨made.tree.set (cur ++ [name]) (some .dir), made.touched ++ [cur ++ [name]], true⟩ := by
  have hgrow : made.tree.Within (made.tree.set (cur ++ [name]) (some .dir)) := within_set hfree
  have hdeepest : t.deepest limit root (name :: above) = t.deepest limit root above := by
    rw [deepest, hok]
  have hnodir : made.tree.isDirAt (cur ++ [name]) = false := by
    rw [isDirAt, hfree]
  refine ⟨fun q node hq => hgrow q node (hmade.within q node hq),
    hmade.wellFormed.set hcur fun _ => rfl, ?_, Or.inl ⟨rfl, cur ++ [name], ?_, ?_, ?_, Or.inr ?_⟩⟩
  · intro q hq
    rw [hdeepest]
    rcases List.mem_append.mp hq with hq | hq
    · exact hmade.touched q hq
    · rw [List.mem_singleton.mp hq]
      exact hdeep.trans (List.prefix_append _ _)
  · rw [List.reverse_cons]
    refine resolve_concat_of_dir (resolve_mono hgrow hup) (hgrow.isDirAt hcur) (set_eq _)
  · rw [isDirAt_iff]
    exact set_eq _
  · rw [hdeepest]
    exact hdeep.trans (List.prefix_append _ _)
  · intro other
    dsimp only
    rw [set_of_ne (by simp), hmade.wellFormed.none_below hnodir (by simp)]

theorem mkdir_concat_ok (h : t.mkdir limit root (names ++ [name]) = .ok p) :
    ∃ cur, t.resolve limit root names = .ok cur ∧ t.isDirAt cur = true ∧ p = cur ++ [name] ∧
      t (cur ++ [name]) = none := by
  rw [mkdir] at h
  cases hlocate : t.locate limit root (names ++ [name]) with
  | error e =>
      rw [hlocate] at h
      cases e <;> cases h
  | ok q =>
      rw [hlocate] at h
      dsimp only at h
      obtain ⟨cur, hup, hcur, rfl⟩ := locate_concat_ok hlocate
      cases hnode : t (cur ++ [name]) with
      | some node =>
          rw [hnode] at h
          cases h
      | none =>
          rw [hnode] at h
          exact ⟨cur, hup, hcur, (Except.ok.inj h).symm, hnode⟩

theorem mkdir_concat_notFound (h : t.mkdir limit root (names ++ [name]) = .error .notFound) :
    t.resolve limit root names = .error .notFound := by
  rw [mkdir, locate_concat] at h
  cases hup : t.resolve limit root names with
  | error e =>
      rw [hup] at h
      cases e with
      | notFound => rfl
      | notDir => cases h
      | loop => cases h
  | ok cur =>
      rw [hup] at h
      dsimp only at h
      cases hcur : t.isDirAt cur with
      | false =>
          rw [if_neg (by rw [hcur]; exact Bool.false_ne_true)] at h
          cases h
      | true =>
          rw [if_pos hcur] at h
          cases hnode : t (cur ++ [name]) with
          | none =>
              dsimp only at h
              rw [hnode] at h
              cases h
          | some node =>
              dsimp only at h
              rw [hnode] at h
              cases h

theorem mkdir_concat_of_free (hup : t.resolve limit root names = .ok cur)
    (hcur : t.isDirAt cur = true) (hfree : t (cur ++ [name]) = none) :
    t.mkdir limit root (names ++ [name]) = .ok (cur ++ [name]) := by
  rw [mkdir, locate_concat_of_dir hup hcur]
  dsimp only
  rw [hfree]

theorem resolve_concat_error {e : LookupError} (h : t.resolve limit root names = .error e)
    (name : String) :
    t.resolve limit root (names ++ [name]) = .error e := by
  rw [resolve_concat, h]

/-- **All directories on a path.** -/
theorem createDirAll_made (hwf : t.WellFormed) (limit : ℕ) (root above : List String) :
    t.Made limit root above (t.createDirAll limit root above) := by
  induction above with
  | nil => exact Made.unchanged hwf limit root []
  | cons name above ih =>
      rw [createDirAll]
      dsimp only
      cases hmkdir : t.mkdir limit root (above.reverse ++ [name]) with
      | ok p =>
          obtain ⟨cur, hup, hcur, rfl, hfree⟩ := mkdir_concat_ok hmkdir
          have hthere : t.Made limit root above ⟨t, [], true⟩ := by
            have hunchanged := Made.unchanged hwf limit root above
            rwa [isDir_of_resolve hup, hcur] at hunchanged
          refine hthere.concat (resolve_concat_of_free hup hcur hfree) hup hcur ?_ hfree
          rw [deepest_of_resolve hup]
      | error e =>
          cases e with
          | notFound =>
              -- Whatever is missing is made first, and is empty.
              have hup := mkdir_concat_notFound hmkdir
              have hmissing := resolve_concat_error hup name
              dsimp only
              rcases ih.outcome with ⟨hok, cur, hcurUp, hcur, hdeep, hnew⟩ | ⟨hfailed, hdir⟩
              · have hempty : ∀ name,
                    (t.createDirAll limit root above).tree (cur ++ [name]) = none := by
                  rcases hnew with hsame | hempty
                  · rw [hsame, hup] at hcurUp
                    cases hcurUp
                  · exact hempty
                rw [if_pos hok, mkdir_concat_of_free hcurUp hcur (hempty name)]
                exact ih.concat hmissing hcurUp hcur hdeep (hempty name)
              · rw [if_neg (by rw [hfailed]; exact Bool.false_ne_true), hfailed]
                have hunchanged := Made.unchanged hwf limit root (name :: above)
                rwa [List.reverse_cons, isDir, hmissing] at hunchanged
          | alreadyExists =>
              have hunchanged := Made.unchanged hwf limit root (name :: above)
              rwa [List.reverse_cons] at hunchanged
          | other =>
              have hunchanged := Made.unchanged hwf limit root (name :: above)
              rwa [List.reverse_cons] at hunchanged

/-- A place on a path that was made is below what existed, and is free unless nothing was made. -/
theorem Made.locate {above : List String} {made : Outcome} (h : t.Made limit root above made)
    (hlocate : made.tree.locate limit root (above.reverse ++ [name]) = .ok p) :
    t.deepest limit root above <+: p ∧ (made.tree = t ∨ made.tree p = none ∧
      made.tree.resolve limit root (above.reverse ++ [name]) = .error .notFound) := by
  obtain ⟨cur, hup, hcur, rfl⟩ := locate_concat_ok hlocate
  rcases h.outcome with ⟨-, q, hq, -, hdeep, hnew⟩ | ⟨hsame, hnodir⟩
  · obtain rfl := Except.ok.inj (hup.symm.trans hq)
    refine ⟨hdeep.trans (List.prefix_append _ _), ?_⟩
    rcases hnew with hsame | hempty
    · exact Or.inl hsame
    · exact Or.inr ⟨hempty name, resolve_concat_of_free hup hcur (hempty name)⟩
  · -- Without a directory there is no place.
    rw [hsame] at hup hcur
    rw [isDir_of_resolve hup, hcur] at hnodir
    cases hnodir

/-- On a path to a directory nothing is made. -/
theorem createDirAll_of_isDir {above : List String}
    (h : t.isDir limit root above.reverse = true) :
    t.createDirAll limit root above = ⟨t, [], true⟩ := by
  cases above with
  | nil =>
      rw [createDirAll]
      exact congrArg (Outcome.mk t []) h
  | cons name above =>
      rw [List.reverse_cons] at h
      obtain ⟨p, hp, hdir⟩ := isDir_iff.mp h
      obtain ⟨cur, hup, hcur⟩ := resolve_concat_ok hp
      have hmkdir : t.mkdir limit root (above.reverse ++ [name]) = .error .alreadyExists := by
        rw [mkdir, locate_concat_of_dir hup hcur]
        cases hnode : t (cur ++ [name]) with
        | none =>
            rw [resolve_concat_of_free hup hcur hnode] at hp
            cases hp
        | some node =>
            dsimp only
            rw [hnode]
      rw [createDirAll]
      dsimp only
      rw [hmkdir]
      exact congrArg (Outcome.mk t []) h

/-! ## Files -/

theorem follow_le {limit' : ℕ} (hle : limit ≤ limit') {cur : List String} {steps : List Step}
    (h : t.follow limit cur steps = .ok p) : t.follow limit' cur steps = .ok p := by
  induction limit generalizing limit' cur steps p with
  | zero => cases h
  | succ limit ih =>
      obtain ⟨more, rfl⟩ := Nat.exists_eq_add_of_le' hle
      exact walkWith_mono (fun _ _ hnode => hnode) (fun _ _ _ => ih (Nat.le_add_left _ _)) h

/-- What a symlink leads to does not depend on how many nest. -/
theorem follow_unique {limit' : ℕ} {cur : List String} {steps : List Step} {q : List String}
    (h : t.follow limit cur steps = .ok p) (h' : t.follow limit' cur steps = .ok q) : p = q := by
  rcases Nat.le_total limit limit' with hle | hle
  · exact Except.ok.inj ((follow_le hle h).symm.trans h')
  · exact Except.ok.inj (h.symm.trans (follow_le hle h'))

/-- No directory is at a place, and none is behind it. -/
def Leaf (t : Tree) (cur : List String) (name : String) : Prop :=
  t.isDirAt (cur ++ [name]) = false ∧
    ∀ limit target p, t (cur ++ [name]) = some (.symlink target) →
      t.follow limit (if target.absolute then [] else cur) target.steps = .ok p →
        t.isDirAt p = false

theorem leaf_of_resolve {q : List String} (hup : t.resolve limit root names = .ok cur)
    (hcur : t.isDirAt cur = true) (h : t.resolve limit root (names ++ [name]) = .ok q)
    (hq : t.isDirAt q = false) : t.Leaf cur name := by
  rw [resolve_concat, hup] at h
  dsimp only at h
  rw [stepInto.eq_def, if_pos hcur] at h
  dsimp only at h
  constructor
  · by_contra hdir
    rw [Bool.not_eq_false, isDirAt_iff] at hdir
    rw [hdir] at h
    obtain rfl := Except.ok.inj h
    rw [isDirAt, hdir] at hq
    cases hq
  · intro limit' target p hnode hp
    rw [hnode] at h
    rw [follow_unique hp h]
    exact hq

/-- What exists on a path and is no directory is removed where it is. -/
theorem removeFile_of_exists (hroot : t.isDirAt root = true)
    (hexists : t.pathExists limit root names = true) (hdir : t.isDir limit root names = false) :
    ∃ above name cur, names = above ++ [name] ∧ t.resolve limit root above = .ok cur ∧
      t.isDirAt cur = true ∧ t.Leaf cur name ∧
        t.removeFile limit root names = ⟨t.set (cur ++ [name]) none, [cur ++ [name]], true⟩ := by
  obtain ⟨q, hq⟩ := pathExists_iff.mp hexists
  rw [isDir_of_resolve hq] at hdir
  induction names using List.reverseRecOn with
  | nil =>
      obtain rfl := Except.ok.inj hq
      rw [hroot] at hdir
      cases hdir
  | append_singleton above name _ =>
      obtain ⟨cur, hup, hcur⟩ := resolve_concat_ok hq
      have hleaf := leaf_of_resolve hup hcur hq hdir
      refine ⟨above, name, cur, rfl, hup, hcur, hleaf, ?_⟩
      cases hnode : t (cur ++ [name]) with
      | none =>
          rw [resolve_concat_of_free hup hcur hnode] at hq
          cases hq
      | some node => exact removeFile_of_locate (locate_concat_of_dir hup hcur) hnode hleaf.1

variable (hleaf : t.Leaf cur name)

include hleaf

theorem Leaf.ne {q : List String} (hq : t.isDirAt q = true) : q ≠ cur ++ [name] := by
  rintro rfl
  rw [hleaf.1] at hq
  cases hq

/-- A step to a directory does not need a place that leads to none. -/
theorem Leaf.stepInto {limit' : ℕ} {g' : List String → List Step → Except LookupError (List String)}
    (hg : ∀ c steps q, t.follow limit' c steps = .ok q → t.isDirAt q = true → g' c steps = .ok q)
    {c : List String} {s : Step} (hstep : t.stepInto (t.follow limit') c s = .ok p)
    (hp : t.isDirAt p = true) : (t.set (cur ++ [name]) none).stepInto g' c s = .ok p := by
  rw [stepInto.eq_def] at hstep ⊢
  split_ifs at hstep with hdir
  rw [if_pos (by rwa [isDirAt_set_of_ne (hleaf.ne hdir)])]
  cases s with
  | up => exact hstep
  | down other =>
      dsimp only at hstep ⊢
      by_cases hat : c ++ [other] = cur ++ [name]
      · -- What is behind the place would be a directory.
        obtain ⟨rfl, hname⟩ := List.append_inj' hat rfl
        obtain rfl := List.singleton_inj.mp hname
        exfalso
        cases hnode : t (c ++ [other]) with
        | none =>
            rw [hnode] at hstep
            cases hstep
        | some node =>
            rw [hnode] at hstep
            cases node with
            | dir =>
                have := hleaf.1
                rw [isDirAt, hnode] at this
                cases this
            | file content =>
                obtain rfl := Except.ok.inj hstep
                rw [hleaf.1] at hp
                cases hp
            | symlink target =>
                rw [hleaf.2 _ target p hnode hstep] at hp
                cases hp
      · rw [set_of_ne hat]
        cases hnode : t (c ++ [other]) with
        | none =>
            rw [hnode] at hstep
            cases hstep
        | some node =>
            rw [hnode] at hstep
            cases node with
            | dir => exact hstep
            | file content => exact hstep
            | symlink target => exact hg _ _ _ hstep hp

theorem Leaf.walkWith {limit' : ℕ} {g' : List String → List Step → Except LookupError (List String)}
    (hg : ∀ c steps q, t.follow limit' c steps = .ok q → t.isDirAt q = true → g' c steps = .ok q)
    {c : List String} {steps : List Step} (hwalk : t.walkWith (t.follow limit') c steps = .ok p)
    (hp : t.isDirAt p = true) : (t.set (cur ++ [name]) none).walkWith g' c steps = .ok p := by
  induction steps generalizing c with
  | nil => exact hwalk
  | cons s rest ih =>
      rw [Tree.walkWith] at hwalk ⊢
      cases hstep : t.stepInto (t.follow limit') c s with
      | error e =>
          rw [hstep] at hwalk
          cases hwalk
      | ok next =>
          rw [hstep] at hwalk
          dsimp only at hwalk
          -- Whatever has a step behind it is a directory.
          have hnext : t.isDirAt next = true := by
            cases rest with
            | nil =>
                obtain rfl := Except.ok.inj hwalk
                exact hp
            | cons s' rest =>
                rw [Tree.walkWith, stepInto.eq_def] at hwalk
                by_contra hdir
                rw [if_neg hdir] at hwalk
                cases hwalk
          rw [hleaf.stepInto hg hstep hnext]
          exact ih hwalk

theorem Leaf.follow {limit' : ℕ} {c : List String} {steps : List Step}
    (hfollow : t.follow limit' c steps = .ok p) (hp : t.isDirAt p = true) :
    (t.set (cur ++ [name]) none).follow limit' c steps = .ok p := by
  induction limit' generalizing c steps p with
  | zero => cases hfollow
  | succ limit' ih => exact hleaf.walkWith (fun _ _ _ => ih) hfollow hp

/-- **Removing what is no directory** leaves every path to a directory as it is. -/
theorem Leaf.resolve (hresolve : t.resolve limit root names = .ok p) (hp : t.isDirAt p = true) :
    (t.set (cur ++ [name]) none).resolve limit root names = .ok p :=
  hleaf.walkWith (fun _ _ _ => hleaf.follow) hresolve hp

end Tree

end FileTree
