import K3rs.Lib.FileTree
import K3rs.Lib.Transition

/-!
# Extraction of a rootfs

`RootfsManager::extract` unpacks the layers of an image into the directory `rootfs` of a container.
The names in the path of an entry are joined to that directory, whatever else is in the path.  Hard
links are kept back until the other entries of their layer are done, and an error ends the
extraction.

`extract` is a run over the entries and links in the order in which they are dealt with
(`extract_eq_run`).  The real paths that it touches are recorded on the way.
-/

namespace K3rs

open FileTree Transition

/-! ## Archives -/

/-- `std::path::Component`. -/
inductive Component where
  | rootDir
  | curDir
  | parentDir
  | normal (name : String)
  deriving DecidableEq, Repr

/-- `Path::file_name`. -/
def fileName (path : List Component) : Option String :=
  match path.getLast? with
  | some (.normal name) => some name
  | _ => none

/-- The names in a path. -/
def normalNames (path : List Component) : List String :=
  path.filterMap fun
    | .normal name => some name
    | _ => none

/-- `tar::EntryType`, with the content of the entry.  What is neither a directory nor a link is
unpacked as a file. -/
inductive EntryKind where
  | directory
  | regular (content : List UInt8)
  | symlink (target : Target)
  | link (linkName : Option (List Component))
  deriving DecidableEq, Repr

/-- `tar::Entry`. -/
structure TarEntry where
  path : List Component
  kind : EntryKind
  deriving DecidableEq, Repr

/-- A layer file: its entries, up to one that cannot be read. -/
abbrev Archive := List (Option TarEntry)

/-- The entry marks a deletion. -/
def TarEntry.isWhiteout (e : TarEntry) : Bool :=
  match fileName e.path with
  | some name => ".wh.".toList.isPrefixOf name.toList
  | none => false

/-- The source and the destination of a hard link, below `rootfs`. -/
def TarEntry.hardLink (e : TarEntry) : Option (List String × List String) :=
  match e.kind with
  | .link (some linkName) => some (normalNames linkName, normalNames e.path)
  | _ => none

/-- `io::ErrorKind`, as far as the code looks at it. -/
inductive ErrorKind where
  | alreadyExists
  | other
  deriving DecidableEq, Repr

/-! ## The code -/

/-- How far an extraction is: the file tree, the real paths that were touched, and whether it ended
with an error. -/
structure Extraction where
  tree : Tree
  touched : List (List String)
  failed : Bool

/-- An operation on the tree. -/
def Extraction.perform (x : Extraction) (o : Outcome) : Extraction :=
  { x with tree := o.tree, touched := x.touched ++ o.touched }

/-- The paths are touched, and nothing else happens. -/
def Extraction.touch (x : Extraction) (paths : List (List String)) : Extraction :=
  { x with touched := x.touched ++ paths }

/-- `RootfsManager`, with what it works on: `Entry::unpack` at a real path, the number of symlinks
that a lookup lets nest, and the real path of `rootfs`. -/
structure RootfsManager where
  unpack : EntryKind → Tree → List String → Tree × Option ErrorKind
  limit : ℕ
  rootfs : List String

namespace RootfsManager

variable (m : RootfsManager)

/-- Remove a file that blocks the unpack. -/
def removeBlocking (names : List String) (x : Extraction) : Extraction :=
  if x.tree.pathExists m.limit m.rootfs names && !x.tree.isDir m.limit m.rootfs names then
    (x.touch (x.tree.setPermissions m.limit m.rootfs names)).perform
      (x.tree.removeFile m.limit m.rootfs names)
  else x

/-- `create_dir_all` on the parent of a path.  The parent of `rootfs` is there already. -/
def createParent (names : List String) (x : Extraction) : Extraction :=
  x.perform (x.tree.createDirAll m.limit m.rootfs names.dropLast.reverse)

/-- `entry.unpack(&dest)`.  It also sets the mode, of what is behind a symlink if there is one. -/
def unpackAt (names : List String) (kind : EntryKind) (x : Extraction) : Extraction :=
  match x.tree.locate m.limit m.rootfs names with
  | .error _ => { x with failed := true }
  | .ok p =>
      let (tree, error) := m.unpack kind x.tree p
      { tree := tree
        touched := x.touched ++ p :: x.tree.setPermissions m.limit m.rootfs names
        failed := error = some .other }

/-- What is done for an entry that is not kept back. -/
def place (names : List String) (kind : EntryKind) (x : Extraction) : Extraction :=
  m.unpackAt names kind (m.createParent names (m.removeBlocking names x))

/-- What is done for a hard link. -/
def link (src dest : List String) (x : Extraction) : Extraction :=
  if x.tree.pathExists m.limit m.rootfs dest then x
  else if x.tree.pathExists m.limit m.rootfs src then
    let x := m.createParent dest x
    let o := x.tree.hardLink m.limit m.rootfs src dest
    { x.perform o with failed := !o.ok }
  else x

/-- The loop over the entries, with the links that are kept back. -/
def extractEntries : Archive → List (List String × List String) → Extraction →
    Extraction × List (List String × List String)
  | [], deferred, x => (x, deferred)
  | none :: _, deferred, x => ({ x with failed := true }, deferred)
  | some e :: rest, deferred, x =>
      if e.isWhiteout then extractEntries rest deferred x
      else
        match e.hardLink with
        | some l => extractEntries rest (deferred ++ [l]) x
        | none =>
            let x := m.place (normalNames e.path) e.kind x
            if x.failed then (x, deferred) else extractEntries rest deferred x

/-- The loop over the links. -/
def extractLinks : List (List String × List String) → Extraction → Extraction
  | [], x => x
  | (src, dest) :: rest, x =>
      let x := m.link src dest x
      if x.failed then x else extractLinks rest x

/-- One layer. -/
def extractLayer (archive : Archive) (x : Extraction) : Extraction :=
  let (x, deferred) := m.extractEntries archive [] x
  if x.failed then x else m.extractLinks deferred x

/-- The loop over the layers. -/
def extractLayers : List Archive → Extraction → Extraction
  | [], x => x
  | archive :: rest, x =>
      let x := m.extractLayer archive x
      if x.failed then x else extractLayers rest x

end RootfsManager

/-- `Path::extension` of a file name: what is behind the last dot, unless it is the first
character. -/
def fileExtension (name : String) : Option String :=
  match name.toList.reverse.span (· != '.') with
  | (ext, '.' :: _ :: _) => some (String.ofList ext.reverse)
  | _ => none

/-- Files of one directory are compared by their names. -/
def nameLe (f g : String × Archive) : Bool := decide (f.1 ≤ g.1)

/-- The layer files in a directory, which is listed in any order, sorted. -/
def sortedLayers (files : List (String × Archive)) : List Archive :=
  ((files.filter fun f => fileExtension f.1 = some "gz").mergeSort nameLe).map Prod.snd

/-- `extract`, from a tree in which `rootfs` is made; without a directory `layers` it fails. -/
def RootfsManager.extract (m : RootfsManager) (layersDir : Option (List (String × Archive)))
    (t : Tree) : Extraction :=
  match layersDir with
  | none => ⟨t, [], true⟩
  | some files => m.extractLayers (sortedLayers files) ⟨t, [], false⟩

/-! ## Extraction as a run -/

/-- What is dealt with at a time. -/
inductive ExtractAction where
  | place (names : List String) (kind : EntryKind)
  | link (src dest : List String)
  | broken
  deriving DecidableEq, Repr

namespace RootfsManager

variable (m : RootfsManager)

/-- One action.  After an error there is none. -/
def step (x : Extraction) (a : ExtractAction) : Extraction :=
  if x.failed then x
  else
    match a with
    | .place names kind => m.place names kind x
    | .link src dest => m.link src dest x
    | .broken => { x with failed := true }

end RootfsManager

/-- The links that are kept back. -/
def deferredLinks : Archive → List (List String × List String)
  | [] => []
  | none :: rest => deferredLinks rest
  | some e :: rest =>
      if e.isWhiteout then deferredLinks rest
      else
        match e.hardLink with
        | some l => l :: deferredLinks rest
        | none => deferredLinks rest

/-- What is done for the entries. -/
def entryActions : Archive → List ExtractAction
  | [] => []
  | none :: rest => .broken :: entryActions rest
  | some e :: rest =>
      if e.isWhiteout then entryActions rest
      else
        match e.hardLink with
        | some _ => entryActions rest
        | none => .place (normalNames e.path) e.kind :: entryActions rest

/-- What is done for a layer. -/
def layerActions (archive : Archive) : List ExtractAction :=
  entryActions archive ++ (deferredLinks archive).map fun l => .link l.1 l.2

/-- What is done for all layers. -/
def imageActions (layers : List Archive) : List ExtractAction := layers.flatMap layerActions

namespace RootfsManager

variable {m : RootfsManager} {x : Extraction}

theorem step_of_failed (h : x.failed = true) (a : ExtractAction) : m.step x a = x := if_pos h

theorem run_of_failed (h : x.failed = true) (actions : List ExtractAction) :
    run m.step x actions = x := by
  induction actions with
  | nil => rfl
  | cons a rest ih => rw [run_cons, step_of_failed h, ih]

theorem extractLinks_eq_run (hx : x.failed = false) (links : List (List String × List String)) :
    m.extractLinks links x = run m.step x (links.map fun l => .link l.1 l.2) := by
  induction links generalizing x with
  | nil => rfl
  | cons l rest ih =>
      obtain ⟨src, dest⟩ := l
      have hstep : m.step x (.link src dest) = m.link src dest x := by
        rw [step, hx]
        rfl
      rw [extractLinks, List.map_cons, run_cons, hstep]
      by_cases hfailed : (m.link src dest x).failed = true
      · rw [if_pos hfailed, run_of_failed hfailed]
      · rw [if_neg hfailed, ih (Bool.eq_false_of_not_eq_true hfailed)]

/-- The loop over the entries runs their actions, and keeps the links back unless it fails. -/
theorem extractEntries_eq_run (hx : x.failed = false) (archive : Archive)
    (deferred : List (List String × List String)) :
    (m.extractEntries archive deferred x).1 = run m.step x (entryActions archive) ∧
      ((m.extractEntries archive deferred x).1.failed = false →
        (m.extractEntries archive deferred x).2 = deferred ++ deferredLinks archive) := by
  induction archive generalizing deferred x with
  | nil => exact ⟨rfl, fun _ => (List.append_nil deferred).symm⟩
  | cons entry rest ih =>
      cases entry with
      | none =>
          have hstep : m.step x .broken = { x with failed := true } := by
            rw [step, hx]
            rfl
          constructor
          · rw [extractEntries, entryActions, run_cons, hstep, run_of_failed rfl]
          · intro h
            cases h
      | some e =>
          rw [extractEntries, entryActions, deferredLinks]
          by_cases hwhiteout : e.isWhiteout = true
          · rw [if_pos hwhiteout, if_pos hwhiteout, if_pos hwhiteout]
            exact ih hx deferred
          · rw [if_neg hwhiteout, if_neg hwhiteout, if_neg hwhiteout]
            cases e.hardLink with
            | some l =>
                obtain ⟨hrun, hlinks⟩ := ih hx (deferred ++ [l])
                refine ⟨hrun, fun hok => ?_⟩
                rw [hlinks hok, List.append_assoc]
                rfl
            | none =>
                have hstep : m.step x (.place (normalNames e.path) e.kind) =
                    m.place (normalNames e.path) e.kind x := by
                  rw [step, hx]
                  rfl
                dsimp only
                rw [run_cons, hstep]
                by_cases hfailed : (m.place (normalNames e.path) e.kind x).failed = true
                · rw [if_pos hfailed, run_of_failed hfailed]
                  refine ⟨rfl, fun hok => ?_⟩
                  rw [hfailed] at hok
                  cases hok
                · rw [if_neg hfailed]
                  exact ih (Bool.eq_false_of_not_eq_true hfailed) deferred

theorem extractLayer_eq_run (hx : x.failed = false) (archive : Archive) :
    m.extractLayer archive x = run m.step x (layerActions archive) := by
  obtain ⟨hrun, hlinks⟩ := extractEntries_eq_run (m := m) hx archive []
  rw [extractLayer, layerActions, run_append, ← hrun]
  dsimp only
  by_cases hfailed : (m.extractEntries archive [] x).1.failed = true
  · rw [if_pos hfailed, run_of_failed hfailed]
  · have hok := Bool.eq_false_of_not_eq_true hfailed
    rw [if_neg hfailed, hlinks hok, List.nil_append, extractLinks_eq_run hok]

theorem extractLayers_eq_run (hx : x.failed = false) (layers : List Archive) :
    m.extractLayers layers x = run m.step x (imageActions layers) := by
  induction layers generalizing x with
  | nil => rfl
  | cons archive rest ih =>
      rw [extractLayers, imageActions, List.flatMap_cons, run_append, ← extractLayer_eq_run hx]
      by_cases hfailed : (m.extractLayer archive x).failed = true
      · rw [if_pos hfailed, run_of_failed hfailed]
      · rw [if_neg hfailed]
        exact ih (Bool.eq_false_of_not_eq_true hfailed)

/-- **Extraction is a run** over what there is to do for the sorted layers. -/
theorem extract_eq_run (files : List (String × Archive)) (t : Tree) :
    m.extract (some files) t =
      run m.step ⟨t, [], false⟩ (imageActions (sortedLayers files)) :=
  extractLayers_eq_run rfl _

end RootfsManager

/-! ## The tree stays one -/

namespace RootfsManager

/-- `Entry::unpack` writes at the given path only, and does not replace a directory. -/
structure Writes (m : RootfsManager) : Prop where
  elsewhere : ∀ kind t p q, q ≠ p → (m.unpack kind t p).1 q = t q
  directory : ∀ kind t p, t.isDirAt p = true → (m.unpack kind t p).1 p = some .dir

section

variable (m : RootfsManager)

/-- The file tree is one, and has `rootfs` in it. -/
structure Sound (t : Tree) : Prop where
  wellFormed : t.WellFormed
  rootfs : t.isDirAt m.rootfs = true

end

variable {m : RootfsManager} {x : Extraction} {names : List String}

/-- What is put at a place keeps the tree, if a directory there stays one. -/
theorem Sound.set {t : Tree} (h : m.Sound t) {cur : List String} {name : String}
    {node : Option Node} (hcur : t.isDirAt cur = true)
    (hdir : t.isDirAt (cur ++ [name]) = true → node = some .dir) :
    m.Sound (t.set (cur ++ [name]) node) where
  wellFormed := h.wellFormed.set hcur hdir
  rootfs := by
    by_cases hat : m.rootfs = cur ++ [name]
    · rw [hat, Tree.isDirAt_iff, Tree.set_eq]
      exact hdir (hat ▸ h.rootfs)
    · rw [Tree.isDirAt_set_of_ne hat]
      exact h.rootfs

/-- The same at a place that is located. -/
theorem Sound.put {t : Tree} (h : m.Sound t) {p : List String} {node : Option Node}
    (hlocate : t.locate m.limit m.rootfs names = .ok p)
    (hdir : t.isDirAt p = true → node = some .dir) : m.Sound (t.set p node) := by
  induction names using List.reverseRecOn with
  | nil =>
      obtain rfl := Except.ok.inj hlocate
      have hsame : t.set m.rootfs node = t := by
        rw [hdir h.rootfs, ← t.isDirAt_iff.mp h.rootfs]
        exact Function.update_eq_self ..
      rwa [hsame]
  | append_singleton above name _ =>
      obtain ⟨cur, -, hcur, rfl⟩ := Tree.locate_concat_ok hlocate
      exact h.set hcur hdir

/-- Either nothing blocks, or what does is removed where it is. -/
theorem removeBlocking_cases (hsound : m.Sound x.tree) (names : List String) :
    m.removeBlocking names x = x ∧ (x.tree.pathExists m.limit m.rootfs names = false ∨
        x.tree.isDir m.limit m.rootfs names = true) ∨
      x.tree.pathExists m.limit m.rootfs names = true ∧
        x.tree.isDir m.limit m.rootfs names = false ∧
      ∃ above name cur, names = above ++ [name] ∧
        x.tree.resolve m.limit m.rootfs above = .ok cur ∧ x.tree.isDirAt cur = true ∧
          x.tree.Leaf cur name ∧ m.removeBlocking names x =
            ⟨x.tree.set (cur ++ [name]) none,
              x.touched ++ x.tree.setPermissions m.limit m.rootfs names ++ [cur ++ [name]],
              x.failed⟩ := by
  rw [removeBlocking]
  split_ifs with hblocked
  · obtain ⟨hexists, hnodir⟩ := Bool.and_eq_true_iff.mp hblocked
    rw [Bool.not_eq_true'] at hnodir
    obtain ⟨above, name, cur, rfl, hup, hcur, hleaf, hremove⟩ :=
      Tree.removeFile_of_exists hsound.rootfs hexists hnodir
    refine Or.inr ⟨hexists, hnodir, above, name, cur, rfl, hup, hcur, hleaf, ?_⟩
    rw [hremove]
    rfl
  · refine Or.inl ⟨rfl, ?_⟩
    cases hexists : x.tree.pathExists m.limit m.rootfs names with
    | false => exact Or.inl rfl
    | true =>
        rw [hexists, Bool.true_and, Bool.not_eq_true', Bool.not_eq_false] at hblocked
        exact Or.inr hblocked

theorem removeBlocking_sound (hsound : m.Sound x.tree) (names : List String) :
    m.Sound (m.removeBlocking names x).tree := by
  rcases removeBlocking_cases hsound names with
    ⟨hsame, -⟩ | ⟨-, -, above, name, cur, -, -, hcur, hleaf, hremove⟩
  · rwa [hsame]
  · rw [hremove]
    refine hsound.set hcur fun hdir => ?_
    rw [hleaf.1] at hdir
    cases hdir

theorem createParent_made (hsound : m.Sound x.tree) (names : List String) :
    x.tree.Made m.limit m.rootfs names.dropLast.reverse
      (x.tree.createDirAll m.limit m.rootfs names.dropLast.reverse) :=
  Tree.createDirAll_made hsound.wellFormed _ _ _

theorem createParent_within (hsound : m.Sound x.tree) (names : List String) :
    x.tree.Within (m.createParent names x).tree := (createParent_made hsound names).within

theorem createParent_sound (hsound : m.Sound x.tree) (names : List String) :
    m.Sound (m.createParent names x).tree where
  wellFormed := (createParent_made hsound names).wellFormed
  rootfs := (createParent_within hsound names).isDirAt hsound.rootfs

/-- Where the parent of a path is made, the path is below what existed, and free unless nothing was
made. -/
theorem createParent_locate {p : List String} (hsound : m.Sound x.tree)
    (hlocate : (m.createParent names x).tree.locate m.limit m.rootfs names = .ok p) :
    x.tree.deepest m.limit m.rootfs names.dropLast.reverse <+: p ∧
      ((m.createParent names x).tree = x.tree ∨ (m.createParent names x).tree p = none ∧
        (m.createParent names x).tree.resolve m.limit m.rootfs names = .error .notFound) := by
  induction names using List.reverseRecOn with
  | nil =>
      obtain rfl := Except.ok.inj hlocate
      exact ⟨List.prefix_rfl, Or.inl rfl⟩
  | append_singleton above name _ =>
      have htree : (m.createParent (above ++ [name]) x).tree =
          (x.tree.createDirAll m.limit m.rootfs above.reverse).tree := by
        rw [createParent, List.dropLast_concat]
        rfl
      rw [htree] at hlocate ⊢
      rw [List.dropLast_concat]
      have hmade := Tree.createDirAll_made hsound.wellFormed m.limit m.rootfs above.reverse
      have hplace := hmade.locate (by rw [List.reverse_reverse]; exact hlocate)
      rwa [List.reverse_reverse] at hplace

/-- What `Entry::unpack` leaves. -/
theorem unpack_eq (hwrites : m.Writes) (kind : EntryKind) (t : Tree) (p : List String) :
    (m.unpack kind t p).1 = t.set p ((m.unpack kind t p).1 p) := by
  ext1 q
  by_cases hq : q = p
  · rw [hq, Tree.set_eq]
  · rw [Tree.set_of_ne hq, hwrites.elsewhere kind t p q hq]

theorem unpack_sound (hwrites : m.Writes) {t : Tree} (hsound : m.Sound t) {p : List String}
    (hlocate : t.locate m.limit m.rootfs names = .ok p) (kind : EntryKind) :
    m.Sound (m.unpack kind t p).1 := by
  rw [unpack_eq hwrites]
  exact hsound.put hlocate (hwrites.directory kind t p)

theorem unpackAt_sound (hwrites : m.Writes) (hsound : m.Sound x.tree) (kind : EntryKind) :
    m.Sound (m.unpackAt names kind x).tree := by
  rw [unpackAt]
  cases hlocate : x.tree.locate m.limit m.rootfs names with
  | error e => exact hsound
  | ok p => exact unpack_sound hwrites hsound hlocate kind

theorem place_sound (hwrites : m.Writes) (hsound : m.Sound x.tree) (kind : EntryKind) :
    m.Sound (m.place names kind x).tree :=
  unpackAt_sound hwrites (createParent_sound (removeBlocking_sound hsound names) names) kind

theorem link_sound (hsound : m.Sound x.tree) (src dest : List String) :
    m.Sound (m.link src dest x).tree := by
  rw [link]
  split_ifs
  · exact hsound
  · have hsound' := createParent_sound hsound dest
    dsimp only
    rcases Tree.hardLink_cases (m.createParent dest x).tree m.limit m.rootfs src dest with
      hnone | ⟨s, d, node, -, hd, -, hfree, hlinked⟩
    · rw [hnone]
      exact hsound'
    · rw [hlinked]
      refine hsound'.put hd fun hdir => ?_
      rw [Tree.isDirAt, hfree] at hdir
      cases hdir
  · exact hsound

/-- **Every action keeps the tree**, and `rootfs` in it. -/
theorem step_sound (hwrites : m.Writes) (hsound : m.Sound x.tree) (a : ExtractAction) :
    m.Sound (m.step x a).tree := by
  by_cases hx : x.failed = true
  · rw [step_of_failed hx]
    exact hsound
  cases a with
  | place names kind =>
      rw [step, if_neg hx]
      exact place_sound hwrites hsound kind
  | link src dest =>
      rw [step, if_neg hx]
      exact link_sound hsound src dest
  | broken =>
      rw [step, if_neg hx]
      exact hsound

end RootfsManager

end K3rs
