import K3rs.Container.Confinement

/-!
# Layers

What an image stands for is the tree that its layers leave when they are applied one after the
other.  An extraction leaves this tree, for at most ten layers, with whiteouts left out and the hard
links of a layer behind its other entries (`extract_layers`).  A file that a whiteout deletes stays
(`whiteout_ignored`).
-/

namespace K3rs

open FileTree Transition

/-! ## The order of the layers -/

/-- The file that `pull` writes a layer to. -/
def layerName (i : ℕ) : String := "layer_" ++ toString i ++ ".tar.gz"

/-- The layer files of an image, in the order of the manifest. -/
def layerFiles (layers : List Archive) : List (String × Archive) :=
  layers.zipIdx.map fun l => (layerName l.2, l.1)

theorem fileExtension_layerName : ∀ i : Fin 10, fileExtension (layerName i) = some "gz" := by
  decide

theorem layerName_lt : ∀ i j : Fin 10, i < j → layerName i < layerName j := by
  decide

theorem nameLe_trans (f g h : String × Archive) (hfg : nameLe f g = true)
    (hgh : nameLe g h = true) : nameLe f h = true :=
  decide_eq_true (String.le_trans (of_decide_eq_true hfg) (of_decide_eq_true hgh))

theorem nameLe_total (f g : String × Archive) : (nameLe f g || nameLe g f) = true := by
  rw [nameLe, nameLe]
  rcases String.le_total f.1 g.1 with h | h
  · rw [decide_eq_true h, Bool.true_or]
  · rw [decide_eq_true h, Bool.or_true]

section

variable {layers : List Archive} (hlen : layers.length ≤ 10)

include hlen

theorem layerFiles_pairwise :
    (layerFiles layers).Pairwise fun f g => f.1 < g.1 := by
  rw [layerFiles, List.pairwise_map]
  rw [List.pairwise_iff_getElem]
  intro i j hi hj hij
  rw [List.length_zipIdx] at hi hj
  rw [List.getElem_zipIdx, List.getElem_zipIdx]
  dsimp only
  rw [Nat.zero_add, Nat.zero_add]
  exact layerName_lt ⟨i, by omega⟩ ⟨j, by omega⟩ hij

theorem layerFiles_extension {f : String × Archive} (hf : f ∈ layerFiles layers) :
    fileExtension f.1 = some "gz" := by
  obtain ⟨⟨archive, i⟩, hl, rfl⟩ := List.mem_map.mp hf
  have hi := (List.mem_zipIdx hl).2.1
  exact fileExtension_layerName ⟨i, by omega⟩

/-- **The sort by names** puts the layers of a pulled image into their order, however the directory
is listed. -/
theorem sortedLayers_of_perm {files : List (String × Archive)}
    (hfiles : files.Perm (layerFiles layers)) : sortedLayers files = layers := by
  have hfilter : files.filter (fun f => fileExtension f.1 = some "gz") = files := by
    rw [List.filter_eq_self]
    intro f hf
    exact decide_eq_true (layerFiles_extension hlen (hfiles.subset hf))
  have hstrict := layerFiles_pairwise hlen
  have hnodup : ((layerFiles layers).map Prod.fst).Nodup :=
    List.pairwise_map.mpr (hstrict.imp fun h => String.ne_of_lt h)
  have hperm := (List.mergeSort_perm files nameLe).trans hfiles
  have hpairwise := List.pairwise_mergeSort nameLe_trans nameLe_total files
  have hsorted : files.mergeSort nameLe = layerFiles layers := by
    refine hperm.eq_of_pairwise (fun f g hf hg hfg hgf => ?_)
      (hpairwise.imp fun h => of_decide_eq_true h) (hstrict.imp fun h => ?_)
    · exact List.inj_on_of_nodup_map hnodup (hperm.subset hf) hg (String.le_antisymm hfg hgf)
    · exact (String.le_total _ _).resolve_right fun hle => String.not_lt.mpr hle h
  rw [sortedLayers, hfilter, hsorted, layerFiles, List.map_map]
  exact List.zipIdx_map_fst _ _

end

/-! ## Applying the layers -/

/-- The entries of a layer that are neither whiteouts nor hard links. -/
def placedEntries (archive : Archive) : List TarEntry :=
  (archive.filterMap id).filter fun e => !e.isWhiteout && e.hardLink.isNone

/-- The hard links of a layer. -/
def hardLinks (archive : Archive) : List (List String × List String) :=
  ((archive.filterMap id).filter fun e => !e.isWhiteout).filterMap TarEntry.hardLink

namespace RootfsManager

variable (m : RootfsManager)

/-- A path is taken by something other than a file: by a directory, or by a symlink that leads to
one or to nothing. -/
def keepsDirectory (t : Tree) (names p : List String) : Bool :=
  (t p).isSome &&
    (!t.pathExists m.limit m.rootfs names || t.isDir m.limit m.rootfs names)

/-- Put an entry at its path.  It replaces what is there, but a directory is only put where no
directory can be. -/
def put (t : Tree) (names : List String) (kind : EntryKind) : Tree :=
  let t := (t.createDirAll m.limit m.rootfs names.dropLast.reverse).tree
  match t.locate m.limit m.rootfs names with
  | .error _ => t
  | .ok p =>
      match kind with
      | .regular content => t.set p (some (.file content))
      | .symlink target => t.set p (some (.symlink target))
      | .directory => if m.keepsDirectory t names p then t else t.set p (some .dir)
      | .link _ => t

/-- Put a hard link at its path, which replaces what is there unless the layer has put it there.
`before` is the tree before the layer. -/
def putLink (before t : Tree) (src dest : List String) : Tree :=
  if t.pathExists m.limit m.rootfs dest && !before.pathExists m.limit m.rootfs dest then t
  else if t.pathExists m.limit m.rootfs src then
    let t := (t.createDirAll m.limit m.rootfs dest.dropLast.reverse).tree
    match t.locate m.limit m.rootfs src, t.locate m.limit m.rootfs dest with
    | .ok s, .ok d => t.set d (t s)
    | _, _ => t
  else t

/-- Apply a layer without its whiteouts: its entries in their order, then its hard links. -/
def applyLayer (t : Tree) (archive : Archive) : Tree :=
  (hardLinks archive).foldl (fun t' l => m.putLink t t' l.1 l.2)
    ((placedEntries archive).foldl (fun t' e => m.put t' (normalNames e.path) e.kind) t)

/-- Nothing is at the paths of the hard links of a layer before it is applied. -/
def FreshLinks (t : Tree) (archive : Archive) : Prop :=
  ∀ l ∈ hardLinks archive, t.pathExists m.limit m.rootfs l.2 = false

instance (t : Tree) (archive : Archive) : Decidable (m.FreshLinks t archive) :=
  inferInstanceAs (Decidable (∀ l ∈ hardLinks archive, _))

/-- `Entry::unpack` replaces files and symlinks, makes directories where nothing is, and does not
unpack hard links, unless it fails. -/
structure Replaces (m : RootfsManager) : Prop extends Writes m where
  regular : ∀ content t p, (m.unpack (.regular content) t p).2 ≠ some .other →
    (m.unpack (.regular content) t p).1 = t.set p (some (.file content))
  symlink : ∀ target t p, (m.unpack (.symlink target) t p).2 ≠ some .other →
    (m.unpack (.symlink target) t p).1 = t.set p (some (.symlink target))
  makeDir : ∀ t p, (m.unpack .directory t p).2 ≠ some .other →
    (m.unpack .directory t p).1 = if (t p).isSome then t else t.set p (some .dir)
  link : ∀ linkName t p, (m.unpack (.link linkName) t p).2 = some .other

variable {m} {x : Extraction} {names : List String}

theorem createParent_eq (names : List String) : (m.createParent names x).tree =
    (x.tree.createDirAll m.limit m.rootfs names.dropLast.reverse).tree := rfl

theorem unpackAt_tree {kind : EntryKind} (hok : (m.unpackAt names kind x).failed = false) :
    ∃ p, x.tree.locate m.limit m.rootfs names = .ok p ∧
      (m.unpack kind x.tree p).2 ≠ some .other ∧
        (m.unpackAt names kind x).tree = (m.unpack kind x.tree p).1 := by
  rw [unpackAt] at hok ⊢
  cases hlocate : x.tree.locate m.limit m.rootfs names with
  | error e =>
      rw [hlocate] at hok
      cases hok
  | ok p =>
      rw [hlocate] at hok
      exact ⟨p, rfl, of_decide_eq_false hok, rfl⟩

/-- What `Entry::unpack` leaves at a place. -/
theorem Replaces.unpack_eq (h : m.Replaces) {kind : EntryKind} {t : Tree} {p : List String}
    (hok : (m.unpack kind t p).2 ≠ some .other) : (m.unpack kind t p).1 =
      match kind with
      | .regular content => t.set p (some (.file content))
      | .symlink target => t.set p (some (.symlink target))
      | .directory => if (t p).isSome then t else t.set p (some .dir)
      | .link _ => t := by
  cases kind with
  | directory => exact h.makeDir t p hok
  | regular content => exact h.regular content t p hok
  | symlink target => exact h.symlink target t p hok
  | link linkName => exact absurd (h.link linkName t p) hok

/-- Where nothing blocks. -/
theorem place_tree_of_free (h : m.Replaces) (hsound : m.Sound x.tree) {kind : EntryKind}
    (hfree : x.tree.pathExists m.limit m.rootfs names = false ∨
      x.tree.isDir m.limit m.rootfs names = true)
    (hok : (m.unpackAt names kind (m.createParent names x)).failed = false) :
    (m.unpackAt names kind (m.createParent names x)).tree = m.put x.tree names kind := by
  obtain ⟨p, hlocate, hunpack, htree⟩ := unpackAt_tree hok
  rw [htree, h.unpack_eq hunpack, put, ← createParent_eq]
  rw [hlocate]
  cases kind with
  | directory =>
      dsimp only
      cases hnode : (m.createParent names x).tree p with
      | none =>
          rw [keepsDirectory, hnode]
          rfl
      | some node =>
          -- What is there was there before.
          have hkeeps : m.keepsDirectory (m.createParent names x).tree names p = true := by
            rw [keepsDirectory, hnode, Option.isSome_some, Bool.true_and]
            rcases (createParent_locate hsound hlocate).2 with hsame | ⟨hnone, -⟩
            · rw [hsame]
              rcases hfree with hfree | hfree
              · rw [hfree]
                rfl
              · rw [hfree, Bool.or_true]
            · rw [hnone] at hnode
              cases hnode
          rw [hkeeps]
          rfl
  | regular content => rfl
  | symlink target => rfl
  | link linkName => exact absurd (h.link linkName _ _) hunpack

/-- **An entry is put at its path**: that a file in the way is removed first makes no difference. -/
theorem place_tree (h : m.Replaces) (hsound : m.Sound x.tree) {kind : EntryKind}
    (hok : (m.place names kind x).failed = false) :
    (m.place names kind x).tree = m.put x.tree names kind := by
  rw [place] at hok ⊢
  rcases removeBlocking_cases hsound names with
    ⟨hsame, hfree⟩ | ⟨hexists, hnodir, above, name, cur, rfl, hup, hcur, hleaf, hremove⟩
  · rw [hsame] at hok ⊢
    exact place_tree_of_free h hsound hfree hok
  · have hup' := hleaf.resolve hup hcur
    have hcur' : (x.tree.set (cur ++ [name]) none).isDirAt cur = true := by
      rwa [Tree.isDirAt_set_of_ne (hleaf.ne hcur)]
    -- The parent is there, with or without the file.
    have hparent : (m.createParent (above ++ [name]) (m.removeBlocking (above ++ [name]) x)).tree =
        x.tree.set (cur ++ [name]) none := by
      rw [createParent_eq, hremove, List.dropLast_concat, Tree.createDirAll_of_isDir]
      rw [List.reverse_reverse, Tree.isDir_of_resolve hup']
      exact hcur'
    have hput : (x.tree.createDirAll m.limit m.rootfs (above ++ [name]).dropLast.reverse).tree =
        x.tree := by
      rw [List.dropLast_concat, Tree.createDirAll_of_isDir]
      rw [List.reverse_reverse, Tree.isDir_of_resolve hup]
      exact hcur
    obtain ⟨p, hlocate, hunpack, htree⟩ := unpackAt_tree hok
    rw [hparent] at hlocate hunpack htree
    rw [Tree.locate_concat_of_dir hup' hcur'] at hlocate
    obtain rfl := Except.ok.inj hlocate
    rw [htree, h.unpack_eq hunpack, put, hput]
    rw [Tree.locate_concat_of_dir hup hcur]
    cases kind with
    | directory =>
        dsimp only
        rw [Tree.set_eq, keepsDirectory, hexists, hnodir, Bool.not_true, Bool.or_false,
          Bool.and_false]
        exact Tree.set_set _ _
    | regular content => exact Tree.set_set _ _
    | symlink target => exact Tree.set_set _ _
    | link linkName => exact absurd (h.link linkName _ _) hunpack

/-- A hard link is put at its path. -/
theorem link_tree {before : Tree} {src dest : List String}
    (hfresh : before.pathExists m.limit m.rootfs dest = false)
    (hok : (m.link src dest x).failed = false) :
    (m.link src dest x).tree = m.putLink before x.tree src dest := by
  rw [link] at hok ⊢
  rw [putLink, hfresh, Bool.not_false, Bool.and_true]
  split_ifs with hdest hsrc
  · rfl
  · rw [if_neg hdest, if_pos hsrc] at hok
    dsimp only at hok ⊢
    rcases Tree.hardLink_cases (m.createParent dest x).tree m.limit m.rootfs src dest with
      hnone | ⟨s, d, node, hs, hd, hnode, -, hlinked⟩
    · rw [hnone] at hok
      cases hok
    · rw [hlinked, ← createParent_eq, hs, hd]
      dsimp only
      rw [hnode]
      rfl
  · rfl

/-! ## An extraction applies the layers -/

theorem run_sound (h : m.Writes) (hsound : m.Sound x.tree) (actions : List ExtractAction) :
    m.Sound (run m.step x actions).tree := by
  induction actions generalizing x with
  | nil => exact hsound
  | cons a rest ih => exact ih (step_sound h hsound a)

/-- An extraction that has not failed has not failed before. -/
theorem ok_of_run {actions : List ExtractAction} (hok : (run m.step x actions).failed = false) :
    x.failed = false := by
  by_contra hx
  rw [Bool.not_eq_false] at hx
  rw [run_of_failed hx, hx] at hok
  cases hok

theorem run_entries_tree (h : m.Replaces) (hsound : m.Sound x.tree) {archive : Archive}
    (hok : (run m.step x (entryActions archive)).failed = false) :
    (run m.step x (entryActions archive)).tree =
      (placedEntries archive).foldl (fun t e => m.put t (normalNames e.path) e.kind) x.tree := by
  induction archive generalizing x with
  | nil => rfl
  | cons entry rest ih =>
      have hx := ok_of_run hok
      cases entry with
      | none =>
          have hbroken : (m.step x .broken).failed = true := by
            rw [step, hx]
            rfl
          rw [entryActions, run_cons, run_of_failed hbroken, hbroken] at hok
          cases hok
      | some e =>
          rw [entryActions] at hok ⊢
          have hplaced : placedEntries (some e :: rest) =
              if !e.isWhiteout && e.hardLink.isNone then e :: placedEntries rest
              else placedEntries rest := List.filter_cons
          rw [hplaced]
          by_cases hwhiteout : e.isWhiteout = true
          · rw [if_pos hwhiteout] at hok ⊢
            rw [hwhiteout]
            exact ih hsound hok
          · rw [if_neg hwhiteout] at hok ⊢
            rw [Bool.eq_false_of_not_eq_true hwhiteout]
            cases hlink : e.hardLink with
            | some l =>
                rw [hlink] at hok
                exact ih hsound hok
            | none =>
                have hstep : m.step x (.place (normalNames e.path) e.kind) =
                    m.place (normalNames e.path) e.kind x := by
                  rw [step, hx]
                  rfl
                rw [hlink] at hok
                dsimp only at hok ⊢
                rw [run_cons, hstep] at hok ⊢
                rw [ih (place_sound h.toWrites hsound e.kind) hok,
                  place_tree h hsound (ok_of_run hok)]
                rfl

theorem run_links_tree {before : Tree} {links : List (List String × List String)}
    (hfresh : ∀ l ∈ links, before.pathExists m.limit m.rootfs l.2 = false)
    (hok : (run m.step x (links.map fun l => .link l.1 l.2)).failed = false) :
    (run m.step x (links.map fun l => .link l.1 l.2)).tree =
      links.foldl (fun t l => m.putLink before t l.1 l.2) x.tree := by
  induction links generalizing x with
  | nil => rfl
  | cons l rest ih =>
      have hx := ok_of_run hok
      have hstep : m.step x (.link l.1 l.2) = m.link l.1 l.2 x := by
        rw [step, hx]
        rfl
      rw [List.map_cons, run_cons, hstep] at hok ⊢
      rw [ih (fun l' hl' => hfresh l' (List.mem_cons_of_mem _ hl')) hok,
        link_tree (hfresh l List.mem_cons_self) (ok_of_run hok)]
      rfl

theorem deferredLinks_eq (archive : Archive) : deferredLinks archive = hardLinks archive := by
  induction archive with
  | nil => rfl
  | cons entry rest ih =>
      cases entry with
      | none => exact ih
      | some e =>
          have hlinks : hardLinks (some e :: rest) =
              ((if !e.isWhiteout then e :: (rest.filterMap id).filter fun e => !e.isWhiteout
                else (rest.filterMap id).filter fun e => !e.isWhiteout).filterMap
                  TarEntry.hardLink) := congrArg _ List.filter_cons
          rw [deferredLinks, hlinks]
          by_cases hwhiteout : e.isWhiteout = true
          · rw [if_pos hwhiteout, hwhiteout]
            exact ih
          · rw [if_neg hwhiteout, Bool.eq_false_of_not_eq_true hwhiteout, Bool.not_false,
              if_pos rfl, List.filterMap_cons, ih]
            cases e.hardLink with
            | some l => rfl
            | none => rfl

/-- One layer. -/
theorem run_layer_tree (h : m.Replaces) (hsound : m.Sound x.tree) {archive : Archive}
    (hfresh : m.FreshLinks x.tree archive)
    (hok : (run m.step x (layerActions archive)).failed = false) :
    (run m.step x (layerActions archive)).tree = m.applyLayer x.tree archive := by
  rw [layerActions, run_append, deferredLinks_eq] at hok ⊢
  rw [run_links_tree hfresh hok, run_entries_tree h hsound (ok_of_run hok), applyLayer]

/-- All layers. -/
theorem run_layers_tree (h : m.Replaces) (hsound : m.Sound x.tree) {layers : List Archive}
    (hfresh : Admitted m.applyLayer m.FreshLinks x.tree layers)
    (hok : (run m.step x (imageActions layers)).failed = false) :
    (run m.step x (imageActions layers)).tree = run m.applyLayer x.tree layers := by
  induction layers generalizing x with
  | nil => rfl
  | cons archive rest ih =>
      obtain ⟨hlinks, hrest⟩ := hfresh
      rw [imageActions, List.flatMap_cons, run_append] at hok ⊢
      have hlayer := run_layer_tree h hsound hlinks (ok_of_run hok)
      rw [← hlayer] at hrest
      rw [run_cons, ← hlayer]
      exact ih (run_sound h.toWrites hsound _) hrest hok

/-- **An extraction leaves what its layers stand for**: whenever it succeeds, the layer files of an
image of at most ten layers, listed in any order, leave the tree that the layers leave when they are
applied in the order of the manifest, without their whiteouts. -/
theorem extract_layers (h : m.Replaces) {layers : List Archive} (hlen : layers.length ≤ 10)
    {files : List (String × Archive)} (hfiles : files.Perm (layerFiles layers)) {t : Tree}
    (hsound : m.Sound t) (hfresh : Admitted m.applyLayer m.FreshLinks t layers)
    (hok : (m.extract (some files) t).failed = false) :
    (m.extract (some files) t).tree = run m.applyLayer t layers := by
  rw [extract_eq_run, sortedLayers_of_perm hlen hfiles] at hok ⊢
  exact run_layers_tree h hsound hfresh hok

end RootfsManager

theorem hostManager_replaces : hostManager.Replaces where
  toWrites := hostManager_writes
  regular content t p hok := by
    change (replaceUnpack (.regular content) t p).2 ≠ some .other at hok
    change (replaceUnpack (.regular content) t p).1 = _
    rw [replaceUnpack] at hok ⊢
    split_ifs at hok ⊢ with hdir
    · exact absurd rfl hok
    · rfl
  symlink target t p hok := by
    change (replaceUnpack (.symlink target) t p).2 ≠ some .other at hok
    change (replaceUnpack (.symlink target) t p).1 = _
    rw [replaceUnpack] at hok ⊢
    split_ifs at hok ⊢ with hdir
    · exact absurd rfl hok
    · rfl
  makeDir t p hok := by
    change (replaceUnpack .directory t p).1 = _
    rw [replaceUnpack]
    cases t p with
    | none => rfl
    | some node => cases node <;> rfl
  link linkName t p := rfl

/-- A file, and a layer that replaces it and links to it. -/
def twoLayers : List Archive :=
  [[some ⟨[.normal "a"], .regular [1]⟩],
    [some ⟨[.normal "d", .normal "l"], .link (some [.normal "a"])⟩,
      some ⟨[.rootDir, .normal "a"], .regular [2]⟩]]

theorem extract_layers_twoLayers :
    (hostManager.extract (some (layerFiles twoLayers).reverse) hostTree).tree =
      run hostManager.applyLayer hostTree twoLayers := by
  refine RootfsManager.extract_layers hostManager_replaces (by decide) (List.reverse_perm _)
    hostTree_sound (by decide) ?_
  have hsorted : sortedLayers (layerFiles twoLayers).reverse = twoLayers :=
    sortedLayers_of_perm (by decide) (List.reverse_perm _)
  rw [RootfsManager.extract_eq_run, hsorted]
  decide

/-! ## Whiteouts -/

/-- The path that a whiteout deletes. -/
def TarEntry.whiteoutNames (e : TarEntry) : List String :=
  match fileName e.path with
  | some name => (normalNames e.path).dropLast ++ [String.ofList (name.toList.drop 4)]
  | none => normalNames e.path

/-- The whiteouts of a layer. -/
def whiteouts (archive : Archive) : List TarEntry :=
  (archive.filterMap id).filter TarEntry.isWhiteout

namespace RootfsManager

variable (m : RootfsManager)

/-- Delete what is at a path, with all that is in it. -/
def deleteAt (t : Tree) (names : List String) : Tree :=
  match t.locate m.limit m.rootfs names with
  | .ok p => fun q => if p <+: q then none else t q
  | .error _ => t

/-- Apply a layer with its whiteouts, which delete from the layers below. -/
def ociLayer (t : Tree) (archive : Archive) : Tree :=
  m.applyLayer ((whiteouts archive).foldl (fun t e => m.deleteAt t e.whiteoutNames) t) archive

end RootfsManager

/-- A file, and a layer that deletes it. -/
def deletingLayers : List Archive :=
  [[some ⟨[.normal "a"], .regular []⟩], [some ⟨[.normal ".wh.a"], .regular []⟩]]

/-- Whiteouts delete nothing. -/
theorem whiteout_ignored : ¬∀ (m : RootfsManager) (layers : List Archive)
    (files : List (String × Archive)) (t : Tree), m.Replaces → files.Perm (layerFiles layers) →
      m.Sound t → (m.extract (some files) t).failed = false →
        (m.extract (some files) t).tree = run m.ociLayer t layers := by
  intro hall
  have hsame := hall hostManager deletingLayers (layerFiles deletingLayers) hostTree
    hostManager_replaces (List.Perm.refl _) hostTree_sound
  have hsorted : sortedLayers (layerFiles deletingLayers) = deletingLayers :=
    sortedLayers_of_perm (by decide) (List.Perm.refl _)
  rw [RootfsManager.extract_eq_run, hsorted] at hsame
  have hat := congrFun (hsame (by decide)) ["rootfs", "a"]
  have hextracted : (run hostManager.step ⟨hostTree, [], false⟩
      (imageActions deletingLayers)).tree ["rootfs", "a"] = some (.file []) := by decide
  have hdeleted : run hostManager.ociLayer hostTree deletingLayers ["rootfs", "a"] = none := by
    decide
  rw [hextracted, hdeleted] at hat
  cases hat

end K3rs
