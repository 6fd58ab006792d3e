import K3rs.Container.Rootfs

/-!
# What an extraction touches

The path of an entry is made safe as a text: only its names are joined to `rootfs`.  The file system
follows symlinks that earlier entries put there, so that the text says little about the real path.

An extraction touches nothing outside of `rootfs` as long as the directories that its paths lead to
are inside (`extraction_inside`).  A symlink to a directory outside is enough to leave
(`extraction_escapes`).
-/

namespace K3rs

open FileTree Transition

namespace RootfsManager

variable (m : RootfsManager)

/-- All that was touched is inside of `rootfs`. -/
def Inside (x : Extraction) : Prop := ∀ p ∈ x.touched, m.rootfs <+: p

/-- The path leads to nothing outside. -/
def LeadsInside : Except Tree.LookupError (List String) → Prop
  | .ok p => m.rootfs <+: p
  | .error _ => True

instance : ∀ r, Decidable (m.LeadsInside r)
  | .ok p => inferInstanceAs (Decidable (m.rootfs <+: p))
  | .error _ => inferInstanceAs (Decidable True)

/-- The part of a path that exists leads to a directory inside, before its last name. -/
def ParentInside (t : Tree) (names : List String) : Prop :=
  m.rootfs <+: t.deepest m.limit m.rootfs names.dropLast.reverse

instance (t : Tree) (names : List String) : Decidable (m.ParentInside t names) :=
  inferInstanceAs (Decidable (_ <+: _))

/-- The condition on an action: what exists on the way to its destination is inside, and so are the
file that is replaced and the source of a link. -/
def Fits (x : Extraction) : ExtractAction → Prop
  | .place names _ => x.failed = true ∨
      m.ParentInside x.tree names ∧ m.LeadsInside (x.tree.resolve m.limit m.rootfs names)
  | .link src dest => x.failed = true ∨ x.tree.pathExists m.limit m.rootfs dest = true ∨
      x.tree.pathExists m.limit m.rootfs src = false ∨
        m.ParentInside x.tree dest ∧ m.LeadsInside (x.tree.locate m.limit m.rootfs src)
  | .broken => True

instance (x : Extraction) : ∀ a, Decidable (m.Fits x a)
  | .place _ _ => inferInstanceAs (Decidable (_ ∨ _ ∧ _))
  | .link _ _ => inferInstanceAs (Decidable (_ ∨ _ ∨ _ ∨ _ ∧ _))
  | .broken => inferInstanceAs (Decidable True)

variable {m} {x : Extraction} {names : List String}

theorem Inside.perform (hx : m.Inside x) {o : Outcome} (ho : ∀ p ∈ o.touched, m.rootfs <+: p) :
    m.Inside (x.perform o) := by
  intro p hp
  rcases List.mem_append.mp hp with hp | hp
  · exact hx p hp
  · exact ho p hp

theorem Inside.touch (hx : m.Inside x) {paths : List (List String)}
    (hpaths : ∀ p ∈ paths, m.rootfs <+: p) : m.Inside (x.touch paths) := by
  intro p hp
  rcases List.mem_append.mp hp with hp | hp
  · exact hx p hp
  · exact hpaths p hp

theorem LeadsInside.setPermissions {t : Tree}
    (h : m.LeadsInside (t.resolve m.limit m.rootfs names)) :
    ∀ p ∈ t.setPermissions m.limit m.rootfs names, m.rootfs <+: p := by
  intro p hp
  rw [Tree.setPermissions] at hp
  cases hresolve : t.resolve m.limit m.rootfs names with
  | error e =>
      rw [hresolve] at hp
      cases hp
  | ok q =>
      rw [hresolve] at hp h
      rw [List.mem_singleton.mp hp]
      exact h

/-- A file that is removed is inside, and the path leads on as before. -/
theorem removeBlocking_inside (hsound : m.Sound x.tree) (hin : m.Inside x)
    (hparent : m.ParentInside x.tree names)
    (hleads : m.LeadsInside (x.tree.resolve m.limit m.rootfs names)) :
    m.Inside (m.removeBlocking names x) ∧ m.ParentInside (m.removeBlocking names x).tree names ∧
      m.LeadsInside ((m.removeBlocking names x).tree.resolve m.limit m.rootfs names) := by
  rcases removeBlocking_cases hsound names with
    ⟨hsame, -⟩ | ⟨-, -, above, name, cur, rfl, hup, hcur, hleaf, hremove⟩
  · rw [hsame]
    exact ⟨hin, hparent, hleads⟩
  · have hup' := hleaf.resolve hup hcur
    have hinside : m.rootfs <+: cur := by
      rw [ParentInside, List.dropLast_concat,
        Tree.deepest_of_resolve (by rwa [List.reverse_reverse])] at hparent
      exact hparent
    rw [hremove]
    dsimp only
    refine ⟨?_, ?_, ?_⟩
    · intro p hp
      rcases List.mem_append.mp hp with hp | hp
      · exact (hin.touch hleads.setPermissions) p hp
      · rw [List.mem_singleton.mp hp]
        exact hinside.trans (List.prefix_append _ _)
    · rw [ParentInside, List.dropLast_concat,
        Tree.deepest_of_resolve (by rw [List.reverse_reverse]; exact hup')]
      exact hinside
    · rw [Tree.resolve_concat_of_free hup' (by rwa [Tree.isDirAt_set_of_ne (hleaf.ne hcur)])
        (Tree.set_eq _)]
      trivial

theorem createParent_inside (hsound : m.Sound x.tree) (hin : m.Inside x)
    (hparent : m.ParentInside x.tree names) : m.Inside (m.createParent names x) :=
  hin.perform fun p hp => hparent.trans ((createParent_made hsound names).touched p hp)

/-- An entry that fits touches nothing outside. -/
theorem place_inside (hsound : m.Sound x.tree) (hin : m.Inside x)
    (hparent : m.ParentInside x.tree names)
    (hleads : m.LeadsInside (x.tree.resolve m.limit m.rootfs names)) (kind : EntryKind) :
    m.Inside (m.place names kind x) := by
  have hsound' := removeBlocking_sound hsound names
  obtain ⟨hin', hparent', hleads'⟩ := removeBlocking_inside hsound hin hparent hleads
  have hin'' := createParent_inside hsound' hin' hparent'
  rw [place, unpackAt]
  cases hlocate : (m.createParent names (m.removeBlocking names x)).tree.locate m.limit m.rootfs
      names with
  | error e => exact hin''
  | ok p =>
      obtain ⟨hdeepest, hnew⟩ := createParent_locate hsound' hlocate
      intro q hq
      rcases List.mem_append.mp hq with hq | hq
      · exact hin'' q hq
      · rcases List.mem_cons.mp hq with rfl | hq
        · exact hparent'.trans hdeepest
        · -- A mode is set where the path led before, or in a new directory.
          refine LeadsInside.setPermissions ?_ q hq
          rcases hnew with hsame | ⟨-, herror⟩
          · rwa [hsame]
          · rw [herror]
            trivial

/-- A link that fits touches nothing outside. -/
theorem link_inside (hsound : m.Sound x.tree) (hin : m.Inside x) {src dest : List String}
    (hfits : m.Fits x (.link src dest)) (hx : ¬x.failed = true) :
    m.Inside (m.link src dest x) := by
  rw [link]
  split_ifs with hdest hsrc
  · exact hin
  · rcases hfits with hfailed | htaken | hmissing | ⟨hparent, hleads⟩
    · exact absurd hfailed hx
    · exact absurd htaken hdest
    · rw [hmissing] at hsrc
      cases hsrc
    · have hin' := createParent_inside hsound hin hparent
      dsimp only
      rcases Tree.hardLink_cases (m.createParent dest x).tree m.limit m.rootfs src dest with
        hnone | ⟨s, d, node, hs, hd, -, -, hlinked⟩
      · rw [hnone]
        exact hin'.perform fun p hp => by cases hp
      · rw [hlinked]
        obtain ⟨hdeepest, -⟩ := createParent_locate hsound hd
        -- What is linked to is found where it was.
        have hsource : m.rootfs <+: s := by
          obtain ⟨q, hq⟩ := Tree.pathExists_iff.mp hsrc
          obtain ⟨s', hs'⟩ := Tree.locate_of_resolve hq
          have hsame := Tree.locate_mono (createParent_within hsound dest) hs'
          obtain rfl := Except.ok.inj (hs.symm.trans hsame)
          rwa [hs'] at hleads
        refine hin'.perform fun p hp => ?_
        rcases List.mem_cons.mp hp with rfl | hp
        · exact hsource
        · rw [List.mem_singleton.mp hp]
          exact hparent.trans hdeepest
  · exact hin

/-- One action that fits. -/
theorem step_inside (hsound : m.Sound x.tree) (hin : m.Inside x) (a : ExtractAction)
    (hfits : m.Fits x a) : m.Inside (m.step x a) := by
  by_cases hx : x.failed = true
  · rw [step_of_failed hx]
    exact hin
  cases a with
  | place names kind =>
      rw [step, if_neg hx]
      rcases hfits with hfailed | ⟨hparent, hleads⟩
      · exact absurd hfailed hx
      · exact place_inside hsound hin hparent hleads kind
  | link src dest =>
      rw [step, if_neg hx]
      exact link_inside hsound hin hfits hx
  | broken =>
      rw [step, if_neg hx]
      exact hin

/-- **An extraction stays inside** of `rootfs`, at every moment and to its end, if every action fits
when it is its turn. -/
theorem extraction_inside (hwrites : m.Writes) (files : List (String × Archive)) {t : Tree}
    (hsound : m.Sound t)
    (hfits : Admitted m.step m.Fits ⟨t, [], false⟩ (imageActions (sortedLayers files))) :
    Along m.step m.Inside ⟨t, [], false⟩ (imageActions (sortedLayers files)) ∧
      m.Inside (m.extract (some files) t) := by
  have hstart : m.Sound t ∧ m.Inside ⟨t, [], false⟩ := ⟨hsound, fun p hp => by cases hp⟩
  have halong := (along_of_admitted (fun x => m.Sound x.tree ∧ m.Inside x)
    (fun _ a ha h => ⟨step_sound hwrites h.1 a, step_inside h.1 h.2 a ha⟩) hstart hfits).mono
      fun _ h => h.2
  rw [extract_eq_run]
  exact ⟨halong, halong _ List.prefix_rfl⟩

end RootfsManager

/-! ## A way out -/

/-- An `Entry::unpack` that replaces files and symlinks. -/
def replaceUnpack : EntryKind → Tree → List String → Tree × Option ErrorKind
  | .directory, t, p =>
      match t p with
      | none => (t.set p (some .dir), none)
      | some .dir => (t, none)
      | some _ => (t, some .alreadyExists)
  | .regular content, t, p =>
      if t.isDirAt p then (t, some .other) else (t.set p (some (.file content)), none)
  | .symlink target, t, p =>
      if t.isDirAt p then (t, some .other) else (t.set p (some (.symlink target)), none)
  | .link _, t, _ => (t, some .other)

/-- A host with the directories `/etc` and `/rootfs`. -/
def hostTree : Tree := fun p => if p ∈ [[], ["etc"], ["rootfs"]] then some .dir else none

/-- The extraction into `/rootfs`. -/
def hostManager : RootfsManager := ⟨replaceUnpack, 40, ["rootfs"]⟩

theorem hostManager_writes : hostManager.Writes where
  elsewhere kind t p q hq := by
    cases kind with
    | directory =>
        change (replaceUnpack .directory t p).1 q = t q
        rw [replaceUnpack]
        cases t p with
        | none => exact Tree.set_of_ne hq _
        | some node => cases node <;> rfl
    | regular content =>
        change (replaceUnpack (.regular content) t p).1 q = t q
        rw [replaceUnpack]
        split_ifs
        · rfl
        · exact Tree.set_of_ne hq _
    | symlink target =>
        change (replaceUnpack (.symlink target) t p).1 q = t q
        rw [replaceUnpack]
        split_ifs
        · rfl
        · exact Tree.set_of_ne hq _
    | link linkName => rfl
  directory kind t p hp := by
    have hdir := t.isDirAt_iff.mp hp
    cases kind with
    | directory =>
        change (replaceUnpack .directory t p).1 p = some .dir
        rw [replaceUnpack, hdir]
        exact hdir
    | regular content =>
        change (replaceUnpack (.regular content) t p).1 p = some .dir
        rw [replaceUnpack, if_pos hp]
        exact hdir
    | symlink target =>
        change (replaceUnpack (.symlink target) t p).1 p = some .dir
        rw [replaceUnpack, if_pos hp]
        exact hdir
    | link linkName => exact hdir

theorem hostTree_sound : hostManager.Sound hostTree where
  wellFormed p name hnode := by
    rw [hostTree] at hnode
    split_ifs at hnode with hmem
    · have hp : p = [] := by
        rcases List.mem_cons.mp hmem with h | hmem
        · simp at h
        · rcases List.mem_cons.mp hmem with h | hmem
          · exact (List.append_eq_singleton_iff.mp h).elim (fun h => h.1) fun h => by simp at h
          · have h := List.mem_singleton.mp hmem
            exact (List.append_eq_singleton_iff.mp h).elim (fun h => h.1) fun h => by simp at h
      rw [hp]
      rfl
    · exact absurd rfl hnode
  rootfs := rfl

/-- A symlink to a directory outside, and a file behind it. -/
def escapingLayer : Archive :=
  [some ⟨[.normal "a"], .symlink ⟨true, [.down "etc"]⟩⟩,
    some ⟨[.normal "a", .normal "x"], .regular []⟩]

/-- Not every extraction stays inside. -/
theorem extraction_escapes : ¬∀ (m : RootfsManager) (files : List (String × Archive)) (t : Tree),
    m.Writes → m.Sound t → m.Inside (m.extract (some files) t) := by
  intro hall
  have hin := hall hostManager [("layer_0.tar.gz", escapingLayer)] hostTree hostManager_writes
    hostTree_sound
  have hsorted : sortedLayers [("layer_0.tar.gz", escapingLayer)] = [escapingLayer] := by
    rw [sortedLayers, List.filter_cons_of_pos (by decide), List.filter_nil,
      List.mergeSort_singleton]
    rfl
  rw [RootfsManager.extract_eq_run, hsorted] at hin
  have hmem : ["etc", "x"] ∈
      (run hostManager.step ⟨hostTree, [], false⟩ (imageActions [escapingLayer])).touched := by
    decide
  exact absurd (hin _ hmem) (by decide)

/-- A file in a new directory, a hard link to it, and a symlink that is replaced. -/
def plainLayer : Archive :=
  [some ⟨[.normal "b"], .link (some [.normal "d", .normal "x"])⟩,
    some ⟨[.normal "s"], .symlink ⟨false, [.down "d"]⟩⟩,
    some ⟨[.normal "d", .normal "x"], .regular [1]⟩,
    some ⟨[.normal "s", .normal "y"], .regular [2]⟩]

theorem extraction_inside_plainLayer :
    hostManager.Inside (hostManager.extract (some [("layer_0.tar.gz", plainLayer)]) hostTree) := by
  have hsorted : sortedLayers [("layer_0.tar.gz", plainLayer)] = [plainLayer] := by
    rw [sortedLayers, List.filter_cons_of_pos (by decide), List.filter_nil,
      List.mergeSort_singleton]
    rfl
  refine (RootfsManager.extraction_inside hostManager_writes _ hostTree_sound ?_).2
  rw [hsorted]
  decide

end K3rs
