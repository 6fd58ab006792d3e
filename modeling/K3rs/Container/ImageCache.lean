import K3rs.Lib.KeyValue
import K3rs.Lib.Transition

/-!
# The image cache

`ImageManager::pull` keeps an image in a directory: the manifest, the layers and the config.  It
takes a directory with a manifest and a layer for a complete one.  The files are written in place,
one after the other, and a call can be broken off at any point.

Whatever `pull` returns is complete, in every state of a run, if and only if every call that is
broken off leaves no layer or all that is needed (`pull_complete_iff`).
-/

namespace K3rs

open Transition

/-! ## Images -/

/-- `OciDescriptor`, of which only the digest matters. -/
structure OciDescriptor where
  digest : String
  deriving DecidableEq, Repr

/-- `OciImageManifest`. -/
structure OciImageManifest where
  config : OciDescriptor
  layers : List OciDescriptor
  deriving DecidableEq, Repr

/-- What a file has in it.  A file that is `cut` has only a first part of what was to be written. -/
inductive Written (α : Type) where
  | cut
  | whole (content : α)
  deriving DecidableEq, Repr

/-- How far a write gets that is broken off. -/
inductive PullProgress where
  | unopened
  | cut
  | whole
  deriving DecidableEq, Repr

/-- A file after a write that is broken off. -/
def PullProgress.leave {α : Type} (content : α) (old : Option (Written α)) :
    PullProgress → Option (Written α)
  | unopened => old
  | cut => some .cut
  | whole => some (.whole content)

/-- The directory of an image.  The layers are the files `layers/layer_{i}.tar.gz`. -/
structure ImageDir where
  manifest : Option (Written OciImageManifest)
  layers : KeyValue ℕ (Written (List UInt8))
  config : Option (Written (List UInt8))

/-- Where a call is broken off, by an error or a crash.  A download that fails is a write that is
not begun. -/
inductive Interruption where
  /-- Before the manifest is there. -/
  | early
  | manifest (progress : PullProgress)
  | layer (i : ℕ) (progress : PullProgress)
  | config (progress : PullProgress)
  deriving DecidableEq, Repr

/-- A call: the manifest that the registry has for the reference, and where it is broken off. -/
structure PullCall where
  manifest : OciImageManifest
  interruption : Option Interruption
  deriving DecidableEq, Repr

namespace ImageDir

/-- A directory that does not exist. -/
def new : ImageDir := ⟨none, ∅, none⟩

variable (blob : String → List UInt8) (d : ImageDir)

/-- The image counts as cached. -/
def IsCached : Prop := d.manifest.isSome = true ∧ d.layers.rows ≠ []

instance : Decidable d.IsCached := inferInstanceAs (Decidable (_ ∧ _))

/-- Write a layer as far as it gets. -/
def leaveLayer (i : ℕ) (layer : OciDescriptor) : PullProgress → ImageDir
  | .unopened => d
  | .cut => { d with layers := d.layers.insert i .cut }
  | .whole => { d with layers := d.layers.insert i (.whole (blob layer.digest)) }

/-- How far the write of a layer gets, if the call is broken off there. -/
def stopsAt (interruption : Option Interruption) (i : ℕ) : Option PullProgress :=
  match interruption with
  | some (.layer j progress) => if j = i then some progress else none
  | _ => none

/-- The loop over the layers, from the `i`th on, and whether it gets to the end. -/
def pullLayers (interruption : Option Interruption) :
    ℕ → List OciDescriptor → ImageDir → ImageDir × Bool
  | _, [], d => (d, true)
  | i, layer :: rest, d =>
      -- A file that is there already is trusted.
      if (d.layers.lookup i).isSome then pullLayers interruption (i + 1) rest d
      else
        match stopsAt interruption i with
        | some progress => (d.leaveLayer blob i layer progress, false)
        | none => pullLayers interruption (i + 1) rest (d.leaveLayer blob i layer .whole)

/-- The end of `pull`, behind the layers. -/
def pullConfig (m : OciImageManifest) (interruption : Option Interruption) (d : ImageDir) :
    ImageDir × Bool :=
  match interruption with
  | some (.config progress) =>
      ({ d with config := progress.leave (blob m.config.digest) d.config }, false)
  | _ => ({ d with config := some (.whole (blob m.config.digest)) }, true)

/-- `pull`: what it leaves, and whether it returns `Ok`. -/
def pull (c : PullCall) : ImageDir × Bool :=
  if d.IsCached then (d, true)
  else
    match c.interruption with
    | some .early => (d, false)
    | some (.manifest progress) =>
        ({ d with manifest := progress.leave c.manifest d.manifest }, false)
    | _ =>
        let (d, finished) := pullLayers blob c.interruption 0 c.manifest.layers
          { d with manifest := some (.whole c.manifest) }
        if finished then pullConfig blob c.manifest c.interruption d else (d, false)

/-- One call. -/
def step (c : PullCall) : ImageDir := (d.pull blob c).1

/-- The directory has the manifest, the config and all layers of the manifest. -/
def Complete : Prop := ∃ m, d.manifest = some (.whole m) ∧
  d.config = some (.whole (blob m.config.digest)) ∧
    ∀ i layer, m.layers[i]? = some layer → d.layers.lookup i = some (.whole (blob layer.digest))

/-- Whatever `pull` returns next is complete. -/
def Returns : Prop := ∀ c, (d.pull blob c).2 = true → (d.pull blob c).1.Complete blob

/-- The condition on a call that is not answered from the cache and is broken off: no layer is
begun, or the last one is written, and the config is what it should be. -/
def Fits (c : PullCall) : Prop :=
  d.IsCached ∨ c.manifest.layers = [] ∨
    match c.interruption with
    | some (.layer i progress) =>
        c.manifest.layers.length ≤ i ∨ i = 0 ∧ progress = .unopened ∨
          i + 1 = c.manifest.layers.length ∧ progress = .whole ∧
            d.config = some (.whole (blob c.manifest.config.digest))
    | some (.config progress) =>
        progress.leave (blob c.manifest.config.digest) d.config =
          some (.whole (blob c.manifest.config.digest))
    | _ => True

/-! ## The loop over the layers -/

/-- All layers, from the `i`th on. -/
def fillLayers : ℕ → List OciDescriptor → ImageDir → ImageDir
  | _, [], d => d
  | i, layer :: rest, d => fillLayers (i + 1) rest (d.leaveLayer blob i layer .whole)

variable {blob d} {i : ℕ} {layers : List OciDescriptor} {interruption : Option Interruption}

theorem fillLayers_keeps : (fillLayers blob i layers d).manifest = d.manifest ∧
    (fillLayers blob i layers d).config = d.config := by
  induction layers generalizing i d with
  | nil => exact ⟨rfl, rfl⟩
  | cons layer rest ih => exact ih

theorem lookup_fillLayers (j : ℕ) : (fillLayers blob i layers d).layers.lookup j =
    ((if i ≤ j then layers[j - i]? else none).map fun layer => .whole (blob layer.digest)).or
      (d.layers.lookup j) := by
  induction layers generalizing i d with
  | nil => simp [fillLayers]
  | cons layer rest ih =>
      rw [fillLayers, ih, leaveLayer]
      by_cases hj : j = i
      · subst hj
        simp
      · rw [KeyValue.lookup_insert_of_ne hj]
        by_cases hle : i + 1 ≤ j
        · obtain ⟨k, rfl⟩ := Nat.exists_eq_add_of_le hle
          have hsub : i + 1 + k - i = k + 1 := by omega
          rw [if_pos hle, if_pos (by omega), hsub, Nat.add_sub_cancel_left, List.getElem?_cons_succ]
        · rw [if_neg hle, if_neg (by omega)]

theorem lookup_leaveLayer_of_ne {layer : OciDescriptor} {p : PullProgress} {j : ℕ} (hj : j ≠ i) :
    (d.leaveLayer blob i layer p).layers.lookup j = d.layers.lookup j := by
  cases p with
  | unopened => rfl
  | cut => exact KeyValue.lookup_insert_of_ne hj
  | whole => exact KeyValue.lookup_insert_of_ne hj

/-- The next layers are still missing. -/
theorem missing_leaveLayer {layer : OciDescriptor} {p : PullProgress}
    (hnone : ∀ j, i ≤ j → d.layers.lookup j = none) (j : ℕ) (hj : i + 1 ≤ j) :
    (d.leaveLayer blob i layer p).layers.lookup j = none := by
  rw [lookup_leaveLayer_of_ne (by omega)]
  exact hnone j (by omega)

/-- The loop gets to the end if it is not broken off at one of its layers. -/
theorem pullLayers_through (hnone : ∀ j, i ≤ j → d.layers.lookup j = none)
    (hthrough : ∀ j, i ≤ j → j < i + layers.length → stopsAt interruption j = none) :
    pullLayers blob interruption i layers d = (fillLayers blob i layers d, true) := by
  induction layers generalizing i d with
  | nil => rfl
  | cons layer rest ih =>
      rw [List.length_cons] at hthrough
      rw [pullLayers, hnone i le_rfl, if_neg (by simp), hthrough i le_rfl (by omega)]
      exact ih (missing_leaveLayer hnone) fun j hj hlt => hthrough j (by omega) (by omega)

/-- The loop is broken off at one of its layers. -/
theorem pullLayers_stopped {k : ℕ} {layer : OciDescriptor} {p : PullProgress}
    (hnone : ∀ j, i ≤ j → d.layers.lookup j = none) (hlayer : layers[k]? = some layer) :
    pullLayers blob (some (.layer (i + k) p)) i layers d =
      ((fillLayers blob i (layers.take k) d).leaveLayer blob (i + k) layer p, false) := by
  induction layers generalizing i d k with
  | nil => cases hlayer
  | cons first rest ih =>
      rw [pullLayers, hnone i le_rfl, if_neg (by simp), stopsAt]
      cases k with
      | zero =>
          cases hlayer
          rw [Nat.add_zero, if_pos rfl]
          rfl
      | succ k =>
          have hshift : i + (k + 1) = i + 1 + k := by omega
          rw [if_neg (by omega), hshift, List.take_succ_cons, fillLayers]
          exact ih (missing_leaveLayer hnone) hlayer

/-! ## One call -/

/-- Layers are only there beside a manifest. -/
def HasManifest (d : ImageDir) : Prop := d.manifest = none → ∀ j, d.layers.lookup j = none

theorem rows_eq_nil_iff : d.layers.rows = [] ↔ ∀ j, d.layers.lookup j = none := by
  rw [List.eq_nil_iff_forall_not_mem]
  constructor
  · intro hempty j
    exact KeyValue.lookup_eq_none.mpr fun v => hempty (j, v)
  · rintro hnone ⟨j, v⟩ hmem
    exact KeyValue.lookup_eq_none.mp (hnone j) v hmem

/-- In a directory that does not count as cached there are no layers. -/
theorem missing_of_not_cached (hmanifest : d.HasManifest) (hmiss : ¬d.IsCached) (j : ℕ) :
    d.layers.lookup j = none := by
  by_cases hm : d.manifest = none
  · exact hmanifest hm j
  · have hrows : d.layers.rows = [] :=
      not_not.mp fun hrows => hmiss ⟨Option.isSome_iff_ne_none.mpr hm, hrows⟩
    exact rows_eq_nil_iff.mp hrows j

variable (blob d)

/-- The directory with the manifest and the first layers. -/
def filled (m : OciImageManifest) (layers : List OciDescriptor) : ImageDir :=
  fillLayers blob 0 layers { d with manifest := some (.whole m) }

variable {blob d} {c : PullCall} {m : OciImageManifest}

theorem filled_keeps : (d.filled blob m layers).manifest = some (.whole m) ∧
    (d.filled blob m layers).config = d.config := fillLayers_keeps

theorem lookup_filled (hnone : ∀ j, d.layers.lookup j = none) (j : ℕ) :
    (d.filled blob m layers).layers.lookup j =
      layers[j]?.map fun layer => .whole (blob layer.digest) := by
  rw [filled, lookup_fillLayers, if_pos (Nat.zero_le j), Nat.sub_zero]
  exact (congrArg _ (hnone j)).trans Option.or_none

theorem pull_stopped (hnone : ∀ j, d.layers.lookup j = none) (hmiss : ¬d.IsCached) {k : ℕ}
    {p : PullProgress} {layer : OciDescriptor} (hstop : c.interruption = some (.layer k p))
    (hlayer : c.manifest.layers[k]? = some layer) : d.pull blob c =
      ((d.filled blob c.manifest (c.manifest.layers.take k)).leaveLayer blob k layer p, false) := by
  have hloop : pullLayers blob (some (.layer (0 + k) p)) 0 c.manifest.layers
      { d with manifest := some (.whole c.manifest) } = _ :=
    pullLayers_stopped (fun j _ => hnone j) hlayer
  rw [Nat.zero_add] at hloop
  rw [pull, if_neg hmiss, hstop]
  simp only [hloop, Bool.false_eq_true, if_false]
  rfl

theorem pull_through (hnone : ∀ j, d.layers.lookup j = none) (hmiss : ¬d.IsCached)
    (hearly : c.interruption ≠ some .early) (hmanifest : ∀ p, c.interruption ≠ some (.manifest p))
    (hlayers : ∀ j < c.manifest.layers.length, stopsAt c.interruption j = none) :
    d.pull blob c = (d.filled blob c.manifest c.manifest.layers).pullConfig blob c.manifest
      c.interruption := by
  have hloop : pullLayers blob c.interruption 0 c.manifest.layers
      { d with manifest := some (.whole c.manifest) } =
        (d.filled blob c.manifest c.manifest.layers, true) :=
    pullLayers_through (fun j _ => hnone j) fun j _ hj => hlayers j (by omega)
  rw [pull, if_neg hmiss]
  split
  · rename_i h
    exact absurd h hearly
  · rename_i p h
    exact absurd h (hmanifest p)
  · simp only [hloop, if_true]

/-- **A call that is not answered from the cache** is broken off, or it gets to the end. -/
theorem pull_cases (blob : String → List UInt8) (hnone : ∀ j, d.layers.lookup j = none)
    (hmiss : ¬d.IsCached) (c : PullCall) :
    (c.interruption = some .early ∧ d.pull blob c = (d, false)) ∨
    (∃ p, c.interruption = some (.manifest p) ∧
      d.pull blob c = ({ d with manifest := p.leave c.manifest d.manifest }, false)) ∨
    (∃ k p layer, c.interruption = some (.layer k p) ∧ c.manifest.layers[k]? = some layer ∧
      d.pull blob c = ((d.filled blob c.manifest (c.manifest.layers.take k)).leaveLayer blob k layer
        p, false)) ∨
    (∃ p, c.interruption = some (.config p) ∧
      d.pull blob c = ({ d.filled blob c.manifest c.manifest.layers with
        config := p.leave (blob c.manifest.config.digest) d.config }, false)) ∨
    ((c.interruption = none ∨ ∃ k p, c.interruption = some (.layer k p) ∧
        c.manifest.layers.length ≤ k) ∧
      d.pull blob c = ({ d.filled blob c.manifest c.manifest.layers with
        config := some (.whole (blob c.manifest.config.digest)) }, true)) := by
  obtain ⟨m, interruption⟩ := c
  cases interruption with
  | none =>
      refine Or.inr (Or.inr (Or.inr (Or.inr ⟨Or.inl rfl, ?_⟩)))
      exact pull_through hnone hmiss (by simp) (by simp) fun j _ => rfl
  | some interruption =>
      cases interruption with
      | early => exact Or.inl ⟨rfl, if_neg hmiss⟩
      | manifest p => exact Or.inr (Or.inl ⟨p, rfl, if_neg hmiss⟩)
      | layer k p =>
          cases hlayer : m.layers[k]? with
          | some layer =>
              exact Or.inr (Or.inr (Or.inl ⟨k, p, layer, rfl, hlayer,
                pull_stopped hnone hmiss rfl hlayer⟩))
          | none =>
              have hlength := List.getElem?_eq_none_iff.mp hlayer
              refine Or.inr (Or.inr (Or.inr (Or.inr ⟨Or.inr ⟨k, p, rfl, hlength⟩, ?_⟩)))
              refine pull_through hnone hmiss (by simp) (by simp) fun j hj => if_neg ?_
              rintro rfl
              exact absurd hlength (Nat.not_le.mpr hj)
      | config p =>
          refine Or.inr (Or.inr (Or.inr (Or.inl ⟨p, rfl, ?_⟩)))
          rw [pull_through hnone hmiss (by simp) (by simp) fun j _ => rfl, pullConfig,
            filled_keeps.2]

/-- With all layers and the config a directory is complete. -/
theorem complete_filled (hnone : ∀ j, d.layers.lookup j = none) :
    ({ d.filled blob m m.layers with config := some (.whole (blob m.config.digest)) } :
      ImageDir).Complete blob := by
  refine ⟨m, filled_keeps.1, rfl, fun i layer hlayer => ?_⟩
  change (d.filled blob m m.layers).layers.lookup i = _
  rw [lookup_filled hnone, hlayer]
  rfl

/-- **What comes next is complete** if what counts as cached is. -/
theorem returns_iff (hmanifest : d.HasManifest) :
    d.Returns blob ↔ (d.IsCached → d.Complete blob) := by
  constructor
  · intro hreturns hcached
    have hpull : d.pull blob ⟨⟨⟨""⟩, []⟩, none⟩ = (d, true) := if_pos hcached
    have hcomplete := hreturns ⟨⟨⟨""⟩, []⟩, none⟩
    rw [hpull] at hcomplete
    exact hcomplete rfl
  · intro hcomplete c hok
    by_cases hcached : d.IsCached
    · have hpull : d.pull blob c = (d, true) := if_pos hcached
      rw [hpull]
      exact hcomplete hcached
    · have hnone := missing_of_not_cached hmanifest hcached
      rcases d.pull_cases blob hnone hcached c with
        ⟨-, hpull⟩ | ⟨p, -, hpull⟩ | ⟨k, p, layer, -, -, hpull⟩ | ⟨p, -, hpull⟩ | ⟨-, hpull⟩
      · rw [hpull] at hok
        cases hok
      · rw [hpull] at hok
        cases hok
      · rw [hpull] at hok
        cases hok
      · rw [hpull] at hok
        cases hok
      · rw [hpull]
        exact complete_filled hnone

/-! ## Runs of calls -/

/-- What a call leaves that is broken off at a layer. -/
theorem manifest_leaveLayer {k : ℕ} {layer : OciDescriptor} {p : PullProgress} :
    (d.leaveLayer blob k layer p).manifest = d.manifest ∧
      (d.leaveLayer blob k layer p).config = d.config := by
  cases p <;> exact ⟨rfl, rfl⟩

theorem HasManifest.step (hmanifest : d.HasManifest) (c : PullCall) :
    (d.step blob c).HasManifest := by
  by_cases hcached : d.IsCached
  · have hstep : d.step blob c = d := congrArg Prod.fst (if_pos hcached)
    rw [hstep]
    exact hmanifest
  · have hnone := missing_of_not_cached hmanifest hcached
    -- behind the manifest there is one
    have hthere : ∀ d' : ImageDir, d'.manifest = some (.whole c.manifest) → d'.HasManifest := by
      intro d' hthere habsent
      rw [hthere] at habsent
      cases habsent
    rcases d.pull_cases blob hnone hcached c with
      ⟨-, hpull⟩ | ⟨p, -, hpull⟩ | ⟨k, p, layer, -, -, hpull⟩ | ⟨p, -, hpull⟩ | ⟨-, hpull⟩
    · rw [ImageDir.step, hpull]
      exact hmanifest
    · rw [ImageDir.step, hpull]
      exact fun _ => hnone
    · rw [ImageDir.step, hpull]
      exact hthere _ (manifest_leaveLayer.1.trans filled_keeps.1)
    · rw [ImageDir.step, hpull]
      exact hthere _ filled_keeps.1
    · rw [ImageDir.step, hpull]
      exact hthere _ filled_keeps.1

/-- Beside its manifest a directory is complete with its config and its layers. -/
theorem complete_iff (hm : d.manifest = some (.whole m)) : d.Complete blob ↔
    d.config = some (.whole (blob m.config.digest)) ∧
      ∀ i layer, m.layers[i]? = some layer →
        d.layers.lookup i = some (.whole (blob layer.digest)) := by
  constructor
  · rintro ⟨m', hm', hcomplete⟩
    rw [hm, Option.some_inj, Written.whole.injEq] at hm'
    rw [hm']
    exact hcomplete
  · exact fun hcomplete => ⟨m, hm, hcomplete⟩

/-- With a manifest a directory counts as cached if there is a layer. -/
theorem isCached_iff (hm : d.manifest = some (.whole m)) :
    d.IsCached ↔ ∃ i, d.layers.lookup i ≠ none := by
  rw [IsCached, hm, ne_eq, rows_eq_nil_iff, not_forall]
  exact and_iff_right rfl

/-- A call that is broken off at the config. -/
theorem returns_config_iff (hnone : ∀ j, d.layers.lookup j = none)
    {config : Option (Written (List UInt8))} :
    ({ d.filled blob m m.layers with config := config } : ImageDir).Returns blob ↔
      m.layers = [] ∨ config = some (.whole (blob m.config.digest)) := by
  have hm : ({ d.filled blob m m.layers with config := config } : ImageDir).manifest =
      some (.whole m) := filled_keeps.1
  have hlookup : ∀ i, ({ d.filled blob m m.layers with config := config } : ImageDir).layers.lookup i =
      m.layers[i]?.map fun layer => .whole (blob layer.digest) := lookup_filled hnone
  rw [returns_iff (fun habsent => by rw [hm] at habsent; cases habsent), isCached_iff hm,
    complete_iff hm]
  constructor
  · intro hcomplete
    cases hlayers : m.layers with
    | nil => exact Or.inl rfl
    | cons layer rest =>
        refine Or.inr (hcomplete ⟨0, ?_⟩).1
        rw [hlookup, hlayers]
        simp
  · rintro (hnil | hconfig) ⟨i, hi⟩
    · rw [hlookup, hnil] at hi
      exact absurd rfl hi
    · refine ⟨hconfig, fun i layer hlayer => ?_⟩
      rw [hlookup, hlayer]
      rfl

/-- A call that is broken off at a layer. -/
theorem returns_stopped_iff (hnone : ∀ j, d.layers.lookup j = none) {k : ℕ} {p : PullProgress}
    {layer : OciDescriptor} (hlayer : m.layers[k]? = some layer) :
    ((d.filled blob m (m.layers.take k)).leaveLayer blob k layer p).Returns blob ↔
      k = 0 ∧ p = .unopened ∨ k + 1 = m.layers.length ∧ p = .whole ∧
        d.config = some (.whole (blob m.config.digest)) := by
  have hm : ((d.filled blob m (m.layers.take k)).leaveLayer blob k layer p).manifest =
      some (.whole m) := manifest_leaveLayer.1.trans filled_keeps.1
  have hconfig : ((d.filled blob m (m.layers.take k)).leaveLayer blob k layer p).config =
      d.config := manifest_leaveLayer.2.trans filled_keeps.2
  have hk : k < m.layers.length := List.getElem?_eq_some_iff.mp hlayer |>.1
  have hself : ((d.filled blob m (m.layers.take k)).leaveLayer blob k layer p).layers.lookup k =
      p.leave (blob layer.digest) none := by
    have habsent : (d.filled blob m (m.layers.take k)).layers.lookup k = none := by
      rw [lookup_filled hnone, List.getElem?_take_eq_none le_rfl]
      rfl
    cases p with
    | unopened => exact habsent
    | cut => exact KeyValue.lookup_insert_self _ _ _
    | whole => exact KeyValue.lookup_insert_self _ _ _
  have hother : ∀ i, i ≠ k →
      ((d.filled blob m (m.layers.take k)).leaveLayer blob k layer p).layers.lookup i =
        ((m.layers.take k)[i]?.map fun layer => .whole (blob layer.digest)) := by
    intro i hi
    rw [lookup_leaveLayer_of_ne hi, lookup_filled hnone]
  rw [returns_iff (fun habsent => by rw [hm] at habsent; cases habsent), isCached_iff hm,
    complete_iff hm, hconfig]
  constructor
  · intro hcomplete
    by_cases hfirst : k = 0 ∧ p = .unopened
    · exact Or.inl hfirst
    · -- some layer is there
      have hcached : ∃ i, ((d.filled blob m (m.layers.take k)).leaveLayer blob k layer
          p).layers.lookup i ≠ none := by
        by_cases hzero : k = 0
        · refine ⟨k, ?_⟩
          rw [hself]
          cases p with
          | unopened => exact absurd ⟨hzero, rfl⟩ hfirst
          | cut => simp [PullProgress.leave]
          | whole => simp [PullProgress.leave]
        · refine ⟨0, ?_⟩
          rw [hother 0 (Ne.symm hzero), List.getElem?_take_of_lt (by omega),
            List.getElem?_eq_getElem (by omega)]
          simp
      obtain ⟨hright, hlayers⟩ := hcomplete hcached
      refine Or.inr ⟨?_, ?_, hright⟩
      · by_contra hlast
        have hnext := hlayers (k + 1) _ (List.getElem?_eq_getElem (by omega))
        rw [hother (k + 1) (by omega), List.getElem?_take_eq_none (by omega)] at hnext
        cases hnext
      · have hwhole := hlayers k layer hlayer
        rw [hself] at hwhole
        cases p with
        | unopened => cases hwhole
        | cut => cases hwhole
        | whole => rfl
  · rintro (⟨rfl, rfl⟩ | ⟨hlast, rfl, hright⟩)
    · rintro ⟨i, hi⟩
      by_cases hzero : i = 0
      · rw [hzero, hself] at hi
        exact absurd rfl hi
      · rw [hother i hzero, List.take_zero] at hi
        exact absurd rfl hi
    · refine fun _ => ⟨hright, fun i layer' hlayer' => ?_⟩
      by_cases hi : i = k
      · subst hi
        rw [hlayer, Option.some_inj] at hlayer'
        rw [hself, ← hlayer']
        rfl
      · have hlt := (List.getElem?_eq_some_iff.mp hlayer').1
        rw [hother i hi, List.getElem?_take_of_lt (by omega), hlayer']
        rfl

/-- What one call does. -/
theorem returns_step_iff (hmanifest : d.HasManifest) (hreturns : d.Returns blob) (c : PullCall) :
    (d.step blob c).Returns blob ↔ d.Fits blob c := by
  by_cases hcached : d.IsCached
  · have hstep : d.step blob c = d := congrArg Prod.fst (if_pos hcached)
    rw [hstep]
    exact iff_of_true hreturns (Or.inl hcached)
  · have hnone := missing_of_not_cached hmanifest hcached
    have hempty : ∀ d' : ImageDir, (∀ j, d'.layers.lookup j = none) → d'.Returns blob := by
      intro d' hnone'
      rw [returns_iff fun _ => hnone']
      exact fun hcached' => absurd (rows_eq_nil_iff.mpr hnone') hcached'.2
    rw [Fits, or_iff_right hcached, step]
    rcases d.pull_cases blob hnone hcached c with
      ⟨hstop, hpull⟩ | ⟨p, hstop, hpull⟩ | ⟨k, p, layer, hstop, hlayer, hpull⟩ |
        ⟨p, hstop, hpull⟩ | ⟨hstop, hpull⟩
    · rw [hpull, hstop]
      exact iff_of_true hreturns (Or.inr trivial)
    · rw [hpull, hstop]
      exact iff_of_true (hempty _ hnone) (Or.inr trivial)
    · have hk : k < c.manifest.layers.length := List.getElem?_eq_some_iff.mp hlayer |>.1
      have hne : c.manifest.layers ≠ [] := by
        rintro hnil
        rw [hnil] at hk
        exact Nat.not_lt_zero k hk
      rw [hpull, hstop, returns_stopped_iff hnone hlayer, or_iff_right hne]
      exact (or_iff_right (Nat.not_le.mpr hk)).symm
    · rw [hpull, hstop]
      exact returns_config_iff hnone
    · rw [hpull]
      refine iff_of_true ((returns_config_iff hnone).mpr (Or.inr rfl)) (Or.inr ?_)
      rcases hstop with hstop | ⟨k, p, hstop, hk⟩
      · rw [hstop]
        trivial
      · rw [hstop]
        exact Or.inl hk

/-- **Whatever `pull` returns is complete**, in every state of a run, exactly if every call of the
run fits. -/
theorem pull_complete_iff (blob : String → List UInt8) (calls : List PullCall) :
    Along (step blob) (Returns blob) new calls ↔ Admitted (step blob) (Fits blob) new calls := by
  have hnew : new.HasManifest := fun _ _ => rfl
  refine along_iff_admitted HasManifest (Returns blob) (fun _ c hmanifest => hmanifest.step c)
    (fun _ c hmanifest hreturns => returns_step_iff hmanifest hreturns c) hnew ?_
  rw [returns_iff hnew]
  exact fun hcached => absurd hcached.1 (by decide)

/-! ## A call that is broken off -/

/-- An image with two layers. -/
def twoLayers : OciImageManifest := ⟨⟨"c"⟩, [⟨"a"⟩, ⟨"b"⟩]⟩

/-- **A call that is broken off** after the first layer leaves what is taken for a complete
image. -/
theorem pull_incomplete : ¬∀ (blob : String → List UInt8) (calls : List PullCall),
    Along (step blob) (Returns blob) new calls := by
  intro hall
  have hreturns := hall (fun _ => []) [⟨twoLayers, some (.layer 1 .unopened)⟩] _ List.prefix_rfl
  obtain ⟨m, -, hconfig, -⟩ := hreturns ⟨twoLayers, none⟩ (by decide)
  cases hconfig

end ImageDir

end K3rs
