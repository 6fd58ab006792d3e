import K3rs.Cluster.Cordon
import K3rs.Cluster.DaemonPasses
import K3rs.Cluster.PodTasks

/-!
# Where the pods of DaemonSets are

Passes of the DaemonSet controller, drains and passes of the eviction controller share the store, and
each of them can fail half way.  They leave every pod of a DaemonSet under the name of the DaemonSet
and a node, bound to that node or to none.

A pass without other writers places the pods of a namespace, in any state of a run, if and only if
no two pods that are wanted have the same name, and every pod that was evicted has the name of one
that is wanted (`placement_iff`).
-/

namespace K3rs

open Programs Transition

/-! ## Passes over all namespaces -/

/-- Passes go through the namespace, and its directories are its own. -/
structure OwnDirectory (ns : String) (s : Registry) : Prop where
  registered : Registers s ns
  named : ns.isEmpty = false
  apart : ∀ ns', Registers s ns' → ns'.isEmpty = false → ns' ≠ ns →
    startsWith (ns' ++ "/") (ns ++ "/") = false ∧ startsWith (ns ++ "/") (ns' ++ "/") = false

/-- What the DaemonSets of a namespace depend on. -/
def Matters (ns k : String) : Prop :=
  startsWith k (podPrefixOf ns) = true ∨ startsWith k (daemonSetPrefixOf ns) = true ∨
    startsWith k "/registry/nodes/" = true

/-- The same pods and DaemonSets in the namespace, and the same nodes. -/
def SameDaemons (ns : String) (s s' : Registry) : Prop :=
  ∀ k, Matters ns k → s'.lookup k = s.lookup k

/-- The store after a pass that runs alone. -/
def afterDaemonPass (env : PassEnv) (s : Registry) : Registry := (reconcileDaemonSets env).after s

/-- **A pass places the pods of the namespace**, and a second one changes none. -/
def PlacesDaemons (ns : String) (s : Registry) : Prop :=
  ∀ env, DaemonsPlaced ns (afterDaemonPass env s) ∧
    ∀ env' k, startsWith k (podPrefixOf ns) = true →
      (afterDaemonPass env' (afterDaemonPass env s)).lookup k = (afterDaemonPass env s).lookup k

section Passes

variable {ns ns' k : String} {s s' s'' : Registry}

namespace SameDaemons

theorem symm (h : SameDaemons ns s s') : SameDaemons ns s' s := fun k hk => (h k hk).symm

theorem trans (h : SameDaemons ns s s') (h' : SameDaemons ns s' s'') : SameDaemons ns s s'' :=
  fun k hk => (h' k hk).trans (h k hk)

theorem daemonSetsIn_eq (h : SameDaemons ns s s') : daemonSetsIn ns s' = daemonSetsIn ns s := by
  rw [daemonSetsIn, daemonSetsIn, KeyValue.scan_congr fun k hk => h k (Or.inr (Or.inl hk))]

theorem nodesIn_eq (h : SameDaemons ns s s') : nodesIn s' = nodesIn s := by
  rw [nodesIn, nodesIn, KeyValue.scan_congr fun k hk => h k (Or.inr (Or.inr hk))]

theorem owns {ds : DaemonSet} {p : Pod} (h : SameDaemons ns s s')
    (howns : OwnsDaemonPod ns s ds k p) : OwnsDaemonPod ns s' ds k p :=
  ⟨(h k (Or.inl howns.below)).trans howns.stored, howns.below, howns.owner⟩

theorem owns_iff {ds : DaemonSet} {p : Pod} (h : SameDaemons ns s s') :
    OwnsDaemonPod ns s' ds k p ↔ OwnsDaemonPod ns s ds k p := ⟨h.symm.owns, h.owns⟩

theorem content (h : SameDaemons ns s s') (hcontent : DaemonContent ns s) :
    DaemonContent ns s' := by
  constructor
  · rw [h.daemonSetsIn_eq]
    exact hcontent.ids
  · intro key ds k p hset howns
    rw [h.daemonSetsIn_eq] at hset
    exact hcontent.homed key ds k p hset (h.symm.owns howns)

theorem clear_iff (h : SameDaemons ns s s') : DaemonsClear ns s' ↔ DaemonsClear ns s := by
  have himp : ∀ {s s' : Registry}, SameDaemons ns s s' → DaemonsClear ns s → DaemonsClear ns s' := by
    intro s s' h hclear
    constructor
    · rw [h.daemonSetsIn_eq, h.nodesIn_eq]
      exact hclear.names
    · intro key ds k p hset howns
      rw [h.daemonSetsIn_eq] at hset ⊢
      rw [h.nodesIn_eq]
      exact hclear.unbound key ds k p hset (h.symm.owns howns)
  exact ⟨himp h.symm, himp h⟩

theorem placed_iff (h : SameDaemons ns s s') : DaemonsPlaced ns s' ↔ DaemonsPlaced ns s := by
  simp only [DaemonsPlaced, h.daemonSetsIn_eq, h.nodesIn_eq, h.owns_iff]

end SameDaemons

theorem startsWith_in_dir (dir ns ns' : String) :
    startsWith (dir ++ ns' ++ "/") (dir ++ ns ++ "/") = startsWith (ns' ++ "/") (ns ++ "/") := by
  rw [Bool.eq_iff_iff, startsWith_iff, startsWith_iff]
  simp only [String.toList_append, List.append_assoc, List.prefix_append_right_inj]

/-- What matters for the namespace is not in the directories of another. -/
theorem OwnDirectory.not_below (h : OwnDirectory ns s) (hreg : Registers s ns')
    (hnamed : ns'.isEmpty = false) (hne : ns' ≠ ns) (hk : Matters ns k) :
    startsWith k (podPrefixOf ns') = false ∧ startsWith k (daemonSetPrefixOf ns') = false := by
  obtain ⟨hout, hin⟩ := h.apart ns' hreg hnamed hne
  rcases hk with hpod | hset | hnode
  · constructor
    · exact not_startsWith_of_startsWith hpod ((startsWith_in_dir _ _ _).trans hin)
        ((startsWith_in_dir _ _ _).trans hout)
    · by_contra hset
      rw [not_pod_of_daemonSet (Bool.not_eq_false _ ▸ hset)] at hpod
      cases hpod
  · exact ⟨not_pod_of_daemonSet hset, not_startsWith_of_startsWith hset
      ((startsWith_in_dir _ _ _).trans hin) ((startsWith_in_dir _ _ _).trans hout)⟩
  · exact not_below_of_other _ hnode ⟨by decide, by decide⟩ ⟨by decide, by decide⟩

theorem OwnDirectory.of_same (h : OwnDirectory ns s) (hsame : SameNamespaces s s') :
    OwnDirectory ns s' :=
  ⟨hsame.registers.mpr h.registered, h.named, fun ns' hreg => h.apart ns' (hsame.registers.mp hreg)⟩

/-- How far a pass over all namespaces is, when those in `rest` remain. -/
structure PassStage (env : PassEnv) (ns : String) (s : Registry) (rest : List (String × Object))
    (s' : Registry) : Prop where
  registered : ∀ e ∈ rest, Registers s (namespaceOf e.1)
  nodup : (rest.map fun e => namespaceOf e.1).Nodup
  namespaces : SameNamespaces s s'
  before : ns ∈ rest.map (fun e => namespaceOf e.1) → SameDaemons ns s s'
  behind : ns ∉ rest.map (fun e => namespaceOf e.1) →
    ∃ s₁, SameDaemons ns s s₁ ∧ SameDaemons ns (afterDaemonSets env ns s₁) s'

theorem sameNamespaces_afterDaemonSets (env : PassEnv) (ns : String) (s : Registry) :
    SameNamespaces s (afterDaemonSets env ns s) := by
  intro key hkey
  obtain ⟨hpods, hsets⟩ := not_below_of_other ns hkey ⟨by decide, by decide⟩
    ⟨by decide, by decide⟩
  rw [lookup_afterDaemonSets env hpods hsets]

theorem PassStage.step {env : PassEnv} {e : String × Object} {rest : List (String × Object)}
    (hdir : OwnDirectory ns s) (h : PassStage env ns s (e :: rest) s')
    (hnamed : (namespaceOf e.1).isEmpty = false) :
    PassStage env ns s rest (afterDaemonSets env (namespaceOf e.1) s') := by
  have hnodup := h.nodup
  have hbefore := h.before
  have hbehind := h.behind
  rw [List.map_cons] at hnodup hbefore hbehind
  obtain ⟨hnot, hrest⟩ := List.nodup_cons.mp hnodup
  refine ⟨fun e' he' => h.registered e' (List.mem_cons_of_mem e he'), hrest,
    h.namespaces.trans (sameNamespaces_afterDaemonSets env _ s'), ?_, ?_⟩
  · intro hmem
    have hne : namespaceOf e.1 ≠ ns := fun heq => hnot (heq ▸ hmem)
    exact (hbefore (List.mem_cons_of_mem _ hmem)).trans fun k hk => by
      obtain ⟨hpods, hsets⟩ := hdir.not_below (h.registered e List.mem_cons_self) hnamed hne hk
      exact lookup_afterDaemonSets env hpods hsets
  · intro hmem
    by_cases heq : namespaceOf e.1 = ns
    · rw [heq]
      exact ⟨s', hbefore (heq ▸ List.mem_cons_self), fun _ _ => rfl⟩
    · obtain ⟨s₁, hs₁, hafter⟩ := hbehind fun hin => by
        rcases List.mem_cons.mp hin with hns | hin
        · exact heq hns.symm
        · exact hmem hin
      refine ⟨s₁, hs₁, hafter.trans fun k hk => ?_⟩
      obtain ⟨hpods, hsets⟩ := hdir.not_below (h.registered e List.mem_cons_self) hnamed heq hk
      exact lookup_afterDaemonSets env hpods hsets

/-- **What a pass leaves** in a namespace: what it leaves there when it comes to it. -/
theorem afterDaemonPass_in (env : PassEnv) (hdir : OwnDirectory ns s) :
    SameNamespaces s (afterDaemonPass env s) ∧ ∃ s₁, SameDaemons ns s s₁ ∧
      SameDaemons ns (afterDaemonSets env ns s₁) (afterDaemonPass env s) := by
  have hleaves : (reconcileDaemonSets env).Leaves (fun _ => PassStage env ns s []) s := by
    refine Prog.Runs.bind (Prog.Runs.list trivial ?_)
    refine Prog.Runs.forEach (PassStage env ns s) (fun e rest s' h => ?_) ⟨?_, ?_, ?_, ?_, ?_⟩
    · split_ifs with hempty
      · have hne : ns ≠ namespaceOf e.1 := by
          rintro rfl
          rw [hdir.named] at hempty
          cases hempty
        have hmem : ns ∈ rest.map (fun e => namespaceOf e.1) ↔
            ns ∈ (e :: rest).map fun e => namespaceOf e.1 := by
          rw [List.map_cons, List.mem_cons, or_iff_right hne]
        exact ⟨fun e' he' => h.registered e' (List.mem_cons_of_mem e he'),
          (List.nodup_cons.mp h.nodup).2, h.namespaces, fun hin => h.before (hmem.mp hin),
          fun hin => h.behind (hmem.not.mp hin)⟩
      · refine (leaves_afterDaemonSets env _ s').mono fun _ s'' hs'' => ?_
        rw [hs'']
        exact h.step hdir (Bool.not_eq_true _ ▸ hempty)
    · intro e he
      obtain ⟨hlookup, hkey⟩ := KeyValue.mem_scan.mp he
      exact ⟨e.1, e.2, hlookup, hkey, rfl⟩
    · exact nodup_namespaces s
    · exact fun _ _ => rfl
    · exact fun _ _ _ => rfl
    · intro hnot
      obtain ⟨key, v, hlookup, hkey, hname⟩ := hdir.registered
      exact absurd (List.mem_map.mpr ⟨(key, v), KeyValue.mem_scan.mpr ⟨hlookup, hkey⟩, hname⟩) hnot
  have hstage := hleaves.after
  exact ⟨hstage.namespaces, hstage.behind List.not_mem_nil⟩

/-- **A pass places the pods** exactly when the condition holds. -/
theorem placesDaemons_iff (hdir : OwnDirectory ns s) (hcontent : DaemonContent ns s) :
    PlacesDaemons ns s ↔ DaemonsClear ns s := by
  have hplaced : ∀ env, DaemonsPlaced ns (afterDaemonPass env s) ↔ DaemonsClear ns s := by
    intro env
    obtain ⟨-, s₁, hs₁, hafter⟩ := afterDaemonPass_in env hdir
    rw [hafter.placed_iff, daemonsPlaced_afterDaemonSets_iff env (hs₁.content hcontent),
      hs₁.clear_iff]
  constructor
  · exact fun h => (hplaced quietEnv).mp (h quietEnv).1
  · refine fun hclear env => ⟨(hplaced env).mpr hclear, fun env' k hk => ?_⟩
    obtain ⟨hsame, -⟩ := afterDaemonPass_in env hdir
    obtain ⟨-, s₁, hs₁, hafter⟩ := afterDaemonPass_in env' (hdir.of_same hsame)
    have hpods := isPodKey_of_listed hk
    rw [hafter k (Or.inl hk), ← hs₁ k (Or.inl hk)]
    exact (hs₁.placed_iff.mpr ((hplaced env).mpr hclear)).afterDaemonSets env' hpods

end Passes

/-! ## Tasks -/

/-- Who writes the pods of DaemonSets. -/
inductive PlacementTask where
  | pass (env : PassEnv)
  | drain (nodeName : String)
  | evict (now : DateTime)

/-- What a task does; what a drain answers is left out. -/
def PlacementTask.code : PlacementTask → Program Unit
  | pass env => reconcileDaemonSets env
  | drain nodeName => do let _ ← drainNode nodeName
  | evict now => reconcileEvictions now

/-- The namespace has been listed. -/
def NamespaceSeen (seen : Seen String Object) (ns : String) : Prop :=
  ∃ key v, seen.Ever key v ∧ startsWith key "/registry/namespaces/" = true ∧
    namespaceOf key = ns ∧ ns.isEmpty = false

/-- The operations of these tasks, given what has been seen. -/
inductive PlacementOp (seen : Seen String Object) : Op String Object → Prop where
  | list (p : String → Bool) : PlacementOp seen (.list p)
  | status (k : String) (ds : DaemonSet) (st : DaemonSetStatus)
      (hk : startsWith k "/registry/daemonsets/" = true) (hseen : seen.Ever k (.daemonSet ds)) :
      PlacementOp seen (.put k (.daemonSet { ds with status := st }))
  /-- A pod of a DaemonSet of a listed namespace. -/
  | create (ns key id : String) (now : DateTime) (ds : DaemonSet) (node : Node)
      (hns : NamespaceSeen seen ns) (hkey : startsWith key (daemonSetPrefixOf ns) = true)
      (hseen : seen.Ever key (.daemonSet ds)) :
      PlacementOp seen (.put (daemonPodKey ns ds node.name) (.pod (newDaemonPod id now ns ds node)))
  | delete (k : String) (hk : IsPodKey k) : PlacementOp seen (.delete k)
  | node (k : String) (node : Node) (hk : startsWith k "/registry/nodes/" = true) :
      PlacementOp seen (.put k (.node node))
  | evict (k : String) (p : Pod) (hk : IsPodKey k) (hseen : seen.Ever k (.pod p)) :
      PlacementOp seen (.put k (.pod p.evicted))

section Tasks

variable {ns : String} {rows : List (String × Object)} {seen : Seen String Object}

theorem shown_listing {p : String → Bool} {entries : List (String × Object)}
    (seen : Seen String Object) (hp : ∀ e ∈ entries, p e.1 = true)
    (hnodup : (entries.map Prod.fst).Nodup) : Shown [] entries (seen.listing p entries) := by
  refine ⟨fun _ hnode => ?_, fun e he => Seen.Ever.of_last (Seen.last_listing _ hp hnodup he)⟩
  cases hnode

theorem reconcileDaemonSet_does {env : PassEnv} {nodes : List Node} {e row : String × Object}
    (hrow : row ∈ rows) (hlisted : startsWith row.1 "/registry/namespaces/" = true)
    (hname : namespaceOf row.1 = ns) (hnamed : ns.isEmpty = false) (he : e ∈ rows)
    (hkey : startsWith e.1 (daemonSetPrefixOf ns) = true) (h : Shown [] rows seen) :
    (reconcileDaemonSet env ns nodes e).Meets PlacementOp (fun _ s => Shown [] rows s) seen := by
  rw [reconcileDaemonSet]
  cases hds : e.2.asDaemonSet with
  | none => exact h
  | some ds =>
      have hmem : (e.1, Object.daemonSet ds) ∈ rows := Object.asDaemonSet_eq_some.mp hds ▸ he
      have hset : startsWith e.1 "/registry/daemonsets/" = true :=
        startsWith_trans hkey (startsWith_append_left (startsWith_append _ _) _)
      refine Prog.Meets.bind (Prog.Meets.list (.list _) (fun listed hp _ => ?_) fun _ => h)
      refine Prog.Meets.seq (Prog.Meets.loop (fun x _ s hs => ?_) (h.listing _ listed)) fun _ s hs => ?_
      · exact Prog.Meets.put (.create ns e.1 _ _ ds x.1 ⟨row.1, row.2, hs.2 row hrow, hlisted, hname,
          hnamed⟩ hkey (hs.2 _ hmem)) (hs.note _ _) fun _ => hs
      · refine Prog.Meets.seq (Prog.Meets.loop (fun x hx s hs => ?_) hs) fun _ s hs => ?_
        · have hpod := (mem_ownedPods.mp (List.mem_of_mem_filter hx)).1
          exact Prog.Meets.delete (.delete _ (isPodKey_of_listed (hp _ hpod))) (hs.note _ _)
            fun _ => hs
        · exact Prog.Meets.put (.status _ ds _ hset (hs.2 _ hmem)) (hs.note _ _) fun _ => hs

theorem reconcileDaemonSets_does (env : PassEnv) :
    (reconcileDaemonSets env).Meets PlacementOp (fun _ _ => True) Seen.empty := by
  refine Prog.Meets.bind (Prog.Meets.list (.list _) (fun nsRows hns hnodup => ?_) fun _ => trivial)
  refine Prog.Meets.mono (fun _ _ _ => trivial) (Prog.Meets.loop (Q := Shown [] nsRows)
    (fun row hrow s hs => ?_) (shown_listing _ hns hnodup))
  split_ifs with hempty
  · exact hs
  have hnamed : (namespaceOf row.1).isEmpty = false := Bool.not_eq_true _ ▸ hempty
  refine Prog.Meets.seq (Prog.Meets.list (.list _) (fun nodeRows _ _ => hs.listing _ nodeRows)
    fun _ => hs) fun nodeRows s hs => ?_
  refine Prog.Meets.bind (Prog.Meets.list (.list _) (fun entries hp hnodup => ?_) fun _ => hs)
  have hboth : Shown [] (nsRows ++ entries) (Seen.listing s
      (fun key => startsWith key (daemonSetPrefixOf (namespaceOf row.1))) entries) := by
    refine ⟨(shown_listing s hp hnodup).1, fun e he => ?_⟩
    rcases List.mem_append.mp he with hin | hin
    · exact (hs.listing _ entries).2 e hin
    · exact (shown_listing s hp hnodup).2 e hin
  refine Prog.Meets.mono (fun _ s' hs' => ⟨hs'.1, fun e he => hs'.2 e (List.mem_append_left _ he)⟩)
    (Prog.Meets.loop (fun e he s' hs' => ?_) hboth)
  exact reconcileDaemonSet_does (List.mem_append_left _ hrow) (hns row hrow) rfl hnamed
    (List.mem_append_right _ he) (hp e he) hs'

theorem drainNode_does (nodeName : String) :
    (drainNode nodeName).Meets PlacementOp (fun _ _ => True) Seen.empty := by
  have hupdate : (findAndUpdateNode nodeName Node.drain).Meets PlacementOp (fun _ _ => True)
      Seen.empty := by
    refine Prog.Meets.bind (Prog.Meets.list (.list _) (fun entries hp _ => ?_) fun _ => trivial)
    dsimp only
    cases hfound : findNode nodeName entries with
    | none => trivial
    | some found =>
        have hmem := (NodeTask.findNode_eq_some hfound).1
        exact Prog.Meets.put (PlacementOp.node _ _ (hp _ hmem)) trivial fun _ => trivial
  refine Prog.Meets.seq hupdate.attempt fun r s _ => ?_
  cases r with
  | error e => trivial
  | ok u =>
      refine Prog.Meets.bind (Prog.Meets.list (.list _) (fun entries hp hnodup => ?_)
        fun _ => trivial).attempt
      refine Prog.Meets.seq (Prog.Meets.mono (fun _ _ _ => trivial) (Prog.Meets.loop
        (Q := Shown [] entries) (fun e he s hs => ?_) (shown_listing _ hp hnodup)))
          fun _ _ _ => trivial
      have hmem := (mem_podsOn he).1
      exact Prog.Meets.seq (Prog.Meets.put (.evict e.1 e.2 (hp _ hmem) (hs.2 _ hmem))
        (hs.note _ _) fun _ => hs).attempt fun _ _ hs => hs

theorem reconcileEvictions_does (now : DateTime) :
    (reconcileEvictions now).Meets PlacementOp (fun _ _ => True) Seen.empty := by
  refine Prog.Meets.bind (Prog.Meets.list (.list _) (fun nodeRows _ _ => ?_) fun _ => trivial)
  dsimp only
  split_ifs
  · trivial
  refine Prog.Meets.bind (Prog.Meets.list (.list _) (fun entries hp hnodup => ?_) fun _ => trivial)
  refine Prog.Meets.mono (fun _ _ _ => trivial) (Prog.Meets.loop (Q := Shown [] entries)
    (fun e he s hs => ?_) (shown_listing _ hp hnodup))
  rw [evictPod]
  cases hpod : e.2.asPod with
  | none => exact hs
  | some p =>
      have hever : s.Ever e.1 (.pod p) := Object.asPod_eq_some.mp hpod ▸ hs.2 e he
      dsimp only
      split_ifs
      · exact Prog.Meets.put (.evict e.1 p (hp e he) hever) (hs.note _ _) fun _ => hs
      · exact hs

/-- **What a task can do.** -/
theorem placementCode_does (task : PlacementTask) :
    task.code.Meets PlacementOp (fun _ _ => True) Seen.empty := by
  cases task with
  | pass env => exact reconcileDaemonSets_does env
  | drain nodeName => exact Prog.Meets.seq (drainNode_does nodeName) fun _ _ _ => trivial
  | evict now => exact reconcileEvictions_does now

end Tasks

/-! ## Runs -/

/-- What is stored under a key, or was read there, fits the DaemonSets of the start: a DaemonSet
keeps its id and its name, and its pods are where passes put them. -/
def FitsSets (ns : String) (start : Registry) (k : String) : Object → Prop
  | .daemonSet ds => startsWith k (daemonSetPrefixOf ns) = true →
      ∃ ds₀, (k, .daemonSet ds₀) ∈ daemonSetsIn ns start ∧ ds.id = ds₀.id ∧ ds.name = ds₀.name
  | .pod p => startsWith k (podPrefixOf ns) = true → ∀ key ds₀,
      (key, .daemonSet ds₀) ∈ daemonSetsIn ns start → p.ownerRef = some ds₀.id → AtHome ns ds₀ k p
  | _ => True

/-- It fits the namespaces of the start, too. -/
def FitsStart (ns : String) (start : Registry) (k : String) (v : Object) : Prop :=
  (startsWith k "/registry/namespaces/" = true → Registers start (namespaceOf k)) ∧
    FitsSets ns start k v

section Runs

variable {ns : String} {start s : Registry}

theorem DaemonContent.fitsStart (h : DaemonContent ns start) {k : String} {v : Object}
    (hlookup : start.lookup k = some v) : FitsStart ns start k v := by
  refine ⟨fun hk => ⟨k, v, hlookup, hk, rfl⟩, ?_⟩
  cases v with
  | daemonSet ds =>
      intro hk
      exact ⟨ds, KeyValue.mem_scan.mpr ⟨hlookup, hk⟩, rfl, rfl⟩
  | pod p =>
      intro hk key ds₀ hset howner
      exact h.homed key ds₀ k p hset ⟨hlookup, hk, howner⟩
  | _ => trivial

/-- Where everything fits, the content is as at the start. -/
theorem DaemonContent.of_fitsSets (h : DaemonContent ns start)
    (hfits : ∀ k v, s.lookup k = some v → FitsSets ns start k v) : DaemonContent ns s := by
  have hset : ∀ {key ds}, (key, .daemonSet ds) ∈ daemonSetsIn ns s →
      ∃ ds₀, (key, .daemonSet ds₀) ∈ daemonSetsIn ns start ∧ ds.id = ds₀.id ∧ ds.name = ds₀.name := by
    intro key ds hmem
    obtain ⟨hlookup, hkey⟩ := KeyValue.mem_scan.mp hmem
    exact hfits key _ hlookup hkey
  constructor
  · intro key key' ds ds' hmem hmem' hid
    obtain ⟨ds₀, hstart, hid₀, -⟩ := hset hmem
    obtain ⟨ds₁, hstart', hid₁, -⟩ := hset hmem'
    exact h.ids _ _ _ _ hstart hstart' (hid₀.symm.trans (hid.trans hid₁))
  · intro key ds k p hmem howns
    obtain ⟨ds₀, hstart, hid, hname⟩ := hset hmem
    have howner : p.ownerRef = some ds₀.id := hid ▸ howns.owner
    obtain ⟨m, hk, hbound⟩ := hfits k _ howns.stored howns.below key ds₀ hstart howner
    rw [daemonPodKey, ← hname] at hk
    exact ⟨m, hk, hbound⟩

/-- A pod that a pass creates fits. -/
theorem fitsSets_newDaemonPod (h : DaemonContent ns start) (hdir : OwnDirectory ns start)
    {ns' key id : String} {now : DateTime} {ds : DaemonSet} {node : Node}
    (hreg : Registers start ns') (hnamed : ns'.isEmpty = false)
    (hkey : startsWith key (daemonSetPrefixOf ns') = true)
    (hds : FitsSets ns start key (.daemonSet ds)) :
    FitsSets ns start (daemonPodKey ns' ds node.name) (.pod (newDaemonPod id now ns' ds node)) := by
  intro hk key' ds' hset' howner
  by_cases hns : ns' = ns
  · subst hns
    obtain ⟨ds₀, hset, hid, hname⟩ := hds hkey
    have hids : ds₀.id = ds'.id := hid.symm.trans (Option.some_inj.mp howner)
    obtain rfl := h.ids _ _ _ _ hset hset' hids
    obtain rfl := daemonSetsIn_unique hset hset'
    refine ⟨node.name, ?_, Or.inr rfl⟩
    rw [daemonPodKey, daemonPodKey, hname]
  · have hnot := (hdir.not_below hreg hnamed hns (Or.inl hk)).1
    rw [startsWith_daemonPodKey] at hnot
    cases hnot

/-- Whatever a task puts fits, if what it has seen does. -/
theorem fitsStart_put (h : DaemonContent ns start) (hdir : OwnDirectory ns start)
    {seen : Seen String Object} {k : String} {v : Object}
    (hseen : ∀ k v, seen.Ever k v → FitsStart ns start k v) (hop : PlacementOp seen (.put k v)) :
    FitsStart ns start k v := by
  have hother : ∀ {dir : String}, startsWith k dir = true →
      startsWith dir "/registry/namespaces/" = false →
        startsWith "/registry/namespaces/" dir = false →
          startsWith k "/registry/namespaces/" = true → Registers start (namespaceOf k) := by
    intro dir hk h₁ h₂ hnamespace
    rw [not_startsWith_of_startsWith hk h₁ h₂] at hnamespace
    cases hnamespace
  cases hop with
  | status _ ds st hk hever =>
      exact ⟨hother hk (by decide) (by decide), fun hset => (hseen k _ hever).2 hset⟩
  | create ns' key id now ds node hns hkey hever =>
      obtain ⟨row, w, hrow, hrowKey, hname, hnamed⟩ := hns
      have hreg : Registers start ns' := hname ▸ (hseen row w hrow).1 hrowKey
      exact ⟨hother (isPodKey_of_listed (startsWith_daemonPodKey ns' ds node.name)) (by decide)
        (by decide), fitsSets_newDaemonPod h hdir hreg hnamed hkey (hseen key _ hever).2⟩
  | node _ n hk => exact ⟨hother hk (by decide) (by decide), trivial⟩
  | evict _ p hk hever =>
      refine ⟨hother hk (by decide) (by decide), fun hpod key ds₀ hset howner => ?_⟩
      obtain ⟨m, hm, -⟩ := (hseen k _ hever).2 hpod key ds₀ hset howner
      exact ⟨m, hm, Or.inl rfl⟩

/-- No task writes a namespace. -/
theorem sameNamespaces_run (steps : List (PoolStep PlacementTask)) :
    SameNamespaces start (run (Pool.step PlacementTask.code) (Pool.idle start) steps).store := by
  intro key hkey
  have hother : ∀ {dir : String}, startsWith key dir = true →
      startsWith dir "/registry/namespaces/" = false →
        startsWith "/registry/namespaces/" dir = false → False := by
    intro dir hk h₁ h₂
    rw [not_startsWith_of_startsWith hk h₁ h₂] at hkey
    cases hkey
  rw [Pool.kept_run placementCode_does _ _ start steps]
  · rintro task seen v hop
    cases hop with
    | status _ ds st hk => exact hother hk (by decide) (by decide)
    | create ns' _ _ _ ds node =>
        exact hother (isPodKey_of_listed (startsWith_daemonPodKey ns' ds node.name)) (by decide)
          (by decide)
    | node _ _ hk => exact hother hk (by decide) (by decide)
    | evict _ _ hk => exact hother hk (by decide) (by decide)
  · rintro task seen hop
    cases hop with
    | delete _ hk => exact hother hk (by decide) (by decide)

theorem daemonContent_run (h : DaemonContent ns start) (hdir : OwnDirectory ns start)
    (steps : List (PoolStep PlacementTask)) :
    DaemonContent ns (run (Pool.step PlacementTask.code) (Pool.idle start) steps).store := by
  have hvouched := Pool.vouched_run (V := FitsStart ns start) placementCode_does
    (fun _ _ _ _ hseen hop => fitsStart_put h hdir hseen hop)
    (fun _ _ hlookup => h.fitsStart hlookup) steps
  exact h.of_fitsSets fun k v hlookup => (hvouched.1 k v hlookup).2

/-- **In every state of every run, a pass places the pods of the namespace** if and only if no two
of those that are wanted have the same name, and those that were evicted have the name of one that
is wanted. -/
theorem placement_iff (hcontent : DaemonContent ns start) (hdir : OwnDirectory ns start)
    (steps : List (PoolStep PlacementTask)) :
    PlacesDaemons ns (run (Pool.step PlacementTask.code) (Pool.idle start) steps).store ↔
      DaemonsClear ns (run (Pool.step PlacementTask.code) (Pool.idle start) steps).store :=
  placesDaemons_iff (hdir.of_same (sameNamespaces_run steps)) (daemonContent_run hcontent hdir steps)

end Runs

/-! ## Stores where it holds, and where it does not -/

instance (ns : String) (s : Registry) : Decidable (OwnDirectory ns s) :=
  decidable_of_iff ((ns ∈ namespacesIn s) ∧ ∀ ns' ∈ namespacesIn s, ns' ≠ ns →
      startsWith (ns' ++ "/") (ns ++ "/") = false ∧ startsWith (ns ++ "/") (ns' ++ "/") = false) (by
    simp only [mem_namespacesIn]
    constructor
    · rintro ⟨⟨hreg, hnamed⟩, hapart⟩
      exact ⟨hreg, hnamed, fun ns' hreg' hnamed' => hapart ns' ⟨hreg', hnamed'⟩⟩
    · intro h
      exact ⟨⟨h.registered, h.named⟩, fun ns' hns' => h.apart ns' hns'.1 hns'.2⟩)

/-- The DaemonSets of a namespace, each with its key. -/
def daemonSetRows (ns : String) (s : Registry) : List (String × DaemonSet) :=
  (daemonSetsIn ns s).filterMap fun e => e.2.asDaemonSet.map fun ds => (e.1, ds)

theorem mem_daemonSetRows {ns : String} {s : Registry} {e : String × DaemonSet} :
    e ∈ daemonSetRows ns s ↔ (e.1, .daemonSet e.2) ∈ daemonSetsIn ns s := by
  simp only [daemonSetRows, List.mem_filterMap, Option.map_eq_some_iff,
    Object.asDaemonSet_eq_some, Prod.exists]
  constructor
  · rintro ⟨key, v, hmem, ds, rfl, rfl⟩
    exact hmem
  · exact fun hmem => ⟨e.1, _, hmem, e.2, rfl, rfl⟩

/-- The DaemonSets of the namespace have different names, and so have the nodes. -/
def UniquelyNamed (ns : String) (s : Registry) : Prop :=
  ((daemonSetRows ns s).map fun e => e.2.name).Nodup ∧ ((nodesIn s).map Node.name).Nodup

instance (ns : String) (s : Registry) : Decidable (UniquelyNamed ns s) :=
  inferInstanceAs (Decidable (_ ∧ _))

/-- The content of a namespace without pods. -/
theorem daemonContent_of_noPods {ns : String} {s : Registry}
    (hids : ∀ e ∈ daemonSetRows ns s, ∀ e' ∈ daemonSetRows ns s, e.2.id = e'.2.id → e.1 = e'.1)
    (hpods : (s.scan fun key => startsWith key (podPrefixOf ns)) = []) : DaemonContent ns s := by
  constructor
  · intro key key' ds ds' hset hset' hid
    exact hids (key, ds) (mem_daemonSetRows.mpr hset) (key', ds') (mem_daemonSetRows.mpr hset') hid
  · intro key ds k p _ howns
    have hmem : (k, Object.pod p) ∈ s.scan fun key => startsWith key (podPrefixOf ns) :=
      KeyValue.mem_scan.mpr ⟨howns.stored, howns.below⟩
    rw [hpods] at hmem
    cases hmem

instance (ns : String) (s : Registry) : Decidable (DaemonsClear ns s) :=
  decidable_of_iff
    ((∀ e ∈ daemonSetRows ns s, ∀ e' ∈ daemonSetRows ns s, ∀ node ∈ nodesIn s, ∀ node' ∈ nodesIn s,
        e.2.Wants (nodesIn s) node.name → e'.2.Wants (nodesIn s) node'.name →
          daemonPodKey ns e.2 node.name = daemonPodKey ns e'.2 node'.name → e.1 = e'.1) ∧
      ∀ e ∈ daemonSetRows ns s,
        ∀ pod ∈ ownedPods e.2.id (s.scan fun key => startsWith key (podPrefixOf ns)),
          pod.2.nodeName = none → ∃ e' ∈ daemonSetRows ns s, ∃ node ∈ nodesIn s,
            e'.2.Wants (nodesIn s) node.name ∧ pod.1 = daemonPodKey ns e'.2 node.name) (by
    constructor
    · rintro ⟨hnames, hunbound⟩
      constructor
      · intro key key' ds ds' m m' hset hset' hwants hwants' heq
        obtain ⟨node, hnode, hselects, rfl⟩ := hwants
        obtain ⟨node', hnode', hselects', rfl⟩ := hwants'
        exact hnames (key, ds) (mem_daemonSetRows.mpr hset) (key', ds') (mem_daemonSetRows.mpr hset')
          node hnode node' hnode' ⟨node, hnode, hselects, rfl⟩ ⟨node', hnode', hselects', rfl⟩ heq
      · intro key ds k p hset howns hnone
        obtain ⟨e', he', node, -, hwants, hk⟩ := hunbound (key, ds) (mem_daemonSetRows.mpr hset)
          (k, p) (mem_ownedPods_iff.mpr howns) hnone
        exact ⟨e'.1, e'.2, node.name, mem_daemonSetRows.mp he', hwants, hk⟩
    · intro h
      constructor
      · intro e he e' he' node _ node' _ hwants hwants' heq
        exact h.names e.1 e'.1 e.2 e'.2 _ _ (mem_daemonSetRows.mp he) (mem_daemonSetRows.mp he')
          hwants hwants' heq
      · intro e he pod hpod hnone
        obtain ⟨key', ds', m, hset', ⟨node, hnode, hselects, rfl⟩, hk⟩ := h.unbound e.1 e.2 pod.1
          pod.2 (mem_daemonSetRows.mp he) (mem_ownedPods_iff.mp hpod) hnone
        exact ⟨(key', ds'), mem_daemonSetRows.mpr hset', node, hnode, ⟨node, hnode, hselects, rfl⟩, hk⟩)

/-- A DaemonSet for every node. -/
def everywhere (id name : String) : DaemonSet where
  id := id
  name := name
  ns := "n"
  spec := ⟨emptyTemplate, []⟩
  status := ⟨0, 0, 0⟩
  createdAt := 0

/-- A namespace with some DaemonSets, and ready nodes. -/
def daemonStore (sets : List DaemonSet) (nodeNames : List String) : Registry :=
  nodeNames.foldl (fun s name => s.insert (nodeKey name) (.node { worker with name := name }))
    (sets.foldl (fun s ds => s.insert ("/registry/daemonsets/n/" ++ ds.name) (.daemonSet ds))
      (KeyValue.insert ∅ "/registry/namespaces/n" (.other "")))

/-- A node is drained while a pass is under way that has listed it already. -/
theorem placement_iff_drained :
    PlacesDaemons "n" (run (Pool.step PlacementTask.code)
      (Pool.idle (daemonStore [everywhere "1" "a"] ["b", "c"]))
      [.spawn 0 (.pass quietEnv), .advance 0 .ok, .advance 0 .ok, .spawn 1 (.drain "b"),
       .advance 1 .ok, .advance 1 .ok, .advance 1 .ok, .advance 0 .ok, .advance 0 .ok,
       .advance 0 .ok, .advance 0 .ok, .advance 0 .ok]).store :=
  (placement_iff (daemonContent_of_noPods (by decide) (by decide))
    (by decide) _).mpr (by decide)

/-- Two DaemonSets, and two nodes. -/
def dashStore : Registry :=
  daemonStore [everywhere "1" "a", everywhere "2" "a-b"] ["b-c", "c"]

/-- The pod of `a` on `b-c` has the name of the pod of `a-b` on `c`. -/
theorem placement_fails_for_dashes :
    ¬∀ (ns : String) (start : Registry), DaemonContent ns start → OwnDirectory ns start →
      UniquelyNamed ns start → ∀ steps,
        PlacesDaemons ns (run (Pool.step PlacementTask.code) (Pool.idle start) steps).store := by
  intro h
  have hcontent : DaemonContent "n" dashStore :=
    daemonContent_of_noPods (by decide) (by decide)
  have hdir : OwnDirectory "n" dashStore := by decide
  have hplaces := h "n" dashStore hcontent hdir (by decide) []
  have hclear : DaemonsClear "n" dashStore := (placesDaemons_iff hdir hcontent).mp hplaces
  revert hclear
  decide

/-- A pass creates a pod, and a drain evicts it: the DaemonSet keeps it. -/
theorem placement_fails_after_drain :
    ¬PlacesDaemons "n" (run (Pool.step PlacementTask.code)
      (Pool.idle (daemonStore [everywhere "1" "a"] ["c"]))
      [.spawn 0 (.pass quietEnv), .advance 0 .ok, .advance 0 .ok, .advance 0 .ok, .advance 0 .ok,
       .advance 0 .ok, .advance 0 .ok, .spawn 1 (.drain "c"), .advance 1 .ok, .advance 1 .ok,
       .advance 1 .ok, .advance 1 .ok]).store := by
  have hcontent : DaemonContent "n" (daemonStore [everywhere "1" "a"] ["c"]) :=
    daemonContent_of_noPods (by decide) (by decide)
  have hdir : OwnDirectory "n" (daemonStore [everywhere "1" "a"] ["c"]) := by decide
  rw [placesDaemons_iff (hdir.of_same (sameNamespaces_run _)) (daemonContent_run hcontent hdir _)]
  decide

end K3rs
