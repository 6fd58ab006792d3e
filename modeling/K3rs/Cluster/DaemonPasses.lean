import K3rs.Cluster.Pods
import K3rs.Cluster.ReplicaPasses

/-!
# Passes of the DaemonSet controller

What a pass over a namespace leaves that has the store to itself.  `Reconciled` says what is done
for one DaemonSet, and `runs_daemonPass` carries an invariant over the DaemonSets of the namespace.

The pod of a DaemonSet on a node is stored under both names, joined by a dash.  A pass leaves
exactly the pods that are wanted if and only if no two of them have the same name, and every pod
that has lost its node is under such a name (`daemonsPlaced_afterDaemonSets_iff`).  Where the pods
are placed, a pass changes none (`DaemonsPlaced.afterDaemonSets`).
-/

namespace K3rs

open Programs

/-! ## Pods and nodes of a DaemonSet -/

/-- The DaemonSet is to have a pod on the node. -/
def DaemonSet.Wants (ds : DaemonSet) (nodes : List Node) (nodeName : String) : Prop :=
  ∃ node ∈ nodes, ds.selects node = true ∧ node.name = nodeName

instance (ds : DaemonSet) (nodes : List Node) (nodeName : String) :
    Decidable (ds.Wants nodes nodeName) :=
  inferInstanceAs (Decidable (∃ node ∈ nodes, _))

/-- Where the pod of a DaemonSet on a node is. -/
def daemonPodKey (ns : String) (ds : DaemonSet) (nodeName : String) : String :=
  podKey ns (ds.name ++ "-" ++ nodeName)

/-- The DaemonSet owns the pod that is stored under the key. -/
structure OwnsDaemonPod (ns : String) (s : Registry) (ds : DaemonSet) (k : String) (p : Pod) :
    Prop where
  stored : s.lookup k = some (.pod p)
  below : startsWith k (podPrefixOf ns) = true
  owner : p.ownerRef = some ds.id

/-- The DaemonSets of a namespace, as they are listed. -/
def daemonSetsIn (ns : String) (s : Registry) : List (String × Object) :=
  s.scan fun key => startsWith key (daemonSetPrefixOf ns)

variable {ns : String} {nodes : List Node} {ds : DaemonSet} {s s' : Registry} {k key m : String}

theorem startsWith_daemonPodKey (ns : String) (ds : DaemonSet) (m : String) :
    startsWith (daemonPodKey ns ds m) (podPrefixOf ns) = true := startsWith_append _ _

theorem mem_ownedPods_iff {e : String × Pod} :
    e ∈ ownedPods ds.id (s.scan fun key => startsWith key (podPrefixOf ns)) ↔
      OwnsDaemonPod ns s ds e.1 e.2 := by
  rw [mem_ownedPods, KeyValue.mem_scan]
  constructor
  · rintro ⟨⟨hlookup, hbelow⟩, howner⟩
    exact ⟨hlookup, hbelow, howner⟩
  · intro h
    exact ⟨⟨h.stored, h.below⟩, h.owner⟩

theorem daemonPodKey_inj {m' : String} (h : daemonPodKey ns ds m = daemonPodKey ns ds m') :
    m = m' := by
  have hlists := congrArg String.toList h
  rw [daemonPodKey, daemonPodKey, podKey, podKey] at hlists
  simp only [String.toList_append] at hlists
  exact String.toList_injective (List.append_cancel_left (List.append_cancel_left hlists))

/-- A key of a pod is not that of a DaemonSet. -/
theorem ne_daemonSetKey_of_pod (hkey : startsWith key (daemonSetPrefixOf ns) = true)
    (hk : startsWith k "/registry/pods/" = true) : k ≠ key := by
  rintro rfl
  have hsets : startsWith k "/registry/daemonsets/" = true :=
    startsWith_trans hkey (startsWith_append_left (startsWith_append _ _) _)
  rw [not_startsWith_of_startsWith hsets (by decide) (by decide)] at hk
  cases hk

theorem ne_daemonSetKey (hkey : startsWith key (daemonSetPrefixOf ns) = true)
    (hk : startsWith k (podPrefixOf ns) = true) : k ≠ key :=
  ne_daemonSetKey_of_pod hkey (isPodKey_of_listed hk)

/-! ## One DaemonSet -/

/-- The DaemonSet has a pod there, on a node where it is to have none. -/
def IsStray (ns : String) (nodes : List Node) (ds : DaemonSet) (s : Registry) (k : String) : Prop :=
  ∃ p m, OwnsDaemonPod ns s ds k p ∧ p.nodeName = some m ∧ ¬ds.Wants nodes m

/-- The DaemonSet has no pod on a node where it is to have one. -/
def IsMissing (ns : String) (nodes : List Node) (ds : DaemonSet) (s : Registry) (m : String) :
    Prop :=
  ds.Wants nodes m ∧ ¬∃ k p, OwnsDaemonPod ns s ds k p ∧ p.nodeName = some m

/-- What is done for the DaemonSet under `key`: new pods where they are missing, then no stray ones,
and its status. -/
structure Reconciled (ns : String) (nodes : List Node) (key : String) (ds : DaemonSet)
    (s s' : Registry) : Prop where
  status : ∃ st, s'.lookup key = some (.daemonSet { ds with status := st })
  stray : ∀ k, IsStray ns nodes ds s k → s'.lookup k = none
  created : ∀ m, IsMissing ns nodes ds s m → ¬IsStray ns nodes ds s (daemonPodKey ns ds m) →
    ∃ node id now, node.name = m ∧
      s'.lookup (daemonPodKey ns ds m) = some (.pod (newDaemonPod id now ns ds node))
  other : ∀ k, k ≠ key → ¬IsStray ns nodes ds s k →
    (∀ m, IsMissing ns nodes ds s m → k ≠ daemonPodKey ns ds m) → s'.lookup k = s.lookup k

theorem mem_strayPods_iff {e : String × Pod} :
    e ∈ strayPods (nodes.filter ds.selects)
        (ownedPods ds.id (s.scan fun key => startsWith key (podPrefixOf ns))) ↔
      OwnsDaemonPod ns s ds e.1 e.2 ∧ ∃ m, e.2.nodeName = some m ∧ ¬ds.Wants nodes m := by
  rw [strayPods, List.mem_filter, mem_ownedPods_iff]
  refine and_congr_right fun _ => ?_
  cases e.2.nodeName with
  | none => simp
  | some m =>
      have hany : ((nodes.filter ds.selects).any fun n => decide (n.name = m)) = true ↔
          ds.Wants nodes m := by
        rw [List.any_eq_true]
        constructor
        · rintro ⟨node, hnode, hname⟩
          obtain ⟨hmem, hselects⟩ := List.mem_filter.mp hnode
          exact ⟨node, hmem, hselects, of_decide_eq_true hname⟩
        · rintro ⟨node, hmem, hselects, hname⟩
          exact ⟨node, List.mem_filter.mpr ⟨hmem, hselects⟩, decide_eq_true hname⟩
      dsimp only
      rw [Bool.not_eq_true', ← Bool.not_eq_true, hany]
      constructor
      · intro h
        exact ⟨m, rfl, h⟩
      · rintro ⟨m', hm', h⟩
        rwa [Option.some_inj.mp hm']

theorem mem_missing_iff {node : Node} :
    node ∈ (nodes.filter ds.selects).filter (fun n => !((nodesWithPods
        (ownedPods ds.id (s.scan fun key => startsWith key (podPrefixOf ns)))).contains n.name)) ↔
      (node ∈ nodes ∧ ds.selects node = true) ∧
        ¬∃ k p, OwnsDaemonPod ns s ds k p ∧ p.nodeName = some node.name := by
  rw [List.mem_filter, List.mem_filter, Bool.not_eq_true', ← Bool.not_eq_true,
    List.contains_iff_mem, nodesWithPods, List.mem_filterMap]
  refine and_congr_right fun _ => not_congr ?_
  constructor
  · rintro ⟨e, he, hname⟩
    exact ⟨e.1, e.2, mem_ownedPods_iff.mp he, hname⟩
  · rintro ⟨k, p, howns, hname⟩
    exact ⟨(k, p), mem_ownedPods_iff.mpr howns, hname⟩

theorem reconcileDaemonSet_leaves (env : PassEnv) (nodes : List Node) (ds : DaemonSet)
    (hkey : startsWith key (daemonSetPrefixOf ns) = true) (s : Registry) :
    (reconcileDaemonSet env ns nodes (key, .daemonSet ds)).Leaves
      (fun _ s' => Reconciled ns nodes key ds s s') s := by
  refine Prog.Runs.bind (Prog.Runs.list trivial ?_)
  refine Prog.Runs.bind ((Prog.Runs.forEach_put (fun _ => rfl) _ _).mono fun _ s₁ h₁ => ?_)
  refine Prog.Runs.bind ((Prog.Runs.forEach_delete (fun _ => rfl) _ _).mono fun _ s₂ h₂ => ?_)
  refine Prog.Runs.put (fun _ => trivial) fun _ => ?_
  obtain ⟨hother₁, hput⟩ := h₁
  obtain ⟨hother₂, hgone⟩ := h₂
  have hnotStray : ∀ {k}, ¬IsStray ns nodes ds s k → ∀ e ∈ strayPods (nodes.filter ds.selects)
      (ownedPods ds.id (s.scan fun key => startsWith key (podPrefixOf ns))), e.1 ≠ k := by
    rintro k hk e he rfl
    obtain ⟨howns, m, hm, hwants⟩ := mem_strayPods_iff.mp he
    exact hk ⟨e.2, m, howns, hm, hwants⟩
  refine ⟨⟨_, KeyValue.lookup_insert_self _ _ _⟩, ?_, ?_, ?_⟩
  · rintro k ⟨p, m, howns, hm, hwants⟩
    rw [KeyValue.lookup_insert_of_ne (ne_daemonSetKey hkey howns.below)]
    exact hgone (k, p) (mem_strayPods_iff.mpr ⟨howns, m, hm, hwants⟩)
  · rintro m ⟨⟨node, hnode, hselects, rfl⟩, hnone⟩ hstray
    have hmissing := mem_missing_iff.mpr ⟨⟨hnode, hselects⟩, hnone⟩
    obtain ⟨i, hi⟩ := List.mem_iff_getElem?.mp hmissing
    obtain ⟨y, -, hy, hlookup⟩ := hput (node, i) (List.mem_zipIdx_iff_getElem?.mpr hi)
    have hne := ne_daemonSetKey hkey (startsWith_daemonPodKey ns ds node.name)
    refine ⟨y.1, env.uuid key y.2, env.now key y.2, daemonPodKey_inj hy, ?_⟩
    rw [KeyValue.lookup_insert_of_ne hne, hother₂ _ (hnotStray hstray)]
    exact hlookup
  · intro k hne hstray hmissing
    rw [KeyValue.lookup_insert_of_ne hne, hother₂ _ (hnotStray hstray), hother₁]
    intro x hx hk
    have hnode := mem_missing_iff.mp (List.fst_mem_of_mem_zipIdx hx)
    exact hmissing x.1.name ⟨⟨x.1, hnode.1.1, hnode.1.2, rfl⟩, hnode.2⟩ hk.symm

/-! ## A pass -/

/-- The store after a pass over a namespace that runs alone. -/
def afterDaemonSets (env : PassEnv) (ns : String) (s : Registry) : Registry :=
  (reconcileDaemonSetNamespace env ns).after s

section Rule

variable {J : List (String × Object) → Registry → Prop} (hstart : J (daemonSetsIn ns s) s)
  (hskip : ∀ e rest s₁, e :: rest <:+ daemonSetsIn ns s → e.2.asDaemonSet = none →
    J (e :: rest) s₁ → J rest s₁)
  (hstep : ∀ key ds rest s₁ s₂, (key, .daemonSet ds) :: rest <:+ daemonSetsIn ns s →
    Reconciled ns (nodesIn s) key ds s₁ s₂ → J ((key, .daemonSet ds) :: rest) s₁ → J rest s₂)

include hstart hskip hstep

theorem reconcileDaemonSetNamespace_leaves (env : PassEnv) :
    (reconcileDaemonSetNamespace env ns).Leaves (fun _ => J []) s := by
  refine Prog.Runs.bind (Prog.Runs.list trivial (Prog.Runs.bind (Prog.Runs.list trivial ?_)))
  refine (Prog.Runs.forEach (fun rest s₁ => rest <:+ daemonSetsIn ns s ∧ J rest s₁)
    (fun e rest s₁ h => ?_) ⟨List.suffix_rfl, hstart⟩).mono fun _ _ h => h.2
  obtain ⟨hsuffix, hJ⟩ := h
  have hrest : rest <:+ daemonSetsIn ns s := (List.suffix_cons e rest).trans hsuffix
  cases hds : e.2.asDaemonSet with
  | none =>
      rw [reconcileDaemonSet, hds]
      exact ⟨hrest, hskip e rest s₁ hsuffix hds hJ⟩
  | some ds =>
      obtain ⟨key, v⟩ := e
      obtain rfl := Object.asDaemonSet_eq_some.mp hds
      have hkey : startsWith key (daemonSetPrefixOf ns) = true :=
        (KeyValue.mem_scan.mp (hsuffix.subset List.mem_cons_self)).2
      refine (reconcileDaemonSet_leaves env (nodesIn s) ds hkey s₁).mono fun _ s₂ h => ?_
      exact ⟨hrest, hstep key ds rest s₁ s₂ hsuffix h hJ⟩

/-- **The rule for a pass**: `J rest` holds when the DaemonSets in `rest` remain to be done. -/
theorem runs_daemonPass (env : PassEnv) : J [] (afterDaemonSets env ns s) :=
  (reconcileDaemonSetNamespace_leaves hstart hskip hstep env).after

end Rule

/-- A pass ends, and what it leaves is given by `afterDaemonSets`. -/
theorem leaves_afterDaemonSets (env : PassEnv) (ns : String) (s : Registry) :
    (reconcileDaemonSetNamespace env ns).Leaves (fun _ s' => s' = afterDaemonSets env ns s) s :=
  ((reconcileDaemonSetNamespace_leaves (J := fun _ _ => True) trivial (fun _ _ _ _ _ _ => trivial)
    (fun _ _ _ _ _ _ _ _ => trivial) env).leaves_after).mono fun _ _ h => h.2

/-- A pass writes below the two directories of the namespace only. -/
theorem lookup_afterDaemonSets (env : PassEnv) (hpods : startsWith k (podPrefixOf ns) = false)
    (hsets : startsWith k (daemonSetPrefixOf ns) = false) :
    (afterDaemonSets env ns s).lookup k = s.lookup k := by
  refine runs_daemonPass (J := fun _ s₁ => s₁.lookup k = s.lookup k) rfl (fun _ _ _ _ _ h => h)
    (fun key ds rest s₁ s₂ hsuffix hdone h => ?_) env
  obtain ⟨-, hkey⟩ := KeyValue.mem_scan.mp (hsuffix.subset List.mem_cons_self)
  rw [hdone.other k, h]
  · rintro rfl
    rw [hkey] at hsets
    cases hsets
  · rintro ⟨p, m, howns, -⟩
    rw [howns.below] at hpods
    cases hpods
  · rintro m - rfl
    rw [startsWith_daemonPodKey] at hpods
    cases hpods

/-- The nodes are as they were, and the DaemonSets of the namespace too but for their status. -/
structure KeepsSets (ns : String) (s s' : Registry) : Prop where
  nodes : ∀ k, startsWith k "/registry/nodes/" = true → s'.lookup k = s.lookup k
  sets : ∀ k, startsWith k (daemonSetPrefixOf ns) = true → s'.lookup k = s.lookup k ∨
    ∃ ds st, s.lookup k = some (.daemonSet ds) ∧
      s'.lookup k = some (.daemonSet { ds with status := st })

/-- The directory of the DaemonSets is not that of the pods. -/
theorem not_pod_of_daemonSet {ns' : String} (hk : startsWith k (daemonSetPrefixOf ns) = true) :
    startsWith k (podPrefixOf ns') = false := by
  have hsets : startsWith k "/registry/daemonsets/" = true :=
    startsWith_trans hk (startsWith_append_left (startsWith_append _ _) _)
  exact not_startsWith_of_not (not_startsWith_of_startsWith hsets (by decide) (by decide))
    (startsWith_podPrefixOf ns')

/-- A directory besides those of the pods and of the DaemonSets. -/
theorem not_below_of_other (ns : String) {dir : String} (hk : startsWith k dir = true)
    (hpods : startsWith dir "/registry/pods/" = false ∧ startsWith "/registry/pods/" dir = false)
    (hsets : startsWith dir "/registry/daemonsets/" = false ∧
      startsWith "/registry/daemonsets/" dir = false) :
    startsWith k (podPrefixOf ns) = false ∧ startsWith k (daemonSetPrefixOf ns) = false :=
  ⟨not_startsWith_of_not (not_startsWith_of_startsWith hk hpods.1 hpods.2)
      (startsWith_podPrefixOf ns),
    not_startsWith_of_not (not_startsWith_of_startsWith hk hsets.1 hsets.2)
      (startsWith_append_left (startsWith_append _ _) _)⟩

theorem keepsSets_afterDaemonSets (env : PassEnv) (ns : String) (s : Registry) :
    KeepsSets ns s (afterDaemonSets env ns s) := by
  constructor
  · intro k hk
    obtain ⟨hpods, hsets⟩ := not_below_of_other ns hk ⟨by decide, by decide⟩
      ⟨by decide, by decide⟩
    exact lookup_afterDaemonSets env hpods hsets
  · intro k hk
    refine runs_daemonPass (J := fun _ s₁ => s₁.lookup k = s.lookup k ∨
      ∃ ds st, s.lookup k = some (.daemonSet ds) ∧
        s₁.lookup k = some (.daemonSet { ds with status := st })) (Or.inl rfl)
      (fun _ _ _ _ _ h => h) (fun key ds rest s₁ s₂ hsuffix hdone h => ?_) env
    by_cases heq : k = key
    · obtain ⟨st, hst⟩ := hdone.status
      obtain ⟨hlookup, -⟩ := KeyValue.mem_scan.mp (hsuffix.subset List.mem_cons_self)
      exact Or.inr ⟨ds, st, heq ▸ hlookup, heq ▸ hst⟩
    · have hpods : startsWith k (podPrefixOf ns) = false := not_pod_of_daemonSet hk
      rw [hdone.other k heq]
      · exact h
      · rintro ⟨p, m, howns, -⟩
        rw [howns.below] at hpods
        cases hpods
      · rintro m - rfl
        rw [startsWith_daemonPodKey] at hpods
        cases hpods

theorem KeepsSets.nodesIn_eq (h : KeepsSets ns s s') : nodesIn s' = nodesIn s := by
  rw [nodesIn, nodesIn, KeyValue.scan_congr h.nodes]

theorem KeepsSets.mem (h : KeepsSets ns s s')
    (hmem : (key, .daemonSet ds) ∈ daemonSetsIn ns s') :
    ∃ ds₀ st, (key, .daemonSet ds₀) ∈ daemonSetsIn ns s ∧ ds = { ds₀ with status := st } := by
  obtain ⟨hlookup, hkey⟩ := KeyValue.mem_scan.mp hmem
  rcases h.sets key hkey with hsame | ⟨ds₀, st, hold, hnew⟩
  · exact ⟨ds, ds.status, KeyValue.mem_scan.mpr ⟨hsame ▸ hlookup, hkey⟩, rfl⟩
  · refine ⟨ds₀, st, KeyValue.mem_scan.mpr ⟨hold, hkey⟩, ?_⟩
    exact Object.daemonSet.inj (Option.some_inj.mp (hlookup.symm.trans hnew))

theorem KeepsSets.mem' (h : KeepsSets ns s s')
    (hmem : (key, .daemonSet ds) ∈ daemonSetsIn ns s) :
    ∃ st, (key, .daemonSet { ds with status := st }) ∈ daemonSetsIn ns s' := by
  obtain ⟨hlookup, hkey⟩ := KeyValue.mem_scan.mp hmem
  rcases h.sets key hkey with hsame | ⟨ds₀, st, hold, hnew⟩
  · exact ⟨ds.status, KeyValue.mem_scan.mpr ⟨hsame.trans hlookup, hkey⟩⟩
  · obtain rfl := Object.daemonSet.inj (Option.some_inj.mp (hlookup.symm.trans hold))
    exact ⟨st, KeyValue.mem_scan.mpr ⟨hnew, hkey⟩⟩

/-- **A pod after a DaemonSet is done** is new, or was there before. -/
theorem Reconciled.pod_cases {p : Pod} (h : Reconciled ns nodes key ds s s')
    (hkey : startsWith key (daemonSetPrefixOf ns) = true)
    (hk : startsWith k (podPrefixOf ns) = true) (hlookup : s'.lookup k = some (.pod p)) :
    (∃ node id now, IsMissing ns nodes ds s node.name ∧ k = daemonPodKey ns ds node.name ∧
      p = newDaemonPod id now ns ds node) ∨
    s.lookup k = some (.pod p) ∧ ¬IsStray ns nodes ds s k ∧
      ∀ m, IsMissing ns nodes ds s m → k ≠ daemonPodKey ns ds m := by
  by_cases hstray : IsStray ns nodes ds s k
  · rw [h.stray k hstray] at hlookup
    cases hlookup
  by_cases hnew : ∃ m, IsMissing ns nodes ds s m ∧ k = daemonPodKey ns ds m
  · obtain ⟨m, hmissing, rfl⟩ := hnew
    obtain ⟨node, id, now, rfl, hcreated⟩ := h.created m hmissing hstray
    have hp := Object.pod.inj (Option.some_inj.mp (hlookup.symm.trans hcreated))
    exact Or.inl ⟨node, id, now, hmissing, rfl, hp⟩
  · have hold : ∀ m, IsMissing ns nodes ds s m → k ≠ daemonPodKey ns ds m :=
      fun m hmissing heq => hnew ⟨m, hmissing, heq⟩
    rw [h.other k (ne_daemonSetKey hkey hk) hstray hold] at hlookup
    exact Or.inr ⟨hlookup, hstray, hold⟩

/-! ## Placement -/

/-- **What is asked for**: every DaemonSet owns exactly one pod on each node where it is to have
one, and no other pod. -/
def DaemonsPlaced (ns : String) (s : Registry) : Prop :=
  ∀ key ds, (key, .daemonSet ds) ∈ daemonSetsIn ns s →
    (∀ m, ds.Wants (nodesIn s) m →
      ∃! e : String × Pod, OwnsDaemonPod ns s ds e.1 e.2 ∧ e.2.nodeName = some m) ∧
    ∀ k p, OwnsDaemonPod ns s ds k p → ∃ m, p.nodeName = some m ∧ ds.Wants (nodesIn s) m

/-- The pod is where the pod of the DaemonSet on a node is, and on no other node. -/
def AtHome (ns : String) (ds : DaemonSet) (k : String) (p : Pod) : Prop :=
  ∃ m, k = daemonPodKey ns ds m ∧ (p.nodeName = none ∨ p.nodeName = some m)

/-- The content of a namespace: the DaemonSets have different ids, and their pods are where passes
put them. -/
structure DaemonContent (ns : String) (s : Registry) : Prop where
  ids : ∀ key key' ds ds', (key, .daemonSet ds) ∈ daemonSetsIn ns s →
    (key', .daemonSet ds') ∈ daemonSetsIn ns s → ds.id = ds'.id → key = key'
  homed : ∀ key ds k p, (key, .daemonSet ds) ∈ daemonSetsIn ns s → OwnsDaemonPod ns s ds k p →
    AtHome ns ds k p

/-- **The condition**: no two DaemonSets are to have pods of the same name, and a pod that has lost
its node has the name of one that is to be there. -/
structure DaemonsClear (ns : String) (s : Registry) : Prop where
  names : ∀ key key' ds ds' m m', (key, .daemonSet ds) ∈ daemonSetsIn ns s →
    (key', .daemonSet ds') ∈ daemonSetsIn ns s → ds.Wants (nodesIn s) m →
      ds'.Wants (nodesIn s) m' → daemonPodKey ns ds m = daemonPodKey ns ds' m' → key = key'
  unbound : ∀ key ds k p, (key, .daemonSet ds) ∈ daemonSetsIn ns s → OwnsDaemonPod ns s ds k p →
    p.nodeName = none → ∃ key' ds' m, (key', .daemonSet ds') ∈ daemonSetsIn ns s ∧
      ds'.Wants (nodesIn s) m ∧ k = daemonPodKey ns ds' m

/-- There is one DaemonSet under a key. -/
theorem daemonSetsIn_unique {ds' : DaemonSet} (h : (key, .daemonSet ds) ∈ daemonSetsIn ns s)
    (h' : (key, .daemonSet ds') ∈ daemonSetsIn ns s) : ds = ds' :=
  Object.daemonSet.inj (Option.some_inj.mp
    ((KeyValue.mem_scan.mp h).1.symm.trans (KeyValue.mem_scan.mp h').1))

theorem OwnsDaemonPod.unique {ds' : DaemonSet} {p p' : Pod} (h : OwnsDaemonPod ns s ds k p)
    (h' : OwnsDaemonPod ns s ds' k p') : p = p' :=
  Object.pod.inj (Option.some_inj.mp (h.stored.symm.trans h'.stored))

/-- How far a pass over the DaemonSets of `s` is, when those in `rest` remain: the pods that are
bound are where they belong, those that are not will be replaced, and whatever is done is
complete. -/
structure DaemonStage (ns : String) (s : Registry) (rest : List (String × Object))
    (s' : Registry) : Prop where
  bound : ∀ key ds k p m, (key, .daemonSet ds) ∈ daemonSetsIn ns s → OwnsDaemonPod ns s' ds k p →
    p.nodeName = some m → k = daemonPodKey ns ds m ∧
      ((key, .daemonSet ds) ∈ rest ∨ ds.Wants (nodesIn s) m)
  unbound : ∀ key ds k p, (key, .daemonSet ds) ∈ daemonSetsIn ns s → OwnsDaemonPod ns s' ds k p →
    p.nodeName = none → ∃ key' ds' m, (key', .daemonSet ds') ∈ rest ∧
      ds'.Wants (nodesIn s) m ∧ k = daemonPodKey ns ds' m
  present : ∀ key ds m, (key, .daemonSet ds) ∈ daemonSetsIn ns s → (key, .daemonSet ds) ∉ rest →
    ds.Wants (nodesIn s) m →
      ∃ p, OwnsDaemonPod ns s' ds (daemonPodKey ns ds m) p ∧ p.nodeName = some m

theorem daemonStage_start (hcontent : DaemonContent ns s) (hclear : DaemonsClear ns s) :
    DaemonStage ns s (daemonSetsIn ns s) s where
  bound key ds k p m hmem howns hm := by
    obtain ⟨m', hk, hnone | hsome⟩ := hcontent.homed key ds k p hmem howns
    · rw [hm] at hnone
      cases hnone
    · obtain rfl := Option.some_inj.mp (hm.symm.trans hsome)
      exact ⟨hk, Or.inl hmem⟩
  unbound key ds k p hmem howns hnone := hclear.unbound key ds k p hmem howns hnone
  present key ds m hmem hnot := absurd hmem hnot

/-- An entry that is no DaemonSet is passed over. -/
theorem DaemonStage.skip {e : String × Object} {rest : List (String × Object)}
    (he : e.2.asDaemonSet = none) (h : DaemonStage ns s (e :: rest) s') :
    DaemonStage ns s rest s' := by
  have hmem : ∀ {key ds}, (key, .daemonSet ds) ∈ e :: rest → (key, .daemonSet ds) ∈ rest := by
    intro key ds hin
    rcases List.mem_cons.mp hin with rfl | hin
    · cases he
    · exact hin
  constructor
  · intro key ds k p m hset howns hm
    obtain ⟨hk, hin⟩ := h.bound key ds k p m hset howns hm
    exact ⟨hk, hin.imp_left hmem⟩
  · intro key ds k p hset howns hnone
    obtain ⟨key', ds', m, hin, hwants, hk⟩ := h.unbound key ds k p hset howns hnone
    exact ⟨key', ds', m, hmem hin, hwants, hk⟩
  · intro key ds m hset hnot hwants
    exact h.present key ds m hset (fun hin => hnot (hmem hin)) hwants

/-- Whom a pod belongs to after a DaemonSet is done. -/
theorem Reconciled.owned_cases {s₁ s₂ : Registry} {key' : String} {ds' : DaemonSet} {p : Pod}
    (hcontent : DaemonContent ns s) (hset : (key, .daemonSet ds) ∈ daemonSetsIn ns s)
    (hdone : Reconciled ns (nodesIn s) key ds s₁ s₂)
    (hset' : (key', .daemonSet ds') ∈ daemonSetsIn ns s) (howns : OwnsDaemonPod ns s₂ ds' k p) :
    (ds' = ds ∧ ∃ m, IsMissing ns (nodesIn s) ds s₁ m ∧ k = daemonPodKey ns ds m ∧
      p.nodeName = some m) ∨
    OwnsDaemonPod ns s₁ ds' k p ∧ ¬IsStray ns (nodesIn s) ds s₁ k ∧
      ∀ m, IsMissing ns (nodesIn s) ds s₁ m → k ≠ daemonPodKey ns ds m := by
  rcases hdone.pod_cases (KeyValue.mem_scan.mp hset).2 howns.below howns.stored with
    ⟨node, id, now, hmissing, hk, rfl⟩ | ⟨hold, hstray, hnew⟩
  · have hid : ds.id = ds'.id := Option.some_inj.mp howns.owner
    obtain rfl := hcontent.ids _ _ _ _ hset hset' hid
    exact Or.inl ⟨daemonSetsIn_unique hset' hset, node.name, hmissing, hk, rfl⟩
  · exact Or.inr ⟨⟨hold, howns.below, howns.owner⟩, hstray, hnew⟩

/-- A pod that is wanted where it is, is not stray. -/
theorem DaemonStage.not_stray {rest : List (String × Object)} {s₁ : Registry}
    (h : DaemonStage ns s rest s₁) (hset : (key, .daemonSet ds) ∈ daemonSetsIn ns s)
    (hwants : ds.Wants (nodesIn s) m) :
    ¬IsStray ns (nodesIn s) ds s₁ (daemonPodKey ns ds m) := by
  rintro ⟨p, m', howns, hm', hnot⟩
  obtain ⟨hk, -⟩ := h.bound key ds _ p m' hset howns hm'
  rw [daemonPodKey_inj hk] at hwants
  exact hnot hwants

/-- **One DaemonSet more is complete**, and the others stay so. -/
theorem DaemonStage.step {rest : List (String × Object)} {s₁ s₂ : Registry}
    (hcontent : DaemonContent ns s) (hclear : DaemonsClear ns s)
    (hset : (key, .daemonSet ds) ∈ daemonSetsIn ns s)
    (hdone : Reconciled ns (nodesIn s) key ds s₁ s₂)
    (h : DaemonStage ns s ((key, .daemonSet ds) :: rest) s₁) : DaemonStage ns s rest s₂ := by
  have hkey := (KeyValue.mem_scan.mp hset).2
  constructor
  · intro key' ds' k p m hset' howns hm
    rcases hdone.owned_cases hcontent hset hset' howns with
      ⟨rfl, m', hmissing, hk, hm'⟩ | ⟨hold, hstray, -⟩
    · obtain rfl := Option.some_inj.mp (hm.symm.trans hm')
      exact ⟨hk, Or.inr hmissing.1⟩
    · obtain ⟨hk, hin⟩ := h.bound key' ds' k p m hset' hold hm
      refine ⟨hk, ?_⟩
      rcases hin with hin | hwants
      · rcases List.mem_cons.mp hin with heq | hin
        · obtain ⟨rfl, hds⟩ := Prod.mk.inj heq
          obtain rfl := Object.daemonSet.inj hds
          by_contra hnot
          exact hstray ⟨p, m, hold, hm, fun hwants => hnot (Or.inr hwants)⟩
        · exact Or.inl hin
      · exact Or.inr hwants
  · intro key' ds' k p hset' howns hnone
    rcases hdone.owned_cases hcontent hset hset' howns with
      ⟨-, m', -, -, hm'⟩ | ⟨hold, -, hnew⟩
    · rw [hnone] at hm'
      cases hm'
    · obtain ⟨key'', ds'', m, hin, hwants, rfl⟩ := h.unbound key' ds' k p hset' hold hnone
      rcases List.mem_cons.mp hin with heq | hin
      · -- Its place would have been given to a new pod.
        obtain ⟨rfl, hds⟩ := Prod.mk.inj heq
        obtain rfl := Object.daemonSet.inj hds
        refine absurd rfl (hnew m ⟨hwants, ?_⟩)
        rintro ⟨k, p', howns', hm'⟩
        obtain ⟨rfl, -⟩ := h.bound key'' ds'' k p' m hset howns' hm'
        rw [hold.unique howns', hm'] at hnone
        cases hnone
      · exact ⟨key'', ds'', m, hin, hwants, rfl⟩
  · intro key' ds' m hset' hnot hwants
    have hbelow := startsWith_daemonPodKey ns ds' m
    by_cases hown : (key', Object.daemonSet ds') = (key, .daemonSet ds)
    · obtain ⟨rfl, hds⟩ := Prod.mk.inj hown
      obtain rfl := Object.daemonSet.inj hds
      have hstray := h.not_stray hset hwants
      by_cases hmissing : IsMissing ns (nodesIn s) ds' s₁ m
      · obtain ⟨node, id, now, rfl, hlookup⟩ := hdone.created m hmissing hstray
        exact ⟨_, ⟨hlookup, hbelow, rfl⟩, rfl⟩
      · obtain ⟨k, p, howns, hm⟩ : ∃ k p, OwnsDaemonPod ns s₁ ds' k p ∧ p.nodeName = some m := by
          by_contra hnone
          exact hmissing ⟨hwants, hnone⟩
        obtain ⟨rfl, -⟩ := h.bound key' ds' k p m hset howns hm
        refine ⟨p, ⟨?_, hbelow, howns.owner⟩, hm⟩
        rw [hdone.other _ (ne_daemonSetKey hkey hbelow) hstray, howns.stored]
        intro m' hmissing' hk
        rw [daemonPodKey_inj hk] at hmissing
        exact hmissing hmissing'
    · have hnot' : (key', Object.daemonSet ds') ∉ (key, .daemonSet ds) :: rest := by
        intro hin
        rcases List.mem_cons.mp hin with heq | hin
        · exact hown heq
        · exact hnot hin
      have hother : key ≠ key' := by
        rintro rfl
        exact hown (by rw [daemonSetsIn_unique hset' hset])
      obtain ⟨p, howns, hm⟩ := h.present key' ds' m hset' hnot' hwants
      refine ⟨p, ⟨?_, hbelow, howns.owner⟩, hm⟩
      rw [hdone.other _ (ne_daemonSetKey hkey hbelow), howns.stored]
      · rintro ⟨p', m', howns', -⟩
        have hid : ds.id = ds'.id := by
          rw [← Option.some_inj, ← howns'.owner, howns'.unique howns, howns.owner]
        exact hother (hcontent.ids _ _ _ _ hset hset' hid)
      · intro m' hmissing' hk
        exact hother (hclear.names _ _ _ _ _ _ hset hset' hmissing'.1 hwants hk.symm)

/-- The end of a pass. -/
theorem daemonStage_afterDaemonSets (env : PassEnv) (hcontent : DaemonContent ns s)
    (hclear : DaemonsClear ns s) :
    DaemonStage ns s [] (afterDaemonSets env ns s) :=
  runs_daemonPass (J := DaemonStage ns s) (daemonStage_start hcontent hclear)
    (fun _ _ _ _ he h => h.skip he)
    (fun _ _ _ _ _ hsuffix hdone h =>
      h.step hcontent hclear (hsuffix.subset List.mem_cons_self) hdone) env

/-- What is complete is placed. -/
theorem DaemonStage.placed (h : DaemonStage ns s [] s') (hkeeps : KeepsSets ns s s') :
    DaemonsPlaced ns s' := by
  intro key ds' hset'
  obtain ⟨ds, st, hset, rfl⟩ := hkeeps.mem hset'
  rw [hkeeps.nodesIn_eq]
  constructor
  · intro m hwants
    obtain ⟨p, howns, hm⟩ := h.present key ds m hset List.not_mem_nil hwants
    refine ⟨(daemonPodKey ns ds m, p), ⟨⟨howns.stored, howns.below, howns.owner⟩, hm⟩, ?_⟩
    rintro ⟨k, p'⟩ ⟨howns', hm'⟩
    have hold : OwnsDaemonPod ns s' ds k p' := ⟨howns'.stored, howns'.below, howns'.owner⟩
    obtain ⟨rfl, -⟩ := h.bound key ds k p' m hset hold hm'
    rw [hold.unique howns]
  · intro k p howns'
    have howns : OwnsDaemonPod ns s' ds k p := ⟨howns'.stored, howns'.below, howns'.owner⟩
    cases hm : p.nodeName with
    | none =>
        obtain ⟨_, _, _, hin, -⟩ := h.unbound key ds k p hset howns hm
        cases hin
    | some m =>
        obtain ⟨-, hin | hwants⟩ := h.bound key ds k p m hset howns hm
        · cases hin
        · exact ⟨m, rfl, hwants⟩

/-- **Where the pods are placed, a pass changes none.** -/
theorem DaemonsPlaced.afterDaemonSets (h : DaemonsPlaced ns s) (env : PassEnv)
    (hk : startsWith k "/registry/pods/" = true) :
    (afterDaemonSets env ns s).lookup k = s.lookup k := by
  refine runs_daemonPass (J := fun _ s₁ => ∀ k, startsWith k "/registry/pods/" = true →
    s₁.lookup k = s.lookup k) (fun _ _ => rfl) (fun _ _ _ _ _ hJ => hJ) ?_ env k hk
  intro key ds rest s₁ s₂ hsuffix hdone hJ k hk
  have hset := hsuffix.subset List.mem_cons_self
  obtain ⟨hpresent, honly⟩ := h key ds hset
  have howned : ∀ {k p}, OwnsDaemonPod ns s₁ ds k p ↔ OwnsDaemonPod ns s ds k p := by
    intro k p
    constructor
    · intro howns
      have hsame := hJ k (isPodKey_of_listed howns.below)
      exact ⟨hsame ▸ howns.stored, howns.below, howns.owner⟩
    · intro howns
      have hsame := hJ k (isPodKey_of_listed howns.below)
      exact ⟨hsame.trans howns.stored, howns.below, howns.owner⟩
  rw [hdone.other k (ne_daemonSetKey_of_pod (KeyValue.mem_scan.mp hset).2 hk), hJ k hk]
  · rintro ⟨p, m, howns, hm, hnot⟩
    obtain ⟨m', hm', hwants⟩ := honly k p (howned.mp howns)
    obtain rfl := Option.some_inj.mp (hm.symm.trans hm')
    exact hnot hwants
  · rintro m ⟨hwants, hnone⟩
    obtain ⟨e, ⟨howns, hm⟩, -⟩ := hpresent m hwants
    exact absurd ⟨e.1, e.2, howned.mpr howns, hm⟩ hnone

/-! ## What has to be so -/

/-- The pods are where passes put them, after a pass too. -/
theorem homed_afterDaemonSets (env : PassEnv) (hcontent : DaemonContent ns s) {p : Pod}
    (hset : (key, .daemonSet ds) ∈ daemonSetsIn ns s)
    (howns : OwnsDaemonPod ns (afterDaemonSets env ns s) ds k p) : AtHome ns ds k p := by
  refine runs_daemonPass (J := fun _ s₁ => ∀ key ds k p,
    (key, Object.daemonSet ds) ∈ daemonSetsIn ns s → OwnsDaemonPod ns s₁ ds k p →
      AtHome ns ds k p) hcontent.homed (fun _ _ _ _ _ hJ => hJ) ?_ env key ds k p hset howns
  intro key' ds' rest s₁ s₂ hsuffix hdone hJ key ds k p hset howns
  rcases hdone.owned_cases hcontent (hsuffix.subset List.mem_cons_self) hset howns with
    ⟨rfl, m, -, hk, hm⟩ | ⟨hold, -, -⟩
  · exact ⟨m, hk, Or.inr hm⟩
  · exact hJ key ds k p hset hold

/-- A pod that has lost its node stays, if no pod of its name is to be there. -/
theorem unbound_afterDaemonSets (env : PassEnv) {p : Pod}
    (hlookup : s.lookup k = some (.pod p)) (hk : startsWith k (podPrefixOf ns) = true)
    (hnone : p.nodeName = none)
    (hfree : ∀ key ds m, (key, .daemonSet ds) ∈ daemonSetsIn ns s → ds.Wants (nodesIn s) m →
      k ≠ daemonPodKey ns ds m) :
    (afterDaemonSets env ns s).lookup k = some (.pod p) := by
  refine runs_daemonPass (J := fun _ s₁ => s₁.lookup k = some (.pod p)) hlookup
    (fun _ _ _ _ _ hJ => hJ) ?_ env
  intro key ds rest s₁ s₂ hsuffix hdone hJ
  have hset := hsuffix.subset List.mem_cons_self
  rw [hdone.other k (ne_daemonSetKey (KeyValue.mem_scan.mp hset).2 hk), hJ]
  · rintro ⟨p', m, howns, hm, -⟩
    obtain rfl := Object.pod.inj (Option.some_inj.mp (hJ.symm.trans howns.stored))
    rw [hnone] at hm
    cases hm
  · intro m hmissing
    exact hfree key ds m hset hmissing.1

/-- **A pass over the namespace places the pods** exactly when the condition holds. -/
theorem daemonsPlaced_afterDaemonSets_iff (env : PassEnv) (hcontent : DaemonContent ns s) :
    DaemonsPlaced ns (afterDaemonSets env ns s) ↔ DaemonsClear ns s := by
  have hkeeps := keepsSets_afterDaemonSets env ns s
  constructor
  · intro hplaced
    -- A DaemonSet has its pod on a node under the name of both.
    have hpod : ∀ {key ds m}, (key, .daemonSet ds) ∈ daemonSetsIn ns s →
        ds.Wants (nodesIn s) m →
          ∃ p, OwnsDaemonPod ns (afterDaemonSets env ns s) ds (daemonPodKey ns ds m) p := by
      intro key ds m hset hwants
      obtain ⟨st, hset'⟩ := hkeeps.mem' hset
      obtain ⟨⟨k, p⟩, ⟨howns', hm⟩, -⟩ :=
        (hplaced key _ hset').1 m (by rw [hkeeps.nodesIn_eq]; exact hwants)
      have howns : OwnsDaemonPod ns (afterDaemonSets env ns s) ds k p :=
        ⟨howns'.stored, howns'.below, howns'.owner⟩
      obtain ⟨m', rfl, hnone | hsome⟩ := homed_afterDaemonSets env hcontent hset howns
      · rw [hm] at hnone
        cases hnone
      · obtain rfl := Option.some_inj.mp (hm.symm.trans hsome)
        exact ⟨p, howns⟩
    constructor
    · intro key key' ds ds' m m' hset hset' hwants hwants' heq
      obtain ⟨p, howns⟩ := hpod hset hwants
      obtain ⟨p', howns'⟩ := hpod hset' hwants'
      rw [← heq] at howns'
      obtain rfl := howns.unique howns'
      exact hcontent.ids _ _ _ _ hset hset'
        (Option.some_inj.mp (howns.owner.symm.trans howns'.owner))
    · intro key ds k p hset howns hnone
      by_contra hfree
      have hstays := unbound_afterDaemonSets env howns.stored howns.below hnone
        fun key' ds' m hset' hwants hk => hfree ⟨key', ds', m, hset', hwants, hk⟩
      obtain ⟨st, hset'⟩ := hkeeps.mem' hset
      obtain ⟨m, hm, -⟩ := (hplaced key _ hset').2 k p ⟨hstays, howns.below, howns.owner⟩
      rw [hnone] at hm
      cases hm
  · exact fun hclear => (daemonStage_afterDaemonSets env hcontent hclear).placed hkeeps

end K3rs
