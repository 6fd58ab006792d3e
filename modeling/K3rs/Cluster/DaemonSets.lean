import K3rs.Cluster.Jobs

/-!
# The DaemonSet controller

A pass of `DaemonSetController` gives every eligible node a pod of each DaemonSet and removes the
pods on nodes that are not eligible any more.  It does not ask the scheduler: a pod is bound to
its node when it is created.
-/

namespace K3rs

open Programs

/-- Where the DaemonSets of a namespace are. -/
def daemonSetPrefixOf (ns : String) : String := "/registry/daemonsets/" ++ ns ++ "/"

/-- The node is ready and has the labels that are asked for. -/
def DaemonSet.selects (ds : DaemonSet) (node : Node) : Bool :=
  decide (node.status = .ready) &&
    ds.spec.nodeSelector.all fun label => decide (node.labels.lookup label.1 = some label.2)

/-- The pod of a DaemonSet on a node. -/
def newDaemonPod (id : String) (now : DateTime) (ns : String) (ds : DaemonSet) (node : Node) :
    Pod where
  id := id
  name := ds.name ++ "-" ++ node.name
  ns := ns
  spec := ds.spec.template
  status := .scheduled
  statusMessage := none
  containerId := none
  nodeName := some node.name
  labels := ds.spec.nodeSelector
  ownerRef := some ds.id
  restartCount := 0
  runtimeInfo := none
  ghostIpv6 := none
  vpcName := none
  createdAt := now

/-- `create_pod_on_node`, for the DaemonSet under `key` and the `i`-th node. -/
def createPodOnNode (env : PassEnv) (ns key : String) (ds : DaemonSet) (node : Node) (i : ℕ) :
    Program Unit :=
  let p := newDaemonPod (env.uuid key i) (env.now key i) ns ds node
  Prog.put (podKey ns p.name) (.pod p)

/-- The nodes that have a pod already. -/
def nodesWithPods (pods : List (String × Pod)) : List String :=
  pods.filterMap fun e => e.2.nodeName

/-- The pods on nodes that are not eligible any more. -/
def strayPods (eligible : List Node) (pods : List (String × Pod)) : List (String × Pod) :=
  pods.filter fun e =>
    match e.2.nodeName with
    | some nodeName => !(eligible.any fun n => decide (n.name = nodeName))
    | none => false

/-- The status of a DaemonSet, of its pods before the pass and the number of pods it created. -/
def daemonSetStatus (eligible : List Node) (pods : List (String × Pod)) (created : ℕ) :
    DaemonSetStatus :=
  let ready := pods.filter fun e =>
    (decide (e.2.status = .running) || decide (e.2.status = .scheduled)) &&
      e.2.nodeName.any fun nodeName => eligible.any fun n => decide (n.name = nodeName)
  let desired := UInt32.ofNat eligible.length
  ⟨desired, desired, min (UInt32.ofNat ready.length + UInt32.ofNat created) desired⟩

/-- A pass over one listed DaemonSet. -/
def reconcileDaemonSet (env : PassEnv) (ns : String) (nodes : List Node)
    (entry : String × Object) : Program Unit :=
  match entry.2.asDaemonSet with
  | none => pure ()
  | some ds => do
      let eligible := nodes.filter ds.selects
      let podEntries ← listPrefix (podPrefixOf ns)
      let owned := ownedPods ds.id podEntries
      let missing := eligible.filter fun n => !((nodesWithPods owned).contains n.name)
      Prog.forEach (fun e : Node × ℕ => createPodOnNode env ns entry.1 ds e.1 e.2) missing.zipIdx
      Prog.forEach (fun e => Prog.delete e.1) (strayPods eligible owned)
      Prog.put entry.1
        (.daemonSet { ds with status := daemonSetStatus eligible owned missing.length })

/-- `DaemonSetController::reconcile_namespace`. -/
def reconcileDaemonSetNamespace (env : PassEnv) (ns : String) : Program Unit := do
  let nodeEntries ← listPrefix "/registry/nodes/"
  let nodes := nodeEntries.filterMap fun e => e.2.asNode
  let dsEntries ← listPrefix (daemonSetPrefixOf ns)
  Prog.forEach (reconcileDaemonSet env ns nodes) dsEntries

/-- `DaemonSetController::reconcile`. -/
def reconcileDaemonSets (env : PassEnv) : Program Unit :=
  reconcileNamespaces (reconcileDaemonSetNamespace env)

/-! ## What a pass can do -/

/-- The operations of a pass, given what it has seen. -/
inductive DaemonSetOp (seen : Seen String Object) : Op String Object → Prop where
  | list (p : String → Bool) : DaemonSetOp seen (.list p)
  | status (k : String) (ds : DaemonSet) : DaemonSetOp seen (.put k (.daemonSet ds))
  /-- A new pod. -/
  | create (ns key id : String) (now : DateTime) (ds : DaemonSet) (node : Node)
      (hseen : seen.Ever key (.daemonSet ds)) (hnode : NodesSeen [node] seen) :
      DaemonSetOp seen (.put (podKey ns (newDaemonPod id now ns ds node).name)
        (.pod (newDaemonPod id now ns ds node)))
  /-- A pod on a node that is not eligible any more. -/
  | delete (k : String) : DaemonSetOp seen (.delete k)

theorem reconcileDaemonSet_ops {env : PassEnv} {ns : String} {nodes : List Node}
    {entries : List (String × Object)} {seen : Seen String Object} {e : String × Object}
    (he : e ∈ entries) (h : Shown nodes entries seen) :
    (reconcileDaemonSet env ns nodes e).Meets DaemonSetOp (fun _ s => Shown nodes entries s) seen := by
  rw [reconcileDaemonSet]
  cases hds : e.2.asDaemonSet with
  | none => exact h
  | some ds =>
      have hmem : (e.1, Object.daemonSet ds) ∈ entries := Object.asDaemonSet_eq_some.mp hds ▸ he
      refine Prog.Meets.seq (Prog.Meets.list (.list _) (fun listed _ _ => h.listing _ listed)
        fun _ => h) fun listed s hs => ?_
      refine Prog.Meets.seq (Prog.Meets.loop (fun x hx s hs => ?_) hs) fun _ s hs => ?_
      · have hnode : x.1 ∈ nodes :=
          List.mem_of_mem_filter (List.mem_of_mem_filter (List.fst_mem_of_mem_zipIdx hx))
        refine Prog.Meets.put (.create ns e.1 _ _ ds x.1 (hs.2 _ hmem) ?_) (hs.note _ _) fun _ => hs
        rintro node hmem
        obtain rfl := List.mem_singleton.mp hmem
        exact hs.1 _ hnode
      · refine Prog.Meets.seq (Prog.Meets.loop (fun x _ s hs => ?_) hs) fun _ s hs => ?_
        · exact Prog.Meets.delete (.delete _) (hs.note _ _) fun _ => hs
        · exact Prog.Meets.put (.status _ _) (hs.note _ _) fun _ => hs

/-- **What a pass of the DaemonSet controller can do.** -/
theorem reconcileDaemonSets_ops (env : PassEnv) (seen : Seen String Object) :
    (reconcileDaemonSets env).Meets DaemonSetOp (fun _ _ => True) seen := by
  refine reconcileNamespaces_meets (fun _ p => .list p) (fun ns s => ?_) seen
  refine Prog.Meets.bind (Prog.Meets.list (.list _) (fun nodeEntries hp hnodup => ?_)
    fun _ => trivial)
  refine Prog.Meets.bind (Prog.Meets.list (.list _) (fun entries hp' hnodup' => ?_) fun _ => trivial)
  have hnodes := nodesSeen_listing s (p := fun k => startsWith k "/registry/nodes/") hp hnodup
  refine Prog.Meets.mono (fun _ _ _ => trivial) (Prog.Meets.loop
    (fun e he s hs => reconcileDaemonSet_ops he hs) ⟨hnodes.grows (Seen.grows_listing
      (D := fun _ => True) _ (fun _ _ => trivial) entries), fun e he => ?_⟩)
  exact Seen.Ever.of_last (Seen.last_listing _ hp' hnodup' he)

end K3rs
