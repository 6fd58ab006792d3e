import K3rs.Cluster.Deployments

/-!
# The ReplicaSet controller

A pass of `ReplicaSetController` goes through the ReplicaSets it has listed.  For each it lists
the pods, creates the missing ones or deletes the newest of those that are too many, lists the
pods again for the status, and puts back the ReplicaSet as it was listed, with the new status.

`reconcileReplicaSets_ops` says what such a pass can do, given what it has seen: put the status of
a ReplicaSet it saw last, create a pod of a ReplicaSet it has seen and place it on a node it has
seen, or delete a pod it has seen of a ReplicaSet it has seen.
-/

namespace K3rs

open Programs

/-! ## Pods -/

/-- Where the pods of a namespace are. -/
def podPrefixOf (ns : String) : String := "/registry/pods/" ++ ns ++ "/"

/-- The key of a pod. -/
def podKey (ns name : String) : String := podPrefixOf ns ++ name

/-- The pods of a listing that an owner has. -/
def ownedPods (id : String) (entries : List (String × Object)) : List (String × Pod) :=
  entries.filterMap fun e => do
    let p ← e.2.asPod
    if p.ownerRef = some id then some (e.1, p) else none

/-- A pod of a ReplicaSet, before it is scheduled. -/
def newPod (id : String) (now : DateTime) (ns : String) (rs : ReplicaSet) : Pod where
  id := id
  name := rs.name ++ "-" ++ String.ofList (id.toList.take 8)
  ns := ns
  spec := rs.spec.template
  status := .pending
  statusMessage := none
  containerId := none
  nodeName := none
  labels := rs.spec.selector
  ownerRef := some rs.id
  restartCount := 0
  runtimeInfo := none
  ghostIpv6 := none
  vpcName := none
  createdAt := now

/-- A pod on the node that the scheduler has found for it. -/
def Pod.assign (p : Pod) : Option String → Pod
  | some nodeName => { p with nodeName := some nodeName, status := .scheduled }
  | none => p

/-- A new pod on one of the nodes, or waiting. -/
def Pod.place (env : PassEnv) (nodes : List Node) (p : Pod) : Pod := p.assign (env.schedule p nodes)

/-- `create_pod`, for the ReplicaSet under `key`. -/
def createPod (env : PassEnv) (ns key : String) (rs : ReplicaSet) (nodes : List Node) (i : ℕ) :
    Program Unit :=
  let p := newPod (env.uuid key i) (env.now key i) ns rs
  let p := p.place env nodes
  Prog.put (podKey ns p.name) (.pod p)

/-! ## Passes -/

/-- The number of pods of a ReplicaSet, as the pass counts them. -/
def currentCount (rs : ReplicaSet) (podEntries : List (String × Object)) : UInt32 :=
  UInt32.ofNat (ownedPods rs.id podEntries).length

/-- The newest pods first. -/
def newestFirst (pods : List (String × Pod)) : List (String × Pod) :=
  pods.mergeSort fun a b => decide (b.2.createdAt ≤ a.2.createdAt)

/-- Create the missing pods, or delete those that are too many. -/
def scalePods (env : PassEnv) (ns key : String) (rs : ReplicaSet) (nodes : List Node)
    (podEntries : List (String × Object)) : Program Unit :=
  let count := currentCount rs podEntries
  if count < rs.spec.replicas then
    Prog.forEach (createPod env ns key rs nodes) (List.range (rs.spec.replicas - count).toNat)
  else if rs.spec.replicas < count then
    Prog.forEach (fun e => Prog.delete e.1)
      ((newestFirst (ownedPods rs.id podEntries)).take (count - rs.spec.replicas).toNat)
  else pure ()

/-- The status of a ReplicaSet, of its pods. -/
def replicaSetStatus (id : String) (podEntries : List (String × Object)) : ReplicaSetStatus :=
  (ownedPods id podEntries).foldl (fun status e =>
    { replicas := status.replicas + 1
      readyReplicas :=
        if e.2.status = .running ∨ e.2.status = .scheduled then status.readyReplicas + 1
        else status.readyReplicas
      availableReplicas :=
        if e.2.status = .running then status.availableReplicas + 1 else status.availableReplicas })
    ⟨0, 0, 0⟩

/-- A pass over one listed ReplicaSet. -/
def reconcileReplicaSet (env : PassEnv) (ns : String) (nodes : List Node)
    (entry : String × Object) : Program Unit :=
  match entry.2.asReplicaSet with
  | none => pure ()
  | some rs => do
      let podEntries ← listPrefix (podPrefixOf ns)
      scalePods env ns entry.1 rs nodes podEntries
      let podEntries ← listPrefix (podPrefixOf ns)
      Prog.put entry.1 (.replicaSet { rs with status := replicaSetStatus rs.id podEntries })

/-- `ReplicaSetController::reconcile_namespace`. -/
def reconcileReplicaSetNamespace (env : PassEnv) (ns : String) : Program Unit := do
  let rsEntries ← listPrefix (replicaSetPrefixOf ns)
  let nodeEntries ← listPrefix "/registry/nodes/"
  let nodes := nodeEntries.filterMap fun e => e.2.asNode
  Prog.forEach (reconcileReplicaSet env ns nodes) rsEntries

/-- `ReplicaSetController::reconcile`. -/
def reconcileReplicaSets (env : PassEnv) : Program Unit :=
  reconcileNamespaces (reconcileReplicaSetNamespace env)

/-! ## What a pass can do -/

/-- A key below the pods. -/
def IsPodKey (k : String) : Prop := startsWith k "/registry/pods/" = true

/-- The program has been shown the nodes. -/
def NodesSeen (nodes : List Node) (seen : Seen String Object) : Prop :=
  ∀ node ∈ nodes, ∃ k, seen.Ever k (.node node)

/-- The operations of a pass, given what it has seen. -/
inductive ReplicaSetOp (env : PassEnv) (seen : Seen String Object) : Op String Object → Prop where
  | list (p : String → Bool) : ReplicaSetOp env seen (.list p)
  /-- The status of a ReplicaSet it saw last. -/
  | status (k : String) (rs : ReplicaSet) (status : ReplicaSetStatus)
      (hseen : seen.last k = some (.replicaSet rs)) :
      ReplicaSetOp env seen (.put k (.replicaSet { rs with status := status }))
  /-- A new pod. -/
  | create (ns key id : String) (now : DateTime) (rs : ReplicaSet) (nodes : List Node)
      (hseen : seen.Ever key (.replicaSet rs)) (hnodes : NodesSeen nodes seen) :
      ReplicaSetOp env seen (.put (podKey ns ((newPod id now ns rs).place env nodes).name)
        (.pod ((newPod id now ns rs).place env nodes)))
  /-- A pod that is too many. -/
  | delete (k key : String) (rs : ReplicaSet) (p : Pod) (hkey : IsPodKey k)
      (hpod : seen.Ever k (.pod p)) (hseen : seen.Ever key (.replicaSet rs))
      (howner : p.ownerRef = some rs.id) : ReplicaSetOp env seen (.delete k)

/-- The operations of a pass, as far as they concern owners. -/
inductive ReplicaSetWrite (seen : Seen String Object) : Op String Object → Prop where
  | list (p : String → Bool) : ReplicaSetWrite seen (.list p)
  /-- The status of a ReplicaSet it saw last. -/
  | status (k : String) (rs : ReplicaSet) (status : ReplicaSetStatus)
      (hseen : seen.last k = some (.replicaSet rs)) :
      ReplicaSetWrite seen (.put k (.replicaSet { rs with status := status }))
  /-- A new pod. -/
  | create (k key : String) (rs : ReplicaSet) (p : Pod) (hseen : seen.Ever key (.replicaSet rs))
      (howner : p.ownerRef = some rs.id) : ReplicaSetWrite seen (.put k (.pod p))
  /-- A pod that is too many. -/
  | delete (k key : String) (rs : ReplicaSet) (p : Pod) (hkey : IsPodKey k)
      (hpod : seen.Ever k (.pod p)) (hseen : seen.Ever key (.replicaSet rs))
      (howner : p.ownerRef = some rs.id) : ReplicaSetWrite seen (.delete k)

theorem startsWith_podPrefixOf (ns : String) : startsWith (podPrefixOf ns) "/registry/pods/" = true :=
  startsWith_append_left (startsWith_append _ _) _

theorem isPodKey_key (ns name : String) : IsPodKey (podKey ns name) :=
  startsWith_append_left (startsWith_podPrefixOf ns) name

theorem isPodKey_of_listed {ns k : String} (h : startsWith k (podPrefixOf ns) = true) : IsPodKey k :=
  startsWith_trans h (startsWith_podPrefixOf ns)

theorem not_isPodKey_of_replicaSet {k ns : String}
    (h : startsWith k (replicaSetPrefixOf ns) = true) : ¬IsPodKey k := by
  rw [IsPodKey, not_startsWith_of_startsWith (isReplicaSetKey_of_listed h) (by decide) (by decide)]
  exact Bool.false_ne_true

theorem mem_ownedPods {id : String} {entries : List (String × Object)} {e : String × Pod} :
    e ∈ ownedPods id entries ↔ (e.1, .pod e.2) ∈ entries ∧ e.2.ownerRef = some id := by
  rw [ownedPods, List.mem_filterMap]
  constructor
  · rintro ⟨⟨k, v⟩, hmem, hpod⟩
    obtain ⟨p, hv, hif⟩ := Option.bind_eq_some_iff.mp hpod
    obtain rfl := Object.asPod_eq_some.mp hv
    split_ifs at hif with howner
    obtain rfl := Option.some_inj.mp hif
    exact ⟨hmem, howner⟩
  · rintro ⟨hmem, howner⟩
    refine ⟨_, hmem, Option.bind_eq_some_iff.mpr ⟨e.2, rfl, ?_⟩⟩
    rw [if_pos howner]

theorem Pod.ownerRef_assign (p : Pod) (node : Option String) : (p.assign node).ownerRef = p.ownerRef := by
  cases node <;> rfl

theorem Pod.spec_assign (p : Pod) (node : Option String) : (p.assign node).spec = p.spec := by
  cases node <;> rfl

theorem Pod.ownerRef_place (env : PassEnv) (nodes : List Node) (p : Pod) :
    (p.place env nodes).ownerRef = p.ownerRef := p.ownerRef_assign _

theorem NodesSeen.grows {D : String → Prop} {nodes : List Node} {seen seen' : Seen String Object}
    (h : NodesSeen nodes seen) (hgrows : Seen.Grows D seen seen') : NodesSeen nodes seen' := by
  intro node hnode
  obtain ⟨k, hk⟩ := h node hnode
  exact ⟨k, hgrows.ever hk⟩

/-- The nodes of a listing have been seen. -/
theorem nodesSeen_listing {entries : List (String × Object)} (seen : Seen String Object)
    {p : String → Bool} (hp : ∀ e ∈ entries, p e.1 = true) (hnodup : (entries.map Prod.fst).Nodup) :
    NodesSeen (entries.filterMap fun e => e.2.asNode) (seen.listing p entries) := by
  intro node hnode
  obtain ⟨e, he, hnode⟩ := List.mem_filterMap.mp hnode
  refine ⟨e.1, Seen.Ever.of_last ?_⟩
  rw [Seen.last_listing seen hp hnodup he, Object.asNode_eq_some.mp hnode]

section Pass

variable {env : PassEnv} {nodes : List Node}

theorem scalePods_ops {ns key : String} {rs : ReplicaSet}
    {podEntries : List (String × Object)} {seen : Seen String Object}
    (hrs : seen.Ever key (.replicaSet rs)) (hnodes : NodesSeen nodes seen)
    (hpods : ∀ e ∈ ownedPods rs.id podEntries, seen.Ever e.1 (.pod e.2) ∧ IsPodKey e.1) :
    (scalePods env ns key rs nodes podEntries).Meets (ReplicaSetOp env)
      (fun _ s => Seen.Grows IsPodKey seen s) seen := by
  have hrefl := Seen.Grows.refl IsPodKey seen
  simp only [scalePods]
  split_ifs
  · refine Prog.Meets.loop (fun i _ s hs => ?_) hrefl
    exact Prog.Meets.put (.create ns key _ _ rs nodes (hs.ever hrs) (hnodes.grows hs))
      (hs.trans (Seen.grows_note s (isPodKey_key ns _) _)) fun _ => hs
  · refine Prog.Meets.loop (fun e he s hs => ?_) hrefl
    have hmem : e ∈ ownedPods rs.id podEntries :=
      List.mem_mergeSort.mp (List.mem_of_mem_take he)
    obtain ⟨hseen, hkey⟩ := hpods e hmem
    exact Prog.Meets.delete
      (.delete _ key rs e.2 hkey (hs.ever hseen) (hs.ever hrs) (mem_ownedPods.mp hmem).2)
      (hs.trans (Seen.grows_note s hkey _)) fun _ => hs
  · exact hrefl

/-- What is known when some listed ReplicaSets remain. -/
def Remaining (nodes : List Node) (rest : List (String × Object)) (seen : Seen String Object) : Prop :=
  Pending IsPodKey rest seen ∧ NodesSeen nodes seen

theorem reconcileReplicaSet_ops (ns : String)
    (e : String × Object) (rest : List (String × Object)) (seen : Seen String Object)
    (h : Remaining nodes (e :: rest) seen) :
    (reconcileReplicaSet env ns nodes e).Meets (ReplicaSetOp env) (fun r s =>
      match r with
      | .ok _ => Remaining nodes rest s
      | .error _ => True) seen := by
  obtain ⟨hpending, hnodes⟩ := h
  obtain ⟨hlast, hkey⟩ := hpending.1 e List.mem_cons_self
  have hlists : ∀ k, startsWith k (podPrefixOf ns) = true → IsPodKey k :=
    fun k hk => isPodKey_of_listed hk
  rw [reconcileReplicaSet]
  cases hrs : e.2.asReplicaSet with
  | none => exact ⟨hpending.tail, hnodes⟩
  | some rs =>
      rw [Object.asReplicaSet_eq_some.mp hrs] at hlast
      refine Prog.Meets.bind (Prog.Meets.list (.list _) (fun entries hp hnodup => ?_) fun _ => trivial)
      have hgrows₁ := Seen.grows_listing seen hlists entries
      have hpods : ∀ p ∈ ownedPods rs.id entries,
          (seen.listing (fun k => startsWith k (podPrefixOf ns)) entries).Ever p.1 (.pod p.2) ∧
            IsPodKey p.1 := fun p hpod => by
        obtain ⟨hmem, -⟩ := mem_ownedPods.mp hpod
        have hlisted := Seen.last_listing seen (p := fun k => startsWith k (podPrefixOf ns)) hp hnodup
          hmem
        exact ⟨Seen.Ever.of_last hlisted, hlists _ (hp _ hmem)⟩
      refine Prog.Meets.bind ((scalePods_ops (hgrows₁.ever (Seen.Ever.of_last hlast))
        (hnodes.grows hgrows₁) hpods).mono fun r s hgrows₂ => ?_)
      cases r with
      | error e => trivial
      | ok u =>
          refine Prog.Meets.bind
            (Prog.Meets.list (.list _) (fun entries' _ _ => ?_) fun _ => trivial)
          have hgrows := (hgrows₁.trans hgrows₂).trans (Seen.grows_listing s hlists entries')
          refine Prog.Meets.put (.status _ rs _ ?_) ⟨hpending.put hgrows _, ?_⟩ fun _ => trivial
          · rw [hgrows.last hkey]
            exact hlast
          · exact (hnodes.grows hgrows).grows (Seen.grows_note (D := fun _ => True) _ trivial _)

/-- **What a pass of the ReplicaSet controller can do.** -/
theorem reconcileReplicaSets_ops (env : PassEnv) (seen : Seen String Object) :
    (reconcileReplicaSets env).Meets (ReplicaSetOp env) (fun _ _ => True) seen := by
  refine reconcileNamespaces_meets (fun _ p => .list p) (fun ns s => ?_) seen
  refine Prog.Meets.bind (Prog.Meets.list (.list _) (fun entries hp hnodup => ?_) fun _ => trivial)
  refine Prog.Meets.bind (Prog.Meets.list (.list _) (fun nodeEntries hp' hnodup' => ?_)
    fun _ => trivial)
  have hkeys : ∀ k, startsWith k (replicaSetPrefixOf ns) = true → ¬IsPodKey k :=
    fun k hk => not_isPodKey_of_replicaSet hk
  have hpending := pending_listing s hp hnodup hkeys
  have hoff : ∀ e ∈ entries, startsWith e.1 "/registry/nodes/" = false := fun e he =>
    not_startsWith_of_startsWith (isReplicaSetKey_of_listed (hp e he)) (by decide) (by decide)
  exact Prog.Meets.mono (fun _ _ _ => trivial) (Prog.Meets.forEach (Remaining _)
    (fun _ => True) (reconcileReplicaSet_ops ns)
    ⟨hpending.listing hoff nodeEntries, nodesSeen_listing _ hp' hnodup'⟩)

end Pass

/-- What that means for owners. -/
theorem ReplicaSetOp.write {env : PassEnv} {seen : Seen String Object} {o : Op String Object}
    (h : ReplicaSetOp env seen o) : ReplicaSetWrite seen o := by
  cases h with
  | list p => exact .list p
  | status k rs status hseen => exact .status k rs status hseen
  | create ns key id now rs nodes hseen hnodes =>
      exact .create _ key rs _ hseen (Pod.ownerRef_place env nodes _)
  | delete k key rs p hkey hpod hseen howner => exact .delete k key rs p hkey hpod hseen howner

theorem reconcileReplicaSets_meets (env : PassEnv) (seen : Seen String Object) :
    (reconcileReplicaSets env).Meets ReplicaSetWrite (fun _ _ => True) seen :=
  (reconcileReplicaSets_ops env seen).imp fun _ _ h => h.write

end K3rs
