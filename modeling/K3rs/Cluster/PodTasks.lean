import K3rs.Cluster.Cordon
import K3rs.Cluster.Pods

/-!
# Writers of pods

Everything that writes pods, and the writers of VPCs and nodes beside them, as the tasks of a pool:
a task is one request, one report of an agent or one pass of a controller, and between any two of
its operations the other tasks may act.

`PodTask.code_ops` says what a task can do, given what it has seen.  Whoever puts a pod creates it,
evicts it, or updates it, and an eviction or an update is of a pod that the task saw last
(`PodTask.put_cases`).
-/

namespace K3rs

open Programs

/-! ## Tasks -/

/-- A request, a report or a pass. -/
inductive PodTask where
  | createPod (scheduler : Option Scheduler) (ns id : String) (now : DateTime) (body : Pod)
  | deletePod (ns podName : String)
  | replicaSets (env : PassEnv)
  | jobs (env : PassEnv)
  | daemonSets (env : PassEnv)
  | drain (nodeName : String)
  | evictions (now : DateTime)
  | reportStatus (nodeName ns podName : String) (status : PodStatus)
  | reportVpc (nodeName ns podName ghostIpv6 vpcName : String)
  | deleteVpc (name : String)
  | createVpc (vpc : VpcRecord) (now : ℤ)
  | vpcs
  | heartbeat (nodeName : String) (now : DateTime)
  | register (joinToken : String) (issued : Bool) (id : String) (now : DateTime)
      (payload : NodeRegistrationRequest)
  /-- A write of any other request or pass: not of a pod. -/
  | write (k : String) (v : Object) (hv : v.asPod = none)
  /-- A removal by any other request or pass. -/
  | remove (k : String)

namespace PodTask

/-- What a task does; what it answers is left out. -/
def code : PodTask → Program Unit
  | createPod scheduler ns id now body => do let _ ← Api.createPod scheduler ns id now body
  | deletePod ns podName => do let _ ← Api.deletePod ns podName
  | replicaSets env => reconcileReplicaSets env
  | jobs env => reconcileJobs env
  | daemonSets env => reconcileDaemonSets env
  | drain nodeName => do let _ ← drainNode nodeName
  | evictions now => reconcileEvictions now
  | reportStatus nodeName ns podName status =>
      agentRequest nodeName ns podName (Api.updatePodStatus ns podName status)
  | reportVpc nodeName ns podName ghostIpv6 vpcName =>
      agentRequest nodeName ns podName (Api.updatePodVpc ns podName ghostIpv6 vpcName)
  | deleteVpc name => do let _ ← Api.deleteVpc name
  | createVpc vpc now => do let _ ← Api.createVpc vpc now
  | vpcs => reconcileVpcs
  | heartbeat nodeName now => do let _ ← nodeHeartbeat nodeName now
  | register joinToken issued id now payload => do
      let _ ← registerNode joinToken issued id now payload
  | write k v _ => Prog.put k v
  | remove k => Prog.delete k

end PodTask

/-! ## What they can do -/

/-- An operation that reads. -/
def Op.Reads : Op String Object → Prop
  | .get _ => True
  | .list _ => True
  | _ => False

/-- Where a pod of `create_pod` is put. -/
def Placed (scheduler : Option Scheduler) (pod : Pod) (seen : Seen String Object)
    (node : Option String) : Prop :=
  node = none ∨ ∃ schedule nodes, scheduler = some schedule ∧ NodesSeen nodes seen ∧
    node = schedule pod nodes

/-- The operations of `create_pod`. -/
inductive CreateOp (scheduler : Option Scheduler) (pod : Pod) (seen : Seen String Object) :
    Op String Object → Prop where
  | read (o : Op String Object) (ho : Op.Reads o) : CreateOp scheduler pod seen o
  /-- The new pod; if it has seen the VPC, that was active. -/
  | create (node : Option String) (hnode : Placed scheduler pod seen node)
      (hvpc : ∀ vpc, seen.Ever (vpcKey pod.spec.vpcName) (.vpc vpc) → vpc.status = .active) :
      CreateOp scheduler pod seen
        (.put (podKey pod.ns (pod.assign node).name) (.pod (pod.assign node)))

/-- The operations of an update of a pod. -/
inductive UpdateOp (change : Pod → Pod) (seen : Seen String Object) : Op String Object → Prop where
  | read (o : Op String Object) (ho : Op.Reads o) : UpdateOp change seen o
  /-- The pod that it saw last, changed. -/
  | update (k : String) (p : Pod) (hseen : seen.last k = some (.pod p)) :
      UpdateOp change seen (.put k (.pod (change p)))

/-- The operations of those who evict pods that pass a test. -/
inductive EvictOp (test : Pod → Prop) (seen : Seen String Object) : Op String Object → Prop where
  | read (o : Op String Object) (ho : Op.Reads o) : EvictOp test seen o
  | node (k : String) (n : Node) : EvictOp test seen (.put k (.node n))
  /-- A pod that it saw last. -/
  | evict (k : String) (p : Pod) (hseen : seen.last k = some (.pod p)) (hp : test p) :
      EvictOp test seen (.put k (.pod p.evicted))

/-- The operations of those who write nodes. -/
inductive NodeOp (seen : Seen String Object) : Op String Object → Prop where
  | read (o : Op String Object) (ho : Op.Reads o) : NodeOp seen o
  /-- A node that it saw last, with the same name and resources. -/
  | keep (k : String) (node node' : Node) (hseen : seen.last k = some (.node node))
      (hsame : node'.name = node.name ∧ node'.capacity = node.capacity ∧
        node'.allocated = node.allocated) : NodeOp seen (.put k (.node node'))
  /-- A node that is new. -/
  | create (node : Node) : NodeOp seen (.put (nodeKey node.name) (.node node))

/-- The operations of those who write something else. -/
inductive OtherOp : Op String Object → Prop where
  | read (o : Op String Object) (ho : Op.Reads o) : OtherOp o
  | put (k : String) (v : Object) (hv : v.asPod = none) : OtherOp (.put k v)

theorem not_nodeOp_pod {seen : Seen String Object} {k : String} {p : Pod} :
    ¬NodeOp seen (.put k (.pod p)) := by
  intro h
  cases h with
  | read ho => exact absurd ‹_› not_false

theorem not_otherOp_pod {k : String} {p : Pod} : ¬OtherOp (.put k (.pod p)) := by
  intro h
  cases h with
  | read ho => exact absurd ‹_› not_false
  | put _ _ hv => exact nomatch hv

namespace PodTask

/-- The operations of a task, given what it has seen. -/
def Does : PodTask → Seen String Object → Op String Object → Prop
  | createPod scheduler ns id now body => CreateOp scheduler (Api.requestedPod ns id now body)
  | deletePod _ _ => fun _ o => ∃ k, o = .delete k
  | replicaSets env => ReplicaSetOp env
  | jobs env => JobOp env
  | daemonSets _ => DaemonSetOp
  | drain nodeName => EvictOp fun p => p.nodeName = some nodeName
  | evictions _ => EvictOp fun p => p.status ≠ .succeeded ∧ p.status ≠ .failed
  | reportStatus _ _ _ status => UpdateOp fun p => { p with status := status }
  | reportVpc _ _ _ ghostIpv6 vpcName =>
      UpdateOp fun p => { p with ghostIpv6 := some ghostIpv6, vpcName := some vpcName }
  | deleteVpc _ => fun _ => OtherOp
  | createVpc _ _ => fun _ => OtherOp
  | vpcs => fun _ => OtherOp
  | heartbeat _ _ => NodeOp
  | register _ _ _ _ _ => NodeOp
  | write _ _ _ => fun _ => OtherOp
  | remove _ => fun _ o => ∃ k, o = .delete k

end PodTask

/-! ## Requests -/

section Requests

variable {seen : Seen String Object}

theorem placePod_ops {scheduler : Option Scheduler} {pod : Pod}
    {Q : Except String Pod → Seen String Object → Prop}
    (hdone : ∀ node s, Placed scheduler pod s node →
      (∀ vpc, s.Ever (vpcKey pod.spec.vpcName) (.vpc vpc) →
        seen.Ever (vpcKey pod.spec.vpcName) (.vpc vpc)) → Q (.ok (pod.assign node)) s) :
    (Api.placePod scheduler pod).Meets (CreateOp scheduler pod) Q seen := by
  cases scheduler with
  | none => exact hdone none seen (Or.inl rfl) fun _ h => h
  | some schedule =>
      refine Prog.Meets.bind (Prog.Meets.list (.read _ trivial) (fun entries hp hnodup => ?_)
        fun e => ?_).attempt
      · refine hdone _ _ (Or.inr ⟨schedule, _, rfl, nodesSeen_listing seen hp hnodup, rfl⟩) ?_
        -- The listing is not of VPCs.
        intro vpc hvpc
        have hkey : startsWith (vpcKey pod.spec.vpcName) "/registry/nodes/" = false :=
          not_startsWith_of_startsWith (startsWith_append _ _) (by decide) (by decide)
        rw [Seen.Ever, Seen.listing, if_neg (by simp [hkey])] at hvpc
        exact hvpc
      · exact hdone _ _ (Or.inr ⟨schedule, [], rfl, fun _ h => absurd h List.not_mem_nil, rfl⟩)
          fun _ h => h

theorem createPod_ops (scheduler : Option Scheduler) (ns id : String) (now : DateTime) (body : Pod) :
    (Api.createPod scheduler ns id now body).Meets
      (CreateOp scheduler (Api.requestedPod ns id now body)) (fun _ _ => True) Seen.empty := by
  have hstore : ∀ s : Seen String Object,
      (∀ vpc, s.Ever (vpcKey (Api.requestedPod ns id now body).spec.vpcName) (.vpc vpc) →
        vpc.status = .active) →
      (Api.createPod.storePod scheduler ns (Api.requestedPod ns id now body)).Meets
        (CreateOp scheduler (Api.requestedPod ns id now body)) (fun _ _ => True) s := by
    intro s hs
    refine Prog.Meets.bind (placePod_ops fun node s' hnode hvpc => ?_)
    refine Prog.Meets.bind (Prog.Meets.put (.create node hnode fun vpc h => hs vpc (hvpc vpc h))
      ?_ fun _ => ?_).attempt
    · trivial
    · trivial
  refine Prog.Meets.bind (Prog.Meets.get (.read _ trivial) (fun v => ?_) fun _ => ?_).attempt
  · have hseen : ∀ {vpc}, (Seen.note Seen.empty
        (vpcKey (Api.requestedPod ns id now body).spec.vpcName) v).Ever
          (vpcKey (Api.requestedPod ns id now body).spec.vpcName) (.vpc vpc) →
        v = some (.vpc vpc) := by
      intro vpc h
      rw [Seen.Ever, Seen.note, Function.update_self, Seen.empty, List.mem_singleton] at h
      exact h.symm
    cases hvpc : v.bind Object.asVpc with
    | none =>
        simp only [Except.toOption, Option.join_some, hvpc]
        refine hstore _ fun vpc h => ?_
        rw [hseen h] at hvpc
        cases hvpc
    | some vpc =>
        simp only [Except.toOption, Option.join_some, hvpc]
        split_ifs with hstatus
        · trivial
        · refine hstore _ fun vpc' h => ?_
          rw [hseen h] at hvpc
          obtain rfl : vpc' = vpc := Option.some_inj.mp hvpc
          exact not_ne_iff.mp hstatus
  · exact hstore _ fun vpc h => absurd h List.not_mem_nil

theorem updatePod_ops (ns podName : String) (change : Pod → Pod) :
    (Api.updatePod ns podName change).Meets (UpdateOp change) (fun _ _ => True) seen := by
  refine Prog.Meets.bind (Prog.Meets.get (.read _ trivial) (fun v => ?_) fun _ => trivial).attempt
  cases v with
  | none => trivial
  | some data =>
      cases hpod : data.asPod with
      | none =>
          simp only [hpod]
          trivial
      | some p =>
          simp only [hpod]
          obtain rfl := Object.asPod_eq_some.mp hpod
          refine Prog.Meets.bind (Prog.Meets.put (.update _ p (Seen.last_note_self _ _ _)) ?_
            fun _ => ?_).attempt
          · trivial
          · trivial

theorem agentRequest_ops (nodeName ns podName : String) {request : Program PodReply}
    {change : Pod → Pod}
    (h : ∀ s, request.Meets (UpdateOp change) (fun _ _ => True) s) :
    (agentRequest nodeName ns podName request).Meets (UpdateOp change) (fun _ _ => True) seen := by
  refine Prog.Meets.seq (Prog.Meets.list (.read _ trivial) (fun _ _ _ => trivial)
    fun _ => trivial).attempt fun entries s _ => ?_
  split_ifs
  · exact Prog.Meets.seq (h s) fun _ _ _ => trivial
  · trivial

theorem mem_podsOn {nodeName : String} {entries : List (String × Object)} {e : String × Pod}
    (he : e ∈ podsOn nodeName entries) :
    (e.1, Object.pod e.2) ∈ entries ∧ e.2.nodeName = some nodeName := by
  obtain ⟨entry, hentry, hpod⟩ := List.mem_filterMap.mp he
  obtain ⟨p, hp, hif⟩ := Option.bind_eq_some_iff.mp hpod
  split_ifs at hif with hnode
  obtain rfl := Option.some_inj.mp hif
  exact ⟨Object.asPod_eq_some.mp hp ▸ hentry, hnode⟩

theorem nodup_podsOn {nodeName : String} {entries : List (String × Object)}
    (h : (entries.map Prod.fst).Nodup) : ((podsOn nodeName entries).map Prod.fst).Nodup := by
  refine KeyValue.nodup_filterMap (fun e e' he => ?_) h
  obtain ⟨p, -, hif⟩ := Option.bind_eq_some_iff.mp he
  split_ifs at hif
  rw [← Option.some_inj.mp hif]

/-- The loop of `drain_node`: the pods that are left are as they were listed. -/
theorem evictAll_ops {test : Pod → Prop} :
    ∀ {xs : List (String × Pod)} {seen : Seen String Object}, (∀ e ∈ xs, test e.2) →
      Pending (fun _ => False) (xs.map fun e => (e.1, Object.pod e.2)) seen →
      (Prog.forEach (fun e : String × Pod => do
        let _ ← (Prog.put e.1 (.pod e.2.evicted)).attempt) xs : Program Unit).Meets
          (EvictOp test) (fun _ _ => True) seen := by
  intro xs
  induction xs with
  | nil => exact fun _ _ => trivial
  | cons e rest ih =>
      intro seen htest hpending
      have hrest := fun e' he' => htest e' (List.mem_cons_of_mem e he')
      refine Prog.Meets.bind (Prog.Meets.bind (Prog.Meets.put (.evict e.1 e.2
        (hpending.1 _ List.mem_cons_self).1 (htest e List.mem_cons_self)) ?_ fun _ => ?_).attempt)
      · exact ih hrest (hpending.put (Seen.Grows.refl _ _) _)
      · exact ih hrest hpending.tail

theorem drainNode_ops (nodeName : String) :
    (drainNode nodeName).Meets (EvictOp fun p => p.nodeName = some nodeName) (fun _ _ => True)
      seen := by
  have hupdate : (findAndUpdateNode nodeName Node.drain).Meets
      (EvictOp fun p => p.nodeName = some nodeName) (fun _ _ => True) seen := by
    refine Prog.Meets.seq (Prog.Meets.list (.read _ trivial) (fun _ _ _ => trivial)
      fun _ => trivial) fun entries s _ => ?_
    cases findNode nodeName entries with
    | none => trivial
    | some found => exact Prog.Meets.put (.node _ _) trivial fun _ => trivial
  refine Prog.Meets.seq hupdate.attempt fun r s _ => ?_
  cases r with
  | error e => trivial
  | ok u =>
      refine Prog.Meets.bind (Prog.Meets.list (.read _ trivial) (fun entries hp hnodup => ?_)
        fun _ => trivial).attempt
      refine Prog.Meets.seq (evictAll_ops (fun e he => (mem_podsOn he).2)
        ⟨fun e he => ⟨?_, not_false⟩, ?_⟩) fun _ _ _ => trivial
      · obtain ⟨e', he', rfl⟩ := List.mem_map.mp he
        exact Seen.last_listing s hp hnodup (mem_podsOn he').1
      · rw [List.map_map]
        exact nodup_podsOn hnodup

theorem reconcileEvictions_ops (now : DateTime) :
    (reconcileEvictions now).Meets (EvictOp fun p => p.status ≠ .succeeded ∧ p.status ≠ .failed)
      (fun _ _ => True) seen := by
  refine Prog.Meets.bind (Prog.Meets.list (.read _ trivial) (fun nodeEntries _ _ => ?_)
    fun _ => trivial)
  dsimp only
  split_ifs
  · trivial
  · refine Prog.Meets.bind (Prog.Meets.list (.read _ trivial) (fun entries hp hnodup => ?_)
      fun _ => trivial)
    refine Prog.Meets.mono (fun _ _ _ => trivial) (Prog.Meets.forEach (Pending fun _ => False)
      (fun _ => True) (fun e rest s h => ?_) (pending_listing _ hp hnodup fun _ _ => not_false))
    rw [evictPod]
    cases hpod : e.2.asPod with
    | none => exact h.tail
    | some p =>
        obtain ⟨hlast, -⟩ := h.1 e List.mem_cons_self
        rw [Object.asPod_eq_some.mp hpod] at hlast
        dsimp only
        split_ifs with hevict
        · simp only [Pod.isEvictable, Bool.and_eq_true, decide_eq_true_eq] at hevict
          exact Prog.Meets.put (.evict _ p hlast ⟨hevict.1.2, hevict.2⟩)
            (h.put (Seen.Grows.refl _ _) _) fun _ => trivial
        · exact h.tail

/-! ## Writers of something else -/

theorem deleteVpc_ops (name : String) :
    (Api.deleteVpc name).Meets (fun _ => OtherOp) (fun _ _ => True) seen := by
  rw [Api.deleteVpc]
  split_ifs
  · trivial
  · refine Prog.Meets.bind (Prog.Meets.get (.read _ trivial) (fun v => ?_) fun _ => trivial).attempt
    cases v with
    | none => trivial
    | some data =>
        dsimp only
        cases data.asVpc with
        | none => trivial
        | some vpc =>
            dsimp only
            cases K3rs.deleteVpc name (some vpc) with
            | error response => trivial
            | ok record =>
                refine Prog.Meets.seq (Prog.Meets.put (.put _ _ rfl) trivial
                  fun _ => trivial).attempt fun r _ _ => ?_
                cases r <;> trivial

theorem createVpc_ops (vpc : VpcRecord) (now : ℤ) :
    (Api.createVpc vpc now).Meets (fun _ => OtherOp) (fun _ _ => True) seen := by
  rw [Api.createVpc]
  split_ifs
  · trivial
  · refine Prog.Meets.seq (Prog.Meets.list (.read _ trivial) (fun _ _ _ => trivial)
      fun _ => trivial).attempt fun entries s _ => ?_
    dsimp only
    cases K3rs.createVpc vpc ((entries.toOption.getD []).filterMap fun e => e.2.asVpc) now with
    | error response => cases response <;> trivial
    | ok record =>
        refine Prog.Meets.seq (Prog.Meets.put (.put _ _ rfl) trivial fun _ => trivial).attempt
          fun r _ _ => ?_
        cases r <;> trivial

theorem reconcileVpcs_ops : reconcileVpcs.Meets (fun _ => OtherOp) (fun _ _ => True) seen := by
  refine Prog.Meets.seq (Prog.Meets.get (.read _ trivial) (fun _ => trivial) fun _ => trivial)
    fun data s _ => ?_
  split_ifs
  · exact Prog.Meets.put (.put _ _ rfl) trivial fun _ => trivial
  · trivial

theorem nodeHeartbeat_ops (nodeName : String) (now : DateTime) :
    (nodeHeartbeat nodeName now).Meets NodeOp (fun _ _ => True) seen := by
  refine Prog.Meets.bind (Prog.Meets.list (.read _ trivial) (fun entries hp hnodup => ?_)
    fun _ => trivial).attempt
  cases hfind : findNode nodeName entries with
  | none =>
      simp only [hfind]
      trivial
  | some found =>
      obtain ⟨k, node⟩ := found
      simp only [hfind]
      obtain ⟨hmem, -⟩ := NodeTask.findNode_eq_some hfind
      refine Prog.Meets.seq (Prog.Meets.put
        (.keep k node _ (Seen.last_listing seen hp hnodup hmem) ⟨rfl, rfl, rfl⟩) trivial
        fun _ => trivial).attempt fun r _ _ => ?_
      cases r <;> trivial

theorem registerNode_ops (joinToken : String) (issued : Bool) (id : String) (now : DateTime)
    (payload : NodeRegistrationRequest) :
    (registerNode joinToken issued id now payload).Meets NodeOp (fun _ _ => True) seen := by
  -- Without a readable record the node is new.
  have hnew : ∀ s : Seen String Object, NodeOp s
      (.put ("/registry/nodes/" ++ payload.nodeName) (.node (payload.node id now none))) :=
    fun s => .create (payload.node id now none)
  have hput : ∀ (s : Seen String Object) (node : Node)
      (next : Except String Unit → Program StatusCode),
      (∀ r s', (next r).Meets NodeOp (fun _ _ => True) s') →
      NodeOp s (.put ("/registry/nodes/" ++ payload.nodeName) (.node node)) →
      ((Prog.put ("/registry/nodes/" ++ payload.nodeName) (.node node)).attempt >>= next).Meets
        NodeOp (fun _ _ => True) s := by
    intro s node next hnext hop
    exact Prog.Meets.seq (Prog.Meets.put hop trivial fun _ => trivial).attempt
      fun r s' _ => hnext r s'
  rw [registerNode]
  split_ifs
  · trivial
  · trivial
  · trivial
  · refine Prog.Meets.bind (Prog.Meets.get (.read _ trivial) (fun v => ?_) fun _ => ?_).attempt
    · refine hput _ _ _ (fun r _ => by cases r <;> trivial) ?_
      cases hnode : v.bind Object.asNode with
      | none =>
          simp only [Except.toOption, Option.join_some, hnode]
          exact hnew _
      | some node =>
          simp only [Except.toOption, Option.join_some, hnode]
          obtain ⟨w, rfl, hw⟩ := Option.bind_eq_some_iff.mp hnode
          obtain rfl := Object.asNode_eq_some.mp hw
          exact .keep _ node _ (Seen.last_note_self _ _ _) ⟨rfl, rfl, rfl⟩
    · exact hput _ _ _ (fun r _ => by cases r <;> trivial) (hnew _)

end Requests

namespace PodTask

/-- **What a task can do.** -/
theorem code_ops (task : PodTask) : task.code.Meets task.Does (fun _ _ => True) Seen.empty := by
  cases task with
  | createPod scheduler ns id now body =>
      exact Prog.Meets.seq (createPod_ops scheduler ns id now body) fun _ _ _ => trivial
  | deletePod ns podName =>
      refine Prog.Meets.seq (Prog.Meets.seq (Prog.Meets.delete ⟨_, rfl⟩ trivial
        fun _ => trivial).attempt fun r _ _ => ?_) fun _ _ _ => trivial
      cases r <;> trivial
  | replicaSets env => exact reconcileReplicaSets_ops env _
  | jobs env => exact reconcileJobs_ops env _
  | daemonSets env => exact reconcileDaemonSets_ops env _
  | drain nodeName => exact Prog.Meets.seq (drainNode_ops nodeName) fun _ _ _ => trivial
  | evictions now => exact reconcileEvictions_ops now
  | reportStatus nodeName ns podName status =>
      exact agentRequest_ops nodeName ns podName fun _ => updatePod_ops ns podName _
  | reportVpc nodeName ns podName ghostIpv6 vpcName =>
      exact agentRequest_ops nodeName ns podName fun _ => updatePod_ops ns podName _
  | deleteVpc name => exact Prog.Meets.seq (deleteVpc_ops name) fun _ _ _ => trivial
  | createVpc vpc now => exact Prog.Meets.seq (createVpc_ops vpc now) fun _ _ _ => trivial
  | vpcs => exact reconcileVpcs_ops
  | heartbeat nodeName now =>
      exact Prog.Meets.seq (nodeHeartbeat_ops nodeName now) fun _ _ _ => trivial
  | register joinToken issued id now payload =>
      exact Prog.Meets.seq (registerNode_ops joinToken issued id now payload) fun _ _ _ => trivial
  | write k v hv => exact Prog.Meets.put (.put k v hv) trivial fun _ => trivial
  | remove k => exact Prog.Meets.delete ⟨k, rfl⟩ trivial fun _ => trivial

/-! ## Puts of pods -/

/-- The task creates pods. -/
def creates : PodTask → Bool
  | createPod _ _ _ _ _ => true
  | replicaSets _ => true
  | jobs _ => true
  | daemonSets _ => true
  | _ => false

/-- The task evicts pods. -/
def evicts : PodTask → Bool
  | drain _ => true
  | evictions _ => true
  | _ => false

theorem creates_eq_false {task : PodTask} (h : task.evicts = true) : task.creates = false := by
  cases task with
  | drain nodeName => rfl
  | evictions now => rfl
  | _ => exact nomatch h

/-- A pod that has just been created: it waits, or it has a node. -/
def IsNew (p : Pod) : Prop := p.status = .pending ∨ p.status = .scheduled ∧ p.nodeName.isSome = true

theorem isNew_assign {p : Pod} (h : p.status = .pending) (node : Option String) :
    IsNew (p.assign node) := by
  cases node with
  | none => exact Or.inl h
  | some nodeName => exact Or.inr ⟨rfl, rfl⟩

variable {task : PodTask} {seen : Seen String Object} {k : String} {q : Pod}

/-- **What a put of a pod can be.** -/
theorem put_cases (h : task.Does seen (.put k (.pod q))) :
    (task.creates = true ∧ IsNew q) ∨
      (task.evicts = true ∧ ∃ p, seen.last k = some (.pod p) ∧ q = p.evicted) ∨
      (∃ nodeName ns podName status p, task = .reportStatus nodeName ns podName status ∧
        seen.last k = some (.pod p) ∧ q = { p with status := status }) ∨
      ∃ nodeName ns podName ghostIpv6 vpcName p,
        task = .reportVpc nodeName ns podName ghostIpv6 vpcName ∧
        seen.last k = some (.pod p) ∧
        q = { p with ghostIpv6 := some ghostIpv6, vpcName := some vpcName } := by
  cases task with
  | createPod scheduler ns id now body =>
      refine Or.inl ⟨rfl, ?_⟩
      cases h with
      | read ho => exact absurd ‹_› not_false
      | create node hnode hvpc => exact isNew_assign rfl node
  | deletePod ns podName =>
      obtain ⟨k', hk⟩ := h
      exact nomatch hk
  | replicaSets env =>
      refine Or.inl ⟨rfl, ?_⟩
      cases h with
      | create ns key id now rs nodes hseen hnodes => exact isNew_assign rfl _
  | jobs env =>
      refine Or.inl ⟨rfl, ?_⟩
      cases h with
      | create ns key id now job job' nodes hseen hjob hnodes => exact isNew_assign rfl _
  | daemonSets env =>
      refine Or.inl ⟨rfl, ?_⟩
      cases h with
      | create ns key id now ds node hseen hnode => exact Or.inr ⟨rfl, rfl⟩
  | drain nodeName =>
      refine Or.inr (Or.inl ⟨rfl, ?_⟩)
      cases h with
      | read ho => exact absurd ‹_› not_false
      | evict _ p hseen hp => exact ⟨p, hseen, rfl⟩
  | evictions now =>
      refine Or.inr (Or.inl ⟨rfl, ?_⟩)
      cases h with
      | read ho => exact absurd ‹_› not_false
      | evict _ p hseen hp => exact ⟨p, hseen, rfl⟩
  | reportStatus nodeName ns podName status =>
      refine Or.inr (Or.inr (Or.inl ?_))
      cases h with
      | read ho => exact absurd ‹_› not_false
      | update _ p hseen => exact ⟨nodeName, ns, podName, status, p, rfl, hseen, rfl⟩
  | reportVpc nodeName ns podName ghostIpv6 vpcName =>
      refine Or.inr (Or.inr (Or.inr ?_))
      cases h with
      | read ho => exact absurd ‹_› not_false
      | update _ p hseen =>
          exact ⟨nodeName, ns, podName, ghostIpv6, vpcName, p, rfl, hseen, rfl⟩
  | deleteVpc name => exact absurd h not_otherOp_pod
  | createVpc vpc now => exact absurd h not_otherOp_pod
  | vpcs => exact absurd h not_otherOp_pod
  | heartbeat nodeName now => exact absurd h not_nodeOp_pod
  | register joinToken issued id now payload => exact absurd h not_nodeOp_pod
  | write k v hv => exact absurd h not_otherOp_pod
  | remove k =>
      obtain ⟨k', hk⟩ := h
      exact nomatch hk

end PodTask

/-- The store, and the tasks under way. -/
abbrev PodPool := Pool String Object PodTask Unit

/-- One step of the tasks. -/
def PodPool.next (pool : PodPool) (s : PoolStep PodTask) : PodPool := pool.step PodTask.code s

end K3rs
