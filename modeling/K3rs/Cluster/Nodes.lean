import K3rs.Cluster.Objects
import K3rs.Lib.Json
import K3rs.Server.VpcRegistry

/-!
# Nodes

The handlers that cordon, uncordon and drain a node, the heartbeat of a node, and the node
controller.  Each of them lists the nodes and puts one or several of them back.

`NodeTask.code_meets` says what they can write, given what they have seen: a node as it was seen
last, changed in the way of the task, or a pod.  `NodeTask.code_waits` says that a cordon or a
drain does not answer with success before it has put the node.
-/

namespace K3rs

open Programs

/-! ## Changes of a node -/

/-- The key of the taint. -/
def unschedulableKey : String := "node.kubernetes.io/unschedulable"

/-- The taint of a node that is cordoned. -/
def unschedulableTaint : Taint := ⟨unschedulableKey, "true", .noSchedule⟩

namespace Node

/-- The node has the taint. -/
def hasTaint (node : Node) : Bool := node.taints.any fun t => decide (t.key = unschedulableKey)

/-- What `cordon_node` does with the node. -/
def cordon (node : Node) : Node :=
  { node with
    unschedulable := true
    taints := if node.hasTaint then node.taints else node.taints ++ [unschedulableTaint] }

/-- What `uncordon_node` does with the node. -/
def uncordon (node : Node) : Node :=
  { node with
    unschedulable := false
    status := .ready
    taints := node.taints.filter fun t => decide (t.key ≠ unschedulableKey) }

/-- What `drain_node` does with the node. -/
def drain (node : Node) : Node := { node.cordon with status := .notReady }

/-- The node is cordoned. -/
def Cordoned (node : Node) : Prop := node.unschedulable = true ∧ node.hasTaint = true

instance (node : Node) : Decidable node.Cordoned :=
  inferInstanceAs (Decidable (node.unschedulable = true ∧ node.hasTaint = true))

theorem cordoned_cordon (node : Node) : node.cordon.Cordoned := by
  refine ⟨rfl, ?_⟩
  rw [cordon, hasTaint]
  split_ifs with h
  · exact h
  · rw [List.any_append, Bool.or_eq_true]
    exact Or.inr rfl

end Node

/-! ## Handlers -/

/-- The body of an answer. -/
inductive Body where
  | empty
  | text (message : String)
  | json (value : Json)

/-- What a handler answers. -/
abbrev Reply := StatusCode × Body

/-- The first node with a name, in a listing. -/
def findNode (nodeName : String) (entries : List (String × Object)) : Option (String × Node) :=
  entries.findSome? fun e =>
    match e.2.asNode with
    | some node => if node.name = nodeName then some (e.1, node) else none
    | none => none

/-- `find_and_update_node`. -/
def findAndUpdateNode (nodeName : String) (mutate : Node → Node) : Program Unit := do
  let entries ← listPrefix "/registry/nodes/"
  match findNode nodeName entries with
  | some (key, node) => Prog.put key (.node (mutate node))
  | none => Prog.fail ("Node not found: " ++ nodeName)

/-- `cordon_node`. -/
def cordonNode (nodeName : String) : Program Reply := do
  match ← (findAndUpdateNode nodeName Node.cordon).attempt with
  | .ok _ => return (.ok, .json (.obj [("status", .str "cordoned")]))
  | .error e => return (.internalServerError, .text e)

/-- `uncordon_node`. -/
def uncordonNode (nodeName : String) : Program Reply := do
  match ← (findAndUpdateNode nodeName Node.uncordon).attempt with
  | .ok _ => return (.ok, .json (.obj [("status", .str "uncordoned")]))
  | .error e => return (.internalServerError, .text e)

/-- The pods of a listing that are on a node. -/
def podsOn (nodeName : String) (entries : List (String × Object)) : List (String × Pod) :=
  entries.filterMap fun e => do
    let p ← e.2.asPod
    if p.nodeName = some nodeName then some (e.1, p) else none

/-- A pod that has been evicted. -/
def Pod.evicted (p : Pod) : Pod := { p with nodeName := none, status := .pending }

/-- `drain_node`. -/
def drainNode (nodeName : String) : Program Reply := do
  match ← (findAndUpdateNode nodeName Node.drain).attempt with
  | .error e => return (.internalServerError, .text e)
  | .ok _ =>
      match ← (listPrefix "/registry/pods/").attempt with
      | .error _ => return (.internalServerError, .text "Failed to list pods")
      | .ok entries => do
          let evicted := podsOn nodeName entries
          Prog.forEach (fun e => do
            let _ ← (Prog.put e.1 (.pod e.2.evicted)).attempt) evicted
          return (.ok, .json (.obj [("status", .str "drained"),
            ("evicted_pods", .num (UInt32.ofNat evicted.length).toNat)]))

/-- `node_heartbeat`. -/
def nodeHeartbeat (nodeName : String) (now : DateTime) : Program Reply := do
  match ← (listPrefix "/registry/nodes/").attempt with
  | .error _ => return (.internalServerError, .empty)
  | .ok entries =>
      match findNode nodeName entries with
      | some (key, node) => do
          match ← (Prog.put key
              (.node { node with lastHeartbeat := now, status := .ready })).attempt with
          | .error _ => return (.internalServerError, .empty)
          | .ok _ => return (.ok, .json (.obj [("status", .str "ok")]))
      | none => return (.notFound, .empty)

/-! ## The controller -/

/-- `NODE_NOT_READY_THRESHOLD_SECS`, in milliseconds. -/
def notReadyThreshold : ℤ := 30 * 1000

/-- `NODE_UNKNOWN_THRESHOLD_SECS`, in milliseconds. -/
def unknownThreshold : ℤ := 60 * 1000

/-- The node runs the server. -/
def Node.isMaster (node : Node) : Bool :=
  node.labels.any (fun l => decide (l.1 = "node-role.kubernetes.io/master")) ||
    node.labels.any fun l => decide (l.1 = "node-role.kubernetes.io/control-plane")

/-- The status that the controller finds. -/
def Node.statusAt (node : Node) (now : DateTime) : NodeStatus :=
  -- A heartbeat in the future counts as one that has just come.
  let age := max (now - node.lastHeartbeat) 0
  if node.isMaster then .ready
  else if unknownThreshold ≤ age then .unknown
  else if notReadyThreshold ≤ age then .notReady
  else .ready

/-- A pass over one listed node. -/
def reconcileNode (now : DateTime) (entry : String × Object) : Program Unit :=
  match entry.2.asNode with
  | none => pure ()
  | some node =>
      if node.status ≠ node.statusAt now then
        Prog.put entry.1 (.node { node with status := node.statusAt now })
      else pure ()

/-- `NodeController::reconcile`. -/
def reconcileNodes (now : DateTime) : Program Unit := do
  let entries ← listPrefix "/registry/nodes/"
  Prog.forEach (reconcileNode now) entries

/-! ## What they can write -/

/-- The writers of nodes. -/
inductive NodeTask where
  | cordon (nodeName : String)
  | uncordon (nodeName : String)
  | drain (nodeName : String)
  | heartbeat (nodeName : String) (now : DateTime)
  | controller (now : DateTime)
  deriving DecidableEq, Repr

namespace NodeTask

/-- What a task does; a pass has no answer. -/
def code : NodeTask → Program (Option Reply)
  | cordon nodeName => do return some (← cordonNode nodeName)
  | uncordon nodeName => do return some (← uncordonNode nodeName)
  | drain nodeName => do return some (← drainNode nodeName)
  | heartbeat nodeName now => do return some (← nodeHeartbeat nodeName now)
  | controller now => do
      reconcileNodes now
      return none

/-- How a task changes a node. -/
def Changes : NodeTask → Node → Node → Prop
  | cordon nodeName, node, node' => node.name = nodeName ∧ node'.Cordoned
  | drain nodeName, node, node' => node.name = nodeName ∧ node'.Cordoned
  | uncordon nodeName, node, _ => node.name = nodeName
  | heartbeat _ _, node, node' => node'.unschedulable = node.unschedulable ∧ node'.taints = node.taints
  | controller _, node, node' => node'.unschedulable = node.unschedulable ∧ node'.taints = node.taints

/-- The operations of a task, given what it has seen. -/
inductive Writes (task : NodeTask) (seen : Seen String Object) : Op String Object → Prop where
  | list (p : String → Bool) : Writes task seen (.list p)
  /-- A node that it saw last, changed. -/
  | node (k : String) (node node' : Node) (hseen : seen.last k = some (.node node))
      (hname : node'.name = node.name) (hchange : task.Changes node node') :
      Writes task seen (.put k (.node node'))
  /-- A pod, not below the nodes. -/
  | pod (k : String) (p : Pod) (hkey : startsWith k "/registry/nodes/" = false) :
      Writes task seen (.put k (.pod p))

theorem findNode_eq_some {nodeName k : String} {node : Node} {entries : List (String × Object)}
    (h : findNode nodeName entries = some (k, node)) :
    (k, .node node) ∈ entries ∧ node.name = nodeName := by
  obtain ⟨e, he, hfind⟩ := List.exists_of_findSome?_eq_some h
  split at hfind
  · rename_i node' hnode
    split_ifs at hfind with hname
    obtain ⟨hk, rfl⟩ := Prod.mk.inj (Option.some_inj.mp hfind)
    have heq : e = (k, .node node') := Prod.ext hk (Object.asNode_eq_some.mp hnode)
    exact ⟨heq ▸ he, hname⟩
  · exact nomatch hfind

variable {task : NodeTask}

theorem findAndUpdateNode_meets {nodeName : String} {mutate : Node → Node}
    (hmutate : ∀ node : Node, node.name = nodeName →
      (mutate node).name = node.name ∧ task.Changes node (mutate node))
    (seen : Seen String Object) :
    (findAndUpdateNode nodeName mutate).Meets task.Writes (fun _ _ => True) seen := by
  refine Prog.Meets.bind (Prog.Meets.list (.list _) (fun entries hp hnodup => ?_) fun _ => trivial)
  cases hfind : findNode nodeName entries with
  | none =>
      simp only [hfind]
      trivial
  | some found =>
      obtain ⟨k, node⟩ := found
      simp only [hfind]
      obtain ⟨hmem, hname⟩ := findNode_eq_some hfind
      obtain ⟨hkeeps, hchange⟩ := hmutate node hname
      exact Prog.Meets.put
        (.node k node _ (Seen.last_listing seen hp hnodup hmem) hkeeps hchange) trivial
        fun _ => trivial

theorem cordonNode_meets (nodeName : String) (seen : Seen String Object) :
    (cordonNode nodeName).Meets (cordon nodeName).Writes (fun _ _ => True) seen := by
  have hmutate : ∀ node : Node, node.name = nodeName →
      node.cordon.name = node.name ∧ (cordon nodeName).Changes node node.cordon :=
    fun node hname => ⟨rfl, hname, node.cordoned_cordon⟩
  refine Prog.Meets.seq (findAndUpdateNode_meets hmutate seen).attempt fun r _ _ => ?_
  cases r <;> trivial

theorem uncordonNode_meets (nodeName : String) (seen : Seen String Object) :
    (uncordonNode nodeName).Meets (uncordon nodeName).Writes (fun _ _ => True) seen := by
  have hmutate : ∀ node : Node, node.name = nodeName →
      node.uncordon.name = node.name ∧ (uncordon nodeName).Changes node node.uncordon :=
    fun node hname => ⟨rfl, hname⟩
  refine Prog.Meets.seq (findAndUpdateNode_meets hmutate seen).attempt fun r _ _ => ?_
  cases r <;> trivial

theorem drainNode_meets (nodeName : String) (seen : Seen String Object) :
    (drainNode nodeName).Meets (drain nodeName).Writes (fun _ _ => True) seen := by
  have hmutate : ∀ node : Node, node.name = nodeName →
      node.drain.name = node.name ∧ (drain nodeName).Changes node node.drain :=
    fun node hname => ⟨rfl, hname, node.cordoned_cordon⟩
  refine Prog.Meets.seq (findAndUpdateNode_meets hmutate seen).attempt fun r s _ => ?_
  cases r with
  | error e => trivial
  | ok u =>
      refine Prog.Meets.bind (Prog.Meets.list (.list _) (fun entries hp _ => ?_)
        fun _ => trivial).attempt
      refine Prog.Meets.seq (Prog.Meets.loop (fun e he s _ => ?_) trivial) fun _ _ _ => trivial
      -- The pods are below their own directory.
      obtain ⟨entry, hentry, hpod⟩ := List.mem_filterMap.mp he
      obtain ⟨p, hp', hif⟩ := Option.bind_eq_some_iff.mp hpod
      split_ifs at hif
      obtain rfl := Option.some_inj.mp hif
      have hkey : startsWith entry.1 "/registry/nodes/" = false :=
        not_startsWith_of_startsWith (hp entry hentry) (by decide) (by decide)
      exact Prog.Meets.seq (Prog.Meets.put (.pod _ _ hkey) trivial fun _ => trivial).attempt
        fun _ _ _ => trivial

theorem nodeHeartbeat_meets (nodeName : String) (now : DateTime) (seen : Seen String Object) :
    (nodeHeartbeat nodeName now).Meets (heartbeat nodeName now).Writes (fun _ _ => True) seen := by
  refine Prog.Meets.bind (Prog.Meets.list (.list _) (fun entries hp hnodup => ?_)
    fun _ => trivial).attempt
  cases hfind : findNode nodeName entries with
  | none =>
      simp only [hfind]
      trivial
  | some found =>
      obtain ⟨k, node⟩ := found
      simp only [hfind]
      obtain ⟨hmem, -⟩ := findNode_eq_some hfind
      refine Prog.Meets.seq (Prog.Meets.put
        (.node k node _ (Seen.last_listing seen hp hnodup hmem) rfl ⟨rfl, rfl⟩) trivial
        fun _ => trivial).attempt fun r _ _ => ?_
      cases r <;> trivial

theorem reconcileNodes_meets (now : DateTime) (seen : Seen String Object) :
    (reconcileNodes now).Meets (controller now).Writes (fun _ _ => True) seen := by
  refine Prog.Meets.bind (Prog.Meets.list (.list _) (fun entries hp hnodup => ?_) fun _ => trivial)
  refine Prog.Meets.mono (fun _ _ _ => trivial) (Prog.Meets.forEach (Pending fun _ => False)
    (fun _ => True) (fun e rest s h => ?_) (pending_listing seen hp hnodup fun _ _ => not_false))
  rw [reconcileNode]
  cases hnode : e.2.asNode with
  | none => exact h.tail
  | some node =>
      obtain ⟨hlast, -⟩ := h.1 e List.mem_cons_self
      rw [Object.asNode_eq_some.mp hnode] at hlast
      dsimp only
      split_ifs
      · exact Prog.Meets.put (.node _ node _ hlast rfl ⟨rfl, rfl⟩)
          (h.put (Seen.Grows.refl _ _) _) fun _ => trivial
      · exact h.tail

/-- **What a task can write.** -/
theorem code_meets (task : NodeTask) :
    task.code.Meets task.Writes (fun _ _ => True) Seen.empty := by
  cases task with
  | cordon nodeName => exact Prog.Meets.seq (cordonNode_meets nodeName _) fun _ _ _ => trivial
  | uncordon nodeName => exact Prog.Meets.seq (uncordonNode_meets nodeName _) fun _ _ _ => trivial
  | drain nodeName => exact Prog.Meets.seq (drainNode_meets nodeName _) fun _ _ _ => trivial
  | heartbeat nodeName now =>
      exact Prog.Meets.seq (nodeHeartbeat_meets nodeName now _) fun _ _ _ => trivial
  | controller now => exact Prog.Meets.seq (reconcileNodes_meets now _) fun _ _ _ => trivial

/-! ## Success comes after the put -/

/-- The task cordons the node. -/
def cordons (nodeName : String) : NodeTask → Bool
  | cordon nodeName' => decide (nodeName' = nodeName)
  | drain nodeName' => decide (nodeName' = nodeName)
  | _ => false

/-- The result is an answer with success. -/
def succeeds : Except String (Option Reply) → Bool
  | .ok (some (.ok, _)) => true
  | _ => false

/-- A node has been put. -/
def putsNode : (o : Op String Object) → o.Answer → Bool
  | .put _ (.node _), .ok _ => true
  | _, _ => false

/-- A success comes after a node has been put. -/
def Waits (x : Program (Option Reply)) : Prop :=
  x.Waits (fun o answer => putsNode o answer = true) fun r => succeeds r = true

theorem findAndUpdateNode_waits (nodeName : String) (mutate : Node → Node) :
    (findAndUpdateNode nodeName mutate).Waits (fun o answer => putsNode o answer = true)
      fun r => r = .ok () := by
  intro answer
  refine Or.inr ?_
  cases answer with
  | error e => exact fun h => nomatch h
  | ok entries =>
      change (match findNode nodeName entries with
        | some (key, node) => Prog.put key (.node (mutate node))
        | none => Prog.fail ("Node not found: " ++ nodeName) : Program Unit).Waits _ _
      cases findNode nodeName entries with
      | none => exact fun h => nomatch h
      | some found =>
          intro answer
          cases answer with
          | ok u => exact Or.inl rfl
          | error e => exact Or.inr fun h => nomatch h

/-- Nothing but an error comes after an update that has failed. -/
theorem update_waits (nodeName : String) (mutate : Node → Node)
    {f : Except String Unit → Program Reply}
    (hf : ∀ e, f (.error e) = pure (.internalServerError, .text e)) :
    Waits (do return some (← (findAndUpdateNode nodeName mutate).attempt >>= f)) := by
  have hupdate : ((findAndUpdateNode nodeName mutate).attempt >>= f).Waits
      (fun o answer => putsNode o answer = true) fun r => succeeds (r.map some) = true := by
    refine Prog.Waits.bind (S := fun r => r = .ok (.ok ())) (Prog.Waits.attempt ?_) ?_
      fun e h => nomatch h
    · simpa only [Except.ok.injEq] using findAndUpdateNode_waits nodeName mutate
    · intro a ha
      cases a with
      | ok u => exact absurd rfl ha
      | error e =>
          rw [hf]
          exact fun h => nomatch h
  exact Prog.Waits.bind hupdate (fun _ ha => ha) fun e h => nomatch h

/-- **A cordon or a drain does not succeed before it has put the node.** -/
theorem code_waits {nodeName : String} (h : task.cordons nodeName = true) : Waits task.code := by
  cases task with
  | cordon nodeName' => exact update_waits nodeName' _ fun _ => rfl
  | drain nodeName' => exact update_waits nodeName' _ fun _ => rfl
  | uncordon nodeName' => exact nomatch h
  | heartbeat nodeName' now => exact nomatch h
  | controller now => exact nomatch h

end NodeTask

end K3rs
