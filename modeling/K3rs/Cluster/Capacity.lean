import K3rs.Cluster.Scheduler
import K3rs.Cluster.TerminatingVpcs
import K3rs.Lib.Totals
import Mathlib.Data.UInt

/-!
# Nodes that are not overcommitted

The scheduler puts a pod on a node if what the pod asks for fits beside `allocated`, the resources
of the node that are taken.  Nothing ever writes that field: it is zero from the registration on.

* `nodes_not_overcommitted`: in every run in which `allocated` covers what the pods on the node ask
  for whenever a pod is bound to it, what pods ask for can be added up in 64 bits, and no
  registration changes the capacity of a node with pods, no node is overcommitted.
-/

namespace K3rs

open Programs Transition

/-! ## Tasks -/

/-- The environment of a pass whose pods the scheduler places; `turn` is what it finds in its
counter. -/
def PassEnv.scheduling (env : PassEnv) (turn : Pod → ℕ) : PassEnv :=
  { env with schedule := fun p nodes => K3rs.schedule (turn p) p nodes }

/-- Those who bind pods, and those who write nodes. -/
inductive BindTask where
  /-- Without a turn there is no scheduler. -/
  | createPod (turn : Option (Pod → ℕ)) (ns id : String) (now : DateTime) (body : Pod)
  | replicaSets (env : PassEnv) (turn : Pod → ℕ)
  | jobs (env : PassEnv) (turn : Pod → ℕ)
  | heartbeat (nodeName : String) (now : DateTime)
  | register (joinToken : String) (issued : Bool) (id : String) (now : DateTime)
      (payload : NodeRegistrationRequest)

namespace BindTask

/-- The task with its scheduler. -/
def task : BindTask → PodTask
  | createPod turn ns id now body =>
      .createPod (turn.map fun turn p nodes => schedule (turn p) p nodes) ns id now body
  | replicaSets env turn => .replicaSets (env.scheduling turn)
  | jobs env turn => .jobs (env.scheduling turn)
  | heartbeat nodeName now => .heartbeat nodeName now
  | register joinToken issued id now payload => .register joinToken issued id now payload

/-- What a task does. -/
def code (t : BindTask) : Program Unit := t.task.code

end BindTask

/-! ## What is asked of nodes -/

/-- The resources that the scheduler looks at. -/
inductive Resource where
  | cpu
  | memory
  deriving DecidableEq, Repr

instance : Fintype Resource := ⟨{.cpu, .memory}, fun r => by cases r <;> decide⟩

/-- The amount of a resource. -/
def Resource.amount : Resource → ResourceRequirements → UInt64
  | cpu => ResourceRequirements.cpuMillis
  | memory => ResourceRequirements.memoryBytes

/-- The pod has been bound to the node by the scheduler and has not finished. -/
def Pod.isOn (nodeName : String) (p : Pod) : Bool :=
  decide (p.nodeName = some nodeName) && decide (p.status ≠ .pending) && !p.status.isFinished

theorem Pod.nodeName_of_isOn {nodeName : String} {p : Pod} (h : p.isOn nodeName = true) :
    p.nodeName = some nodeName := by
  simp only [Pod.isOn, Bool.and_eq_true, decide_eq_true_eq] at h
  exact h.1.1

/-- An eligible node has room, whatever the resource. -/
theorem Resource.hasRoom_of_isNodeEligible {node : Node} {p : Pod} (r : Resource)
    (h : isNodeEligible node p = true) :
    hasRoom (r.amount node.capacity) (r.amount node.allocated) (p.spec.request r.amount) = true := by
  cases r with
  | cpu => exact (K3rs.hasRoom_of_isNodeEligible h).1
  | memory => exact (K3rs.hasRoom_of_isNodeEligible h).2

/-- What an object asks of a node. -/
def demandOn (r : Resource) (nodeName : String) (_k : String) (v : Object) : ℕ :=
  match v.asPod with
  | some p => if p.isOn nodeName then p.spec.demand r.amount else 0
  | none => 0

/-- What the pods of a node ask for. -/
def bound (r : Resource) (nodeName : String) (store : Registry) : ℕ :=
  store.total (demandOn r nodeName)

/-- No node has more pods than it has room for. -/
def NotOvercommitted (store : Registry) : Prop :=
  ∀ e ∈ store.rows, ∀ node ∈ e.2.asNode, ∀ r : Resource, r.amount node.capacity ≠ 0 →
    bound r node.name store ≤ (r.amount node.capacity).toNat

instance (store : Registry) : Decidable (NotOvercommitted store) := by
  unfold NotOvercommitted
  infer_instance

/-- The store, and the tasks under way. -/
abbrev BindPool := Pool String Object BindTask Unit

namespace BindPool

/-- One step of the tasks. -/
def next (pool : BindPool) (s : PoolStep BindTask) : BindPool := pool.step BindTask.code s

variable (pool : BindPool)

/-- The step puts a pod for which the sums of the scheduler are not the demands. -/
def Overflows : PoolStep BindTask → Prop
  | .spawn _ _ => False
  | .advance tid _ =>
      match pool.threads tid with
      | some ⟨_, .op (.put _ (.pod q)) _, _⟩ =>
          ∃ r : Resource, (q.spec.request r.amount).toNat ≠ q.spec.demand r.amount
      | _ => False

instance (s : PoolStep BindTask) : Decidable (pool.Overflows s) := by
  unfold Overflows
  split
  · infer_instance
  · split <;> infer_instance

/-! ## The condition -/

/-- What the task has seen of a node covers what the pods on it ask for, and its capacity is still
the stored one. -/
def Covers (seen : Seen String Object) (nodeName : String) : Prop :=
  ∀ v ∈ seen (nodeKey nodeName), ∀ node ∈ v.bind Object.asNode, ∀ r : Resource,
    bound r nodeName pool.store ≤ (r.amount node.allocated).toNat ∧
      ∀ stored ∈ (pool.store.lookup (nodeKey nodeName)).bind Object.asNode,
        stored.capacity = node.capacity

instance (seen : Seen String Object) (nodeName : String) : Decidable (pool.Covers seen nodeName) := by
  unfold Covers
  infer_instance

/-- A node keeps its capacity when it is written, or it has no pods. -/
def KeepsCapacity (k : String) (node : Node) : Prop :=
  (∃ stored ∈ (pool.store.lookup k).bind Object.asNode, stored.capacity = node.capacity) ∨
    ∀ r, bound r node.name pool.store = 0

instance (k : String) (node : Node) : Decidable (pool.KeepsCapacity k node) := by
  unfold KeepsCapacity
  infer_instance

/-- The condition on a step. -/
def Accounted : PoolStep BindTask → Prop
  | .spawn _ _ => True
  | .advance tid _ =>
      match pool.threads tid with
      | some ⟨_, .op (.put _ (.pod q)) _, seen⟩ =>
          (∀ r : Resource, q.spec.demand r.amount < 2 ^ 64) ∧
            ∀ nodeName ∈ q.nodeName, q.isOn nodeName = true → pool.Covers seen nodeName
      | some ⟨_, .op (.put k (.node node)) _, _⟩ => pool.KeepsCapacity k node
      | _ => True

instance (s : PoolStep BindTask) : Decidable (pool.Accounted s) := by
  unfold Accounted
  split
  · infer_instance
  · split <;> infer_instance

/-! ## Totals -/

variable {pool}

theorem demandOn_of_not_isOn {r : Resource} {nodeName k : String} {p : Pod}
    (h : p.isOn nodeName = false) : demandOn r nodeName k (.pod p) = 0 := by
  simp [demandOn, Object.asPod, h]

theorem demandOn_le {r : Resource} {nodeName k : String} {p : Pod} :
    demandOn r nodeName k (.pod p) ≤ p.spec.demand r.amount := by
  simp only [demandOn, Object.asPod]
  split_ifs
  · exact le_rfl
  · exact Nat.zero_le _

theorem bound_insert_le (r : Resource) (nodeName : String) (store : Registry) (k : String)
    (v : Object) : bound r nodeName (store.insert k v) ≤ bound r nodeName store +
      demandOn r nodeName k v := by
  have h := KeyValue.total_insert (demandOn r nodeName) store k v
  rw [bound, bound]
  omega

theorem bound_erase_le (r : Resource) (nodeName : String) (store : Registry) (k : String) :
    bound r nodeName (store.erase k) ≤ bound r nodeName store := by
  have h := KeyValue.total_erase (demandOn r nodeName) store k
  rw [bound, bound]
  omega

/-- What an operation adds to a node. -/
theorem bound_apply_le (r : Resource) (nodeName : String) (store : Registry)
    (o : Op String Object) (outcome : Outcome) : bound r nodeName (o.apply store outcome) ≤
      bound r nodeName store ∨ ∃ k q, o = .put k (.pod q) ∧ q.isOn nodeName = true ∧
        bound r nodeName (o.apply store outcome) ≤
          bound r nodeName store + q.spec.demand r.amount := by
  cases o with
  | get k => exact Or.inl le_rfl
  | list p => exact Or.inl le_rfl
  | delete k =>
      cases outcome with
      | fail e => exact Or.inl le_rfl
      | ok => exact Or.inl (bound_erase_le r nodeName store k)
      | cut count => exact Or.inl (bound_erase_le r nodeName store k)
  | put k v =>
      have hput := bound_insert_le r nodeName store k v
      have hcases : demandOn r nodeName k v = 0 ∨ ∃ q, v = .pod q ∧ q.isOn nodeName = true ∧
          demandOn r nodeName k v ≤ q.spec.demand r.amount := by
        cases v with
        | pod q =>
            cases hon : q.isOn nodeName with
            | false => exact Or.inl (demandOn_of_not_isOn hon)
            | true => exact Or.inr ⟨q, rfl, hon, demandOn_le⟩
        | _ => exact Or.inl rfl
      have hle : bound r nodeName (store.insert k v) ≤ bound r nodeName store ∨
          ∃ k' q, Op.put k v = .put k' (.pod q) ∧ q.isOn nodeName = true ∧
            bound r nodeName (store.insert k v) ≤
              bound r nodeName store + q.spec.demand r.amount := by
        rcases hcases with hzero | ⟨q, rfl, hon, hdemand⟩
        · exact Or.inl (by omega)
        · exact Or.inr ⟨k, q, rfl, hon, by omega⟩
      cases outcome with
      | fail e => exact Or.inl le_rfl
      | ok => exact hle
      | cut count => exact hle

/-- A node that is written adds nothing. -/
theorem bound_apply_node (r : Resource) (nodeName : String) (store : Registry) (k : String)
    (node : Node) (outcome : Outcome) :
    bound r nodeName ((Op.put k (Object.node node)).apply store outcome) ≤ bound r nodeName store := by
  rcases bound_apply_le r nodeName store (.put k (.node node)) outcome with hle | ⟨_, _, hop, -, -⟩
  · exact hle
  · exact nomatch hop

theorem nodeKey_injective {a b : String} (h : nodeKey a = nodeKey b) : a = b := by
  have hlist := congrArg String.toList h
  rw [nodeKey, nodeKey, String.toList_append, String.toList_append] at hlist
  exact String.toList_injective (List.append_cancel_left hlist)

/-! ## What a task binds -/

/-- The task has seen an eligible node of that name. -/
def SawRoom (seen : Seen String Object) (q : Pod) (nodeName : String) : Prop :=
  ∃ k node, seen.Ever k (.node node) ∧ node.name = nodeName ∧ isNodeEligible node q = true

/-- A pod that the scheduler has placed is on a node that it has seen. -/
theorem sawRoom_of_schedule {seen : Seen String Object} {p : Pod} {nodes : List Node} {turn : ℕ}
    {nodeName : String} (hpending : p.status = .pending) (hnodes : NodesSeen nodes seen)
    (hon : (p.assign (schedule turn p nodes)).isOn nodeName = true) :
    SawRoom seen (p.assign (schedule turn p nodes)) nodeName := by
  cases hchosen : schedule turn p nodes with
  | none =>
      rw [hchosen, Pod.assign] at hon
      simp [Pod.isOn, hpending] at hon
  | some chosen =>
      obtain ⟨node, hmem, heligible, hname⟩ := exists_of_schedule hchosen
      obtain ⟨k, hk⟩ := hnodes node hmem
      refine ⟨k, node, hk, ?_, ?_⟩
      · rw [hchosen, Pod.assign] at hon
        exact hname.trans (Option.some_inj.mp (Pod.nodeName_of_isOn hon))
      · exact (isNodeEligible_congr (Pod.spec_assign p _)).trans heligible

/-- **Whoever binds a pod has seen room for it.** -/
theorem sawRoom_of_put {t : BindTask} {seen : Seen String Object} {k nodeName : String} {q : Pod}
    (h : t.task.Does seen (.put k (.pod q))) (hon : q.isOn nodeName = true) :
    SawRoom seen q nodeName := by
  cases t with
  | createPod turn ns id now body =>
      cases h with
      | read ho => exact absurd ‹_› not_false
      | create node hnode hvpc =>
          rcases hnode with rfl | ⟨sched, nodes, hsched, hnodes, rfl⟩
          · simp [Pod.isOn, Pod.assign, Api.requestedPod] at hon
          · cases turn with
            | none => exact nomatch hsched
            | some turn =>
                obtain rfl := Option.some_inj.mp hsched
                exact sawRoom_of_schedule rfl hnodes hon
  | replicaSets env turn =>
      cases h with
      | create ns key id now rs nodes hseen hnodes => exact sawRoom_of_schedule rfl hnodes hon
  | jobs env turn =>
      cases h with
      | create ns key id now job job' nodes hseen hjob hnodes =>
          exact sawRoom_of_schedule rfl hnodes hon
  | heartbeat nodeName now => exact absurd h not_nodeOp_pod
  | register joinToken issued id now payload => exact absurd h not_nodeOp_pod

/-- A node is put under its name, or under the key of a node that has been seen. -/
theorem key_of_put_node {t : BindTask} {seen : Seen String Object} {k : String} {node : Node}
    (h : t.task.Does seen (.put k (.node node))) :
    k = nodeKey node.name ∨ ∃ old, seen.Ever k (.node old) ∧ node.name = old.name := by
  have hnode : NodeOp seen (.put k (.node node)) := by
    cases t with
    | createPod turn ns id now body =>
        cases h with
        | read ho => exact absurd ‹_› not_false
    | replicaSets env turn => exact nomatch h
    | jobs env turn => exact nomatch h
    | heartbeat nodeName now => exact h
    | register joinToken issued id now payload => exact h
  cases hnode with
  | read ho => exact absurd ‹_› not_false
  | keep _ old _ hseen hsame => exact Or.inr ⟨old, Seen.Ever.of_last hseen, hsame.1⟩
  | create => exact Or.inl rfl

/-! ## Every run -/

/-- What holds in every state. -/
structure FitsInv (pool : BindPool) : Prop where
  disciplined : pool.Disciplined (fun t => t.task.Does) fun _ _ _ => True
  registered : ∀ k node, pool.store.lookup k = some (.node node) → k = nodeKey node.name
  seen : ∀ tid th k node, pool.threads tid = some th → th.seen.Ever k (.node node) →
    k = nodeKey node.name
  fits : ∀ k node, pool.store.lookup k = some (.node node) → ∀ r : Resource,
    r.amount node.capacity ≠ 0 → bound r node.name pool.store ≤ (r.amount node.capacity).toNat

variable {tid : ℕ} {outcome : Outcome} {t : BindTask} {o : Op String Object}
  {cont : o.Answer → Program Unit} {seen : Seen String Object}

theorem FitsInv.key_of_put {k : String} {node : Node} (h : pool.FitsInv)
    {cont : (Op.put k (Object.node node)).Answer → Program Unit}
    (hthread : pool.threads tid = some ⟨t, .op (.put k (.node node)) cont, seen⟩) :
    k = nodeKey node.name := by
  rcases key_of_put_node (h.disciplined.next hthread) with hkey | ⟨old, hold, hname⟩
  · exact hkey
  · rw [hname]
    exact h.seen tid _ k old hthread hold

/-- **An accounted operation** leaves what is bound to a stored node within its capacity. -/
theorem FitsInv.bound_apply (h : pool.FitsInv)
    (hthread : pool.threads tid = some ⟨t, .op o cont, seen⟩)
    (hs : pool.Accounted (.advance tid outcome)) {k : String} {node : Node} {r : Resource}
    (hnode : pool.store.lookup k = some (.node node)) (hcapacity : r.amount node.capacity ≠ 0) :
    bound r node.name (o.apply pool.store outcome) ≤ (r.amount node.capacity).toNat := by
  have hfits := h.fits k node hnode r hcapacity
  rcases bound_apply_le r node.name pool.store o outcome with hle | ⟨k', q, rfl, hon, hle⟩
  · exact hle.trans hfits
  · -- A pod is bound to the node; the task has seen the node under its key.
    obtain ⟨k₀, seenNode, hever, hname, heligible⟩ :=
      sawRoom_of_put (h.disciplined.next hthread) hon
    have hk₀ : k₀ = nodeKey node.name := hname ▸ h.seen tid _ k₀ seenNode hthread hever
    simp only [Accounted, hthread] at hs
    obtain ⟨hallocated, hsame⟩ := hs.2 node.name (Pod.nodeName_of_isOn hon) hon
      (some (.node seenNode)) (hk₀ ▸ hever) seenNode rfl r
    have hcap : node.capacity = seenNode.capacity :=
      hsame node (by rw [← h.registered k node hnode, hnode]; rfl)
    have hroom := r.hasRoom_of_isNodeEligible heligible
    rw [← PodSpec.toNat_request (hs.1 r)] at hle
    rcases le_of_hasRoom hroom (hcap ▸ hcapacity) with hroom | hzero
    · rw [hcap]
      omega
    · omega

/-- **An accounted step** keeps all that. -/
theorem FitsInv.next (h : pool.FitsInv) {s : PoolStep BindTask} (hs : pool.Accounted s) :
    (pool.next s).FitsInv := by
  have hregistered : ∀ k node, (pool.next s).store.lookup k = some (.node node) →
      k = nodeKey node.name := by
    intro k node hnode
    rcases Pool.lookup_step hnode with hold | ⟨tid, outcome, t, cont, seen, rfl, hthread⟩
    · exact h.registered k node hold
    · exact h.key_of_put hthread
  refine ⟨h.disciplined.step (fun t => t.task.code_ops) s, hregistered, ?_, ?_⟩
  · intro tid th k node hth hseen
    rcases Pool.ever_step hth hseen with ⟨th', hth', hever⟩ | hold | hnew
    · exact h.seen tid th' k node hth' hever
    · exact h.registered k node hold
    · exact hregistered k node hnew
  · intro k node hnode r hcapacity
    rcases @Pool.step_cases _ _ _ _ _ BindTask.code pool s with ⟨tid, task, -, -, hstep⟩ |
      ⟨tid, outcome, t, o, cont, seen, rfl, hthread, hstep⟩ | hstep
    · rw [BindPool.next, hstep] at hnode ⊢
      exact h.fits k node hnode r hcapacity
    · rw [BindPool.next, hstep] at hnode ⊢
      rcases o.lookup_apply pool.store outcome k with hkeep | ⟨v, rfl, hput⟩ | ⟨rfl, hgone⟩
      · exact h.bound_apply hthread hs (hkeep ▸ hnode) hcapacity
      · -- The node has just been written.
        obtain rfl : v = .node node := Option.some_inj.mp (hput.symm.trans hnode)
        refine (bound_apply_node r node.name pool.store k node outcome).trans ?_
        simp only [Accounted, hthread] at hs
        rcases hs with ⟨stored, hstored, hsame⟩ | hnone
        · obtain ⟨w, hw, hwnode⟩ := Option.bind_eq_some_iff.mp hstored
          rw [Object.asNode_eq_some.mp hwnode] at hw
          have hname : nodeKey node.name = nodeKey stored.name :=
            (h.key_of_put hthread).symm.trans (h.registered k stored hw)
          rw [nodeKey_injective hname, ← hsame]
          exact h.fits k stored hw r (hsame ▸ hcapacity)
        · rw [hnone r]
          exact Nat.zero_le _
      · exact nomatch hgone.symm.trans hnode
    · rw [BindPool.next, hstep] at hnode ⊢
      exact h.fits k node hnode r hcapacity

theorem not_overflows {s : PoolStep BindTask} (hs : pool.Accounted s) : ¬pool.Overflows s := by
  intro hover
  cases s with
  | spawn tid t => exact hover
  | advance tid outcome =>
      simp only [Overflows] at hover
      split at hover
      · rename_i hthread
        obtain ⟨r, hne⟩ := hover
        simp only [Accounted, hthread] at hs
        exact hne (PodSpec.toNat_request (hs.1 r))
      · exact hover

theorem fitsInv_idle {store : Registry} (hregistered : Cordoning.Registered store)
    (hstore : NotOvercommitted store) : FitsInv (Pool.idle store) where
  disciplined := Pool.disciplined_idle _ _ store
  registered _ node hnode := hregistered _ (KeyValue.lookup_eq_some.mp hnode) node rfl
  seen _ _ _ _ hth := nomatch hth
  fits _ node hnode := hstore _ (KeyValue.lookup_eq_some.mp hnode) node rfl

end BindPool

open BindPool in
/-- **No node is overcommitted.**  From every store whose nodes are registered under their names
and have room for their pods, along every run whose steps are accounted for, no node is
overcommitted, and no sum of the scheduler overflows. -/
theorem nodes_not_overcommitted (store : Registry) (hregistered : Cordoning.Registered store)
    (hstore : NotOvercommitted store) (steps : List (PoolStep BindTask))
    (h : Admitted next Accounted (Pool.idle store) steps) :
    Along next (fun pool => NotOvercommitted pool.store) (Pool.idle store) steps ∧
      Admitted next (fun pool s => ¬pool.Overflows s) (Pool.idle store) steps := by
  have hkeep : ∀ (pool : BindPool) s, pool.Accounted s → pool.FitsInv → (pool.next s).FitsInv :=
    fun _ _ hs hinv => hinv.next hs
  have hstart := fitsInv_idle hregistered hstore
  refine ⟨(along_of_admitted FitsInv hkeep hstart h).mono ?_, ?_⟩
  · rintro pool hinv ⟨k, v⟩ hmem node hv
    obtain rfl := Object.asNode_eq_some.mp hv
    exact hinv.fits k node (KeyValue.lookup_eq_some.mpr hmem)
  · exact Admitted.mono FitsInv hkeep (fun _ _ _ hs => not_overflows hs) hstart h

/-! ## Two pods on a node that has room for one -/

/-- A node with one CPU. -/
def smallNode : Node := { worker with capacity := ⟨1000, 0⟩ }

/-- A store with that node. -/
def smallStore : Registry := KeyValue.insert ∅ (nodeKey "worker") (.node smallNode)

/-- A container that asks for some CPU. -/
def container (cpuMillis : UInt64) : ContainerSpec := ⟨"app", "nginx", [], [], [], ⟨cpuMillis, 0⟩, []⟩

/-- A pod with two containers. -/
def twoContainers (name : String) (cpuMillis : UInt64) : Pod :=
  { scheduledPod with
    name := name
    spec := { emptyTemplate with containers := [container cpuMillis, container cpuMillis] }
    nodeName := none }

/-- A request for such a pod, from the beginning to the end. -/
def createTwo (tid : ℕ) (name : String) (cpuMillis : UInt64) : List (PoolStep BindTask) :=
  [.spawn tid (.createPod (some fun _ => 0) "default" name 0 (twoContainers name cpuMillis)),
   .advance tid .ok, .advance tid .ok, .advance tid .ok]

open BindPool in
/-- A pod that fits, and a heartbeat. -/
theorem nodes_not_overcommitted_createTwo :
    Along next (fun pool => NotOvercommitted pool.store) (Pool.idle smallStore)
        (createTwo 0 "a" 300 ++ [.spawn 1 (.heartbeat "worker" 5), .advance 1 .ok, .advance 1 .ok]) ∧
      Admitted next (fun pool s => ¬pool.Overflows s) (Pool.idle smallStore)
        (createTwo 0 "a" 300 ++ [.spawn 1 (.heartbeat "worker" 5), .advance 1 .ok, .advance 1 .ok]) :=
  nodes_not_overcommitted smallStore (by unfold Cordoning.Registered; decide)
    (by decide) _ (by decide)

open BindPool in
/-- Two pods are bound that do not fit together, and a pod that asks for more than all nodes can
have passes for one that asks for nothing. -/
theorem nodes_overcommitted :
    Cordoning.Registered smallStore ∧ NotOvercommitted smallStore ∧
      ¬Along next (fun pool => NotOvercommitted pool.store) (Pool.idle smallStore)
        (createTwo 0 "a" 300 ++ createTwo 1 "b" 300) ∧
      ¬Admitted next (fun pool s => ¬pool.Overflows s) (Pool.idle smallStore)
        (createTwo 0 "a" (2 ^ 63)) := by
  refine ⟨by unfold Cordoning.Registered; decide, by decide, fun h => ?_,
    by decide +kernel⟩
  exact absurd (h _ (List.prefix_refl _)) (by decide)

end K3rs
