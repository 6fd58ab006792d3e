import K3rs.Cluster.Capacity
import K3rs.Cluster.ReplicaPasses

/-!
# What the ReplicaSet controller repairs

A pass of the ReplicaSet controller counts the pods of a ReplicaSet, whatever has become of them.
It creates a pod for each that is missing, and if a node is eligible, the new pods get a node.  A pod
that has failed, or that an eviction has left without a node, is not missing, so that nobody
replaces it and nobody finds a node for it.

So a pass leaves a ReplicaSet with all its pods healthy exactly if those that it keeps are healthy
(`self_healing_iff`).
-/

namespace K3rs

open Programs Transition

/-- The pod has a node, and it is on its way to running there. -/
def Pod.isHealthy (p : Pod) : Bool :=
  p.nodeName.isSome &&
    (decide (p.status = .scheduled) || decide (p.status = .containerCreating) ||
      decide (p.status = .running))

/-- How many of the pods are healthy. -/
def healthyCount (pods : List (String × Pod)) : ℕ := pods.countP fun e => e.2.isHealthy

/-- The ReplicaSet has as many healthy pods as it asks for. -/
def Healed (ns : String) (rs : ReplicaSet) (s : Registry) : Prop :=
  rs.spec.replicas.toNat ≤ healthyCount (podsIn rs.id ns s)

/-- Of the pods that a pass keeps as many are healthy as it counts on; a ReplicaSet that no pass
comes upon has to be healed. -/
def KeepsHealthy (ns : String) (rs : ReplicaSet) (s : Registry) : Prop :=
  if ns ∈ namespacesIn s then
    min (counted (podsIn rs.id ns s)) rs.spec.replicas.toNat ≤
      healthyCount (keptPods rs (podsIn rs.id ns s))
  else Healed ns rs s

/-- One of the nodes is eligible for the template of the ReplicaSet. -/
def HasEligibleNode (rs : ReplicaSet) (s : Registry) : Prop :=
  ∃ node ∈ nodesIn s, isNodeEligible node (newPod rs.id rs.createdAt rs.ns rs) = true

instance (ns : String) (rs : ReplicaSet) (s : Registry) : Decidable (Healed ns rs s) :=
  inferInstanceAs (Decidable (_ ≤ _))

instance (rs : ReplicaSet) (s : Registry) : Decidable (HasEligibleNode rs s) :=
  inferInstanceAs (Decidable (∃ node ∈ nodesIn s, _))

section Healing

variable {env : PassEnv} {turn : Pod → ℕ} {ns k : String} {rs : ReplicaSet} {s : Registry}

/-- **A new pod is healthy**, if a node is eligible for it. -/
theorem IsNewPod.isHealthy {p : Pod} (h : IsNewPod (env.scheduling turn) ns k rs (nodesIn s) p)
    (hnode : HasEligibleNode rs s) : p.isHealthy = true := by
  obtain ⟨i, rfl⟩ := h
  obtain ⟨node, hmem, heligible⟩ := hnode
  obtain ⟨p, hp⟩ : ∃ p, p = newPod ((env.scheduling turn).uuid k i) ((env.scheduling turn).now k i) ns rs :=
    ⟨_, rfl⟩
  have hspec : p.spec = (newPod rs.id rs.createdAt rs.ns rs).spec := hp ▸ rfl
  rw [← isNodeEligible_congr hspec] at heligible
  have hsome : (schedule (turn p) p (nodesIn s)).isSome = true := schedule_isSome hmem heligible
  obtain ⟨nodeName, hnodeName⟩ := Option.isSome_iff_exists.mp hsome
  have hplaced : p.place (env.scheduling turn) (nodesIn s) = p.assign (some nodeName) :=
    congrArg p.assign hnodeName
  rw [← hp, hplaced]
  rfl

/-- **What a pass repairs**: it adds healthy pods to those that it keeps. -/
theorem Rescaled.le_healthyCount_iff {pods pods' : List (String × Pod)}
    (h : Rescaled (env.scheduling turn) ns k rs (nodesIn s) pods pods')
    (hnode : HasEligibleNode rs s) :
    rs.spec.replicas.toNat ≤ healthyCount pods' ↔
      min (counted pods) rs.spec.replicas.toNat ≤ healthyCount (keptPods rs pods) := by
  obtain ⟨new, hperm, hlength, hnew⟩ := h
  have hcount : healthyCount new = new.length :=
    List.countP_eq_length.mpr fun e he => (hnew e he).isHealthy hnode
  have hsum : healthyCount pods' = new.length + healthyCount (keptPods rs pods) := by
    rw [healthyCount, hperm.countP_eq, List.countP_append]
    exact congrArg (· + _) hcount
  rw [hsum, hlength]
  omega

/-- **A ReplicaSet is healed by a pass** exactly if what the pass keeps is healthy. -/
theorem healed_afterReplicaSets_iff (htracked : Tracked ns [(k, rs)] s) (hnode : HasEligibleNode rs s)
    (hfresh : FreshPass (env.scheduling turn) s) :
    Healed ns rs (afterReplicaSets (env.scheduling turn) s) ↔ KeepsHealthy ns rs s := by
  have hprogress := progress_afterReplicaSets htracked hfresh
  have hmem : (k, rs) ∈ [(k, rs)] := List.mem_singleton_self _
  rw [KeepsHealthy]
  split_ifs with hns
  · exact (hprogress.finished _ hmem hns).le_healthyCount_iff hnode
  · rw [Healed, (hprogress.waiting _ hmem hns).2.podsIn_eq]
    rfl

end Healing

/-- **Self-healing.**  In every state of every run of requests, reports and passes, a pass of the
ReplicaSet controller that runs alone leaves a ReplicaSet with as many healthy pods as it asks for,
if and only if the pods that it keeps are healthy. -/
theorem self_healing_iff (store : Registry) (steps : List (PoolStep PodTask)) (env : PassEnv)
    (turn : Pod → ℕ) (ns k : String) (rs : ReplicaSet)
    (htracked : Tracked ns [(k, rs)] (run PodPool.next (Pool.idle store) steps).store)
    (hnode : HasEligibleNode rs (run PodPool.next (Pool.idle store) steps).store)
    (hfresh : FreshPass (env.scheduling turn) (run PodPool.next (Pool.idle store) steps).store) :
    Healed ns rs (afterReplicaSets (env.scheduling turn)
        (run PodPool.next (Pool.idle store) steps).store) ↔
      KeepsHealthy ns rs (run PodPool.next (Pool.idle store) steps).store :=
  healed_afterReplicaSets_iff htracked hnode hfresh

/-! ## A pod that failed, and a pod that was evicted -/

/-- A ReplicaSet with one replica. -/
def loneReplicaSet : ReplicaSet :=
  { newReplicaSet "rs1" 0 "default" webDeployment "h" 1 with name := "web" }

/-- A request of a node to be registered. -/
def registration (nodeName : String) : NodeRegistrationRequest where
  token := "join"
  nodeName := nodeName
  address := "10.0.0.1"
  labels := []
  capacity := none
  wgPublicKey := none
  wgListenPort := none

/-- The environment of the first pass. -/
def firstEnv : PassEnv := quietEnv.scheduling fun _ => 0

/-- Two nodes are registered, a ReplicaSet is created, and a pass creates its pod. -/
def firstPass : List (PoolStep PodTask) :=
  [.spawn 0 (.write "/registry/namespaces/default" (.other "") rfl), .advance 0 .ok,
   .spawn 1 (.register "join" true "n1" 0 (registration "a")), .advance 1 .ok, .advance 1 .ok,
   .spawn 2 (.register "join" true "n2" 0 (registration "b")), .advance 2 .ok, .advance 2 .ok,
   .spawn 3 (.write (replicaSetKey "default" "web") (.replicaSet loneReplicaSet) rfl), .advance 3 .ok,
   .spawn 4 (.replicaSets firstEnv), .advance 4 .ok, .advance 4 .ok, .advance 4 .ok, .advance 4 .ok,
   .advance 4 .ok, .advance 4 .ok, .advance 4 .ok]

/-- The pod fails. -/
def failureReported : List (PoolStep PodTask) :=
  firstPass ++ [.spawn 5 (.reportStatus "a" "default" "web-rs1" .failed), .advance 5 .ok,
    .advance 5 .ok, .advance 5 .ok]

/-- The node of the pod is drained. -/
def nodeDrained : List (PoolStep PodTask) :=
  firstPass ++ [.spawn 5 (.drain "a"), .advance 5 .ok, .advance 5 .ok, .advance 5 .ok, .advance 5 .ok]

/-- The ReplicaSet after the first pass. -/
def scheduledReplicaSet : ReplicaSet := { loneReplicaSet with status := ⟨1, 1, 0⟩ }

/-- The pod is on its way to running. -/
theorem self_healing_iff_firstPass :
    Healed "default" scheduledReplicaSet (afterReplicaSets firstEnv
        (run PodPool.next (Pool.idle ∅) firstPass).store) ↔
      KeepsHealthy "default" scheduledReplicaSet (run PodPool.next (Pool.idle ∅) firstPass).store := by
  have hrun : Tracked "default" [(replicaSetKey "default" "web", scheduledReplicaSet)]
        (run PodPool.next (Pool.idle ∅) firstPass).store ∧
      HasEligibleNode scheduledReplicaSet (run PodPool.next (Pool.idle ∅) firstPass).store ∧
      FreshPass (quietEnv.scheduling fun _ => 0) (run PodPool.next (Pool.idle ∅) firstPass).store := by
    decide
  exact self_healing_iff ∅ firstPass quietEnv (fun _ => 0) "default" (replicaSetKey "default" "web")
    scheduledReplicaSet hrun.1 hrun.2.1 hrun.2.2

/-- A pod that has failed is not replaced, and a pod that was evicted does not get another node. -/
theorem self_healing_fails :
    (Tracked "default" [(replicaSetKey "default" "web", scheduledReplicaSet)]
        (run PodPool.next (Pool.idle ∅) failureReported).store ∧
      HasEligibleNode scheduledReplicaSet (run PodPool.next (Pool.idle ∅) failureReported).store ∧
      FreshPass firstEnv (run PodPool.next (Pool.idle ∅) failureReported).store ∧
      ¬Healed "default" scheduledReplicaSet (afterReplicaSets firstEnv
        (run PodPool.next (Pool.idle ∅) failureReported).store)) ∧
    Tracked "default" [(replicaSetKey "default" "web", scheduledReplicaSet)]
        (run PodPool.next (Pool.idle ∅) nodeDrained).store ∧
      HasEligibleNode scheduledReplicaSet (run PodPool.next (Pool.idle ∅) nodeDrained).store ∧
      FreshPass firstEnv (run PodPool.next (Pool.idle ∅) nodeDrained).store ∧
      ¬Healed "default" scheduledReplicaSet (afterReplicaSets firstEnv
        (run PodPool.next (Pool.idle ∅) nodeDrained).store) := by
  -- What a run leaves is evaluated once for all that is said of it.
  exact ⟨by decide, by decide⟩

end K3rs
