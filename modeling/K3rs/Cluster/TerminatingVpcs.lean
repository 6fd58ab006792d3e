import K3rs.Cluster.PodStates

/-!
# Pods of a VPC that is being deleted

A VPC that is terminating gets no new pods.  `create_pod` looks at the VPC before it puts the pod,
and the controllers do not look at it at all.

* `terminating_vpc_gets_no_pods`: in every run in which `create_pod` has read the status that the
  VPC still has at its put, no controller creates a pod of a template whose VPC is terminating, and
  nobody puts back a pod that has been removed, no pod of a terminating VPC is newly stored.
-/

namespace K3rs

open Programs Transition

namespace PodPool

variable (pool : PodPool)

/-- The VPC of a pod is terminating. -/
def Terminating (store : Registry) (q : Pod) : Prop :=
  ∃ vpc ∈ (store.lookup (vpcKey q.spec.vpcName)).bind Object.asVpc, vpc.status = .terminating

instance (store : Registry) (q : Pod) : Decidable (Terminating store q) :=
  inferInstanceAs (Decidable (∃ vpc ∈ (store.lookup (vpcKey q.spec.vpcName)).bind Object.asVpc,
    vpc.status = .terminating))

/-- The pod is stored under the key. -/
def Stores (store : Registry) (k : String) (q : Pod) : Prop :=
  ∃ p ∈ (store.lookup k).bind Object.asPod, p.id = q.id

instance (store : Registry) (k : String) (q : Pod) : Decidable (Stores store k q) :=
  inferInstanceAs (Decidable (∃ p ∈ (store.lookup k).bind Object.asPod, p.id = q.id))

/-- The step stores a pod that was not there, and its VPC is terminating. -/
def StoresTerminating (s : PoolStep PodTask) : Prop :=
  ∃ e ∈ (pool.next s).store.rows, ∃ q ∈ e.2.asPod, ¬Stores pool.store e.1 q ∧
    Terminating pool.store q

instance (s : PoolStep PodTask) : Decidable (pool.StoresTerminating s) :=
  inferInstanceAs (Decidable (∃ e ∈ (pool.next s).store.rows, ∃ q ∈ e.2.asPod,
    ¬Stores pool.store e.1 q ∧ Terminating pool.store q))

/-- The condition on a step.  `create_pod` has read the status that its VPC has when it puts the
pod; a controller that creates a pod finds the VPC not terminating; and whoever puts back a pod
finds it stored. -/
def Checked : PoolStep PodTask → Prop
  | .spawn _ _ => True
  | .advance tid _ =>
      match pool.threads tid with
      | some ⟨.createPod _ _ _ _ _, .op (.put _ (.pod q)) _, seen⟩ =>
          ∀ vpc ∈ (pool.store.lookup (vpcKey q.spec.vpcName)).bind Object.asVpc,
            ∃ vpc' ∈ (seen.last (vpcKey q.spec.vpcName)).bind Object.asVpc, vpc'.status = vpc.status
      | some ⟨task, .op (.put k (.pod q)) _, _⟩ =>
          if task.creates then ¬Terminating pool.store q else Stores pool.store k q
      | _ => True

instance (s : PoolStep PodTask) : Decidable (pool.Checked s) :=
  match s with
  | .spawn _ _ => inferInstanceAs (Decidable True)
  | .advance tid _ => by
      dsimp only [Checked]
      generalize pool.threads tid = th
      split <;> infer_instance

variable {pool}

/-- **A checked step.** -/
theorem not_storesTerminating (hpool : pool.Disciplined PodTask.Does fun _ _ _ => True)
    {s : PoolStep PodTask} (hs : pool.Checked s) : ¬pool.StoresTerminating s := by
  rintro ⟨⟨k, v⟩, hmem, q, hv, hnew, hterminating⟩
  have hq : (pool.next s).store.lookup k = some (.pod q) :=
    Object.asPod_eq_some.mp hv ▸ KeyValue.lookup_eq_some.mpr hmem
  rcases Pool.lookup_step hq with hold | ⟨tid, outcome, task, next, seen, rfl, hthread⟩
  · exact hnew ⟨q, by rw [hold]; rfl, rfl⟩
  · have hdoes := hpool.next hthread
    simp only [Checked, hthread] at hs
    cases task with
    | createPod scheduler ns id now body =>
        -- The request has read an active VPC.
        obtain ⟨vpc, hvpc, hstatus⟩ := hterminating
        obtain ⟨vpc', hvpc', hsame⟩ := hs vpc hvpc
        cases hdoes with
        | read ho => exact absurd ‹_› not_false
        | create node hnode hactive =>
            obtain ⟨w, hw, hwvpc⟩ := Option.bind_eq_some_iff.mp hvpc'
            rw [Object.asVpc_eq_some.mp hwvpc, Pod.spec_assign] at hw
            have := hactive vpc' (Seen.Ever.of_last hw)
            rw [hsame, hstatus] at this
            cases this
    | replicaSets env => exact hs hterminating
    | jobs env => exact hs hterminating
    | daemonSets env => exact hs hterminating
    | drain nodeName => exact hnew hs
    | evictions now => exact hnew hs
    | reportStatus nodeName ns podName status => exact hnew hs
    | reportVpc nodeName ns podName ghostIpv6 vpcName => exact hnew hs
    | _ => exact hnew hs

end PodPool

open PodPool in
/-- **A terminating VPC gets no new pods**, in every run whose steps are checked. -/
theorem terminating_vpc_gets_no_pods (store : Registry) (steps : List (PoolStep PodTask))
    (h : Admitted next Checked (Pool.idle store) steps) :
    Admitted next (fun pool s => ¬pool.StoresTerminating s) (Pool.idle store) steps :=
  Admitted.mono (fun pool : PodPool => pool.Disciplined PodTask.Does fun _ _ _ => True)
    (fun _ s _ hpool => hpool.step PodTask.code_ops s)
    (fun _ _ hpool hs => not_storesTerminating hpool hs) (Pool.disciplined_idle _ _ store) h

/-! ## A ReplicaSet of a deleted VPC -/

/-- A VPC. -/
def blueVpc : VpcRecord := { name := "blue", vpcId := 2, ipv4Cidr := "10.50.0.0/16", status := .active }

/-- A template whose pods are in the VPC. -/
def blueTemplate : PodSpec := ⟨[], none, [], [], [], some "blue"⟩

/-- A ReplicaSet with one replica in the VPC. -/
def blueReplicaSet : ReplicaSet where
  id := "rs1"
  name := "web-abc"
  ns := "default"
  spec := ⟨1, [], blueTemplate⟩
  status := ReplicaSetStatus.default
  ownerRef := none
  templateHash := "abc"
  createdAt := 0

/-- A store with the VPC and the ReplicaSet. -/
def blueStore : Registry :=
  ((KeyValue.insert ∅ "/registry/namespaces/default" (.other "")).insert (vpcKey "blue")
    (.vpc blueVpc)).insert (replicaSetKey "default" "web-abc") (.replicaSet blueReplicaSet)

/-- The pod of a request, in the VPC. -/
def bluePod : Pod := { scheduledPod with spec := blueTemplate, nodeName := none }

/-- A pod is requested, and then the VPC is deleted. -/
def createThenDelete : List (PoolStep PodTask) :=
  [.spawn 0 (.createPod none "default" "p2" 0 bluePod), .advance 0 .ok, .advance 0 .ok,
   .spawn 1 (.deleteVpc "blue"), .advance 1 .ok, .advance 1 .ok]

open PodPool in
theorem terminating_vpc_gets_no_pods_createThenDelete :
    Admitted next (fun pool s => ¬pool.StoresTerminating s) (Pool.idle blueStore) createThenDelete :=
  terminating_vpc_gets_no_pods blueStore _ (by decide)

/-- The VPC is deleted, and then the ReplicaSet controller makes a pass. -/
def deleteThenPass : List (PoolStep PodTask) :=
  [.spawn 1 (.deleteVpc "blue"), .advance 1 .ok, .advance 1 .ok,
   .spawn 2 (.replicaSets quietEnv), .advance 2 .ok, .advance 2 .ok, .advance 2 .ok, .advance 2 .ok,
   .advance 2 .ok]

/-- The VPC is deleted between the check of `create_pod` and its put. -/
def deleteDuringCreate : List (PoolStep PodTask) :=
  [.spawn 0 (.createPod none "default" "p2" 0 bluePod), .advance 0 .ok,
   .spawn 1 (.deleteVpc "blue"), .advance 1 .ok, .advance 1 .ok, .advance 0 .ok]

open PodPool in
/-- The ReplicaSet controller creates a pod in the VPC that is being deleted, and so does a request
that has looked at the VPC before. -/
theorem terminating_vpc_gets_pods :
    ¬Admitted next (fun pool s => ¬pool.StoresTerminating s) (Pool.idle blueStore) deleteThenPass ∧
      ¬Admitted next (fun pool s => ¬pool.StoresTerminating s) (Pool.idle blueStore)
        deleteDuringCreate :=
  ⟨by decide, by decide⟩

end K3rs
