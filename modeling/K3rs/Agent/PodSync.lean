import Mathlib.Data.List.AList
import K3rs.Cluster.Objects
import K3rs.Lib.Transition

/-!
# The pod sync loop and its lifecycle tasks

A pass of the loop fetches the pods of the node, checks the containers of those that run, and spawns
a task for each pod that waits for its container.  The set `in_flight` keeps a pod from getting a
second task: a pass enters its id when it spawns the task, and the task takes it out again.

Passes, tasks and the server take their steps in any order; a pass works on a list that may be old.

* `lifecycle_exclusive`: tasks exclude each other as long as images are pulled, containers are
  created, and no pass takes up a pod whose last task has left the set but whose `Running` report is
  still missing.
* Without this they do not (`lifecycle_exclusive_fails`): a task that fails to pull or create leaves
  its id in the set for good, and one that succeeds takes it out before it reports.
-/

namespace K3rs

open Transition

/-! ## Lifecycle tasks -/

/-- What becomes of a call in a task; a transient error matters for the allocation only. -/
inductive TaskOutcome where
  | ok
  | transient
  | failed
  deriving DecidableEq, Repr

/-- Where a task is: the call that it makes next. -/
inductive LifecyclePhase where
  | allocating
  /-- The allocation failed, which is to be reported. -/
  | rejected
  /-- The allocation failed; the id is to be taken out. -/
  | leaving
  | pulling
  | creating
  | starting
  /-- The start failed; the id is to be taken out. -/
  | unstarted
  /-- A call failed, which is to be reported. -/
  | broken
  /-- The container runs; the id is to be taken out. -/
  | started
  | reporting
  /-- The VPC is to be reported; whether the status `Running` has been applied. -/
  | reportingVpc (applied : Bool)
  | ended
  | succeeded (applied : Bool)
  deriving DecidableEq, Repr

/-- What a call changes besides the phase. -/
inductive TaskEffect where
  | nothing
  | lease
  | leave
  | report (status : PodStatus)
  | reportVpc
  deriving DecidableEq, Repr

/-- A task, with the pod as it was fetched. -/
structure LifecycleTask where
  pod : Pod
  phase : LifecyclePhase
  deriving DecidableEq, Repr

namespace LifecyclePhase

/-- `run_pod_lifecycle`, one call after the other. -/
def next : LifecyclePhase → TaskOutcome → LifecyclePhase × TaskEffect
  | .allocating, .ok => (.pulling, .lease)
  | .allocating, .transient => (.leaving, .nothing)
  | .allocating, .failed => (.rejected, .nothing)
  | .rejected, .ok => (.leaving, .report .failed)
  | .rejected, _ => (.leaving, .nothing)
  | .leaving, _ => (.ended, .leave)
  | .pulling, .ok => (.creating, .nothing)
  | .pulling, _ => (.broken, .nothing)
  | .creating, .ok => (.starting, .nothing)
  | .creating, _ => (.broken, .nothing)
  | .starting, .ok => (.started, .nothing)
  | .starting, _ => (.unstarted, .nothing)
  | .unstarted, _ => (.broken, .leave)
  | .broken, .ok => (.ended, .report .failed)
  | .broken, _ => (.ended, .nothing)
  | .started, _ => (.reporting, .leave)
  | .reporting, .ok => (.reportingVpc true, .report .running)
  | .reporting, _ => (.reportingVpc false, .nothing)
  | .reportingVpc applied, .ok => (.succeeded applied, .reportVpc)
  | .reportingVpc applied, _ => (.succeeded applied, .nothing)
  | .ended, _ => (.ended, .nothing)
  | .succeeded applied, _ => (.succeeded applied, .nothing)

/-- The task is not over. -/
def isRunning : LifecyclePhase → Bool
  | .ended => false
  | .succeeded _ => false
  | _ => true

/-- The task has still to take its id out of the set. -/
def holds : LifecyclePhase → Bool
  | .allocating | .rejected | .leaving | .pulling | .creating | .starting | .unstarted | .started =>
      true
  | _ => false

/-- The task has failed, or the status `Running` that it reports has been applied. -/
def isResolved : LifecyclePhase → Bool
  | .rejected | .leaving | .unstarted | .broken | .ended => true
  | .reportingVpc applied => applied
  | .succeeded applied => applied
  | _ => false

end LifecyclePhase

/-! ## Passes -/

namespace Pod

/-- The VPC in which an address is allocated for a pod. -/
def allocationVpc (pod : Pod) : String := pod.spec.vpc.getD DEFAULT_VPC_NAME

/-- The VPC in which its address is released. -/
def releaseVpc (pod : Pod) : String := (pod.vpcName <|> pod.spec.vpc).getD DEFAULT_VPC_NAME

/-- The pod waits for its container. -/
def isSchedulable (pod : Pod) : Bool :=
  decide (pod.status = .scheduled) || decide (pod.status = .containerCreating)

/-- Both have one key in the store. -/
def hasKeyOf (pod pod' : Pod) : Bool := decide (pod.ns = pod'.ns) && decide (pod.name = pod'.name)

end Pod

/-- The state of a container: what `container_state` says. -/
inductive ContainerState where
  | running
  | stopped
  | missing
  deriving DecidableEq, Repr

/-- Where a pass is. -/
inductive PassPhase where
  | idle
  /-- `check_running_pods`, with the pods that are left. -/
  | checking (pods todo : List Pod)
  /-- A pod whose container is gone is to be reported. -/
  | failing (pod : Pod) (pods todo : List Pod)
  /-- `schedule_new_pods`, with the pods that are left. -/
  | scheduling (todo : List Pod)
  deriving DecidableEq, Repr

/-- The pod that the pass takes up next. -/
def PassPhase.upNext : PassPhase → Option Pod
  | .scheduling (pod :: _) => some pod
  | _ => none

theorem PassPhase.exists_of_upNext {phase : PassPhase} {pod : Pod} (h : pod ∈ phase.upNext) :
    ∃ todo, phase = .scheduling (pod :: todo) := by
  unfold PassPhase.upNext at h
  split at h
  · obtain rfl := Option.some_inj.mp h
    exact ⟨_, rfl⟩
  · exact nomatch h

/-- The server, the agent and the leases of its pods: by pod id and VPC name, whether a release has
been sent since the allocation. -/
structure PodSyncState where
  server : List Pod
  inFlight : Finset String
  tasks : List LifecycleTask
  pass : PassPhase
  leases : AList fun _ : String × String => Bool

/-- A step. -/
inductive PodSyncStep where
  /-- Others change the pods of the node. -/
  | change (pods : List Pod)
  | fetch
  | check (state : ContainerState) (released : Bool)
  | report (applied : Bool)
  | schedule
  | advance (i : ℕ) (outcome : TaskOutcome)
  deriving DecidableEq, Repr

namespace PodSyncState

variable (s : PodSyncState)

/-- `update_pod_status`. -/
def putStatus (pod : Pod) (status : PodStatus) : List Pod :=
  s.server.map fun p => if p.hasKeyOf pod then { p with status := status } else p

/-- `update_pod_vpc`, without the address. -/
def putVpc (pod : Pod) : List Pod :=
  s.server.map fun p => if p.hasKeyOf pod then { p with vpcName := some pod.allocationVpc } else p

/-- A call of a task takes effect. -/
def perform (pod : Pod) : TaskEffect → PodSyncState
  | .nothing => s
  | .lease => { s with leases := s.leases.insert (pod.id, pod.allocationVpc) false }
  | .leave => { s with inFlight := s.inFlight.erase pod.id }
  | .report status => { s with server := s.putStatus pod status }
  | .reportVpc => { s with server := s.putVpc pod }

/-- A task makes its next call. -/
def advance (i : ℕ) (t : LifecycleTask) (outcome : TaskOutcome) : PodSyncState :=
  let moved := t.phase.next outcome
  { s.perform t.pod moved.2 with tasks := s.tasks.set i { t with phase := moved.1 } }

/-- A release is sent; if the daemon refuses it, the lease stays. -/
def release (pod : Pod) (released : Bool) : PodSyncState :=
  match s.leases.lookup (pod.id, pod.releaseVpc) with
  | none => s
  | some _ =>
      { s with
        leases := if released then s.leases.erase (pod.id, pod.releaseVpc)
          else s.leases.insert (pod.id, pod.releaseVpc) true }

/-- A pod is taken up, unless it has a task. -/
def spawn (pod : Pod) : PodSyncState :=
  if pod.isSchedulable = true ∧ pod.id ∉ s.inFlight then
    { s with inFlight := insert pod.id s.inFlight, tasks := s.tasks ++ [⟨pod, .allocating⟩] }
  else s

/-- A step. -/
def next : PodSyncStep → PodSyncState
  | .change pods => { s with server := pods }
  | .fetch =>
      match s.pass with
      | .idle =>
          { s with pass := .checking s.server (s.server.filter fun p => decide (p.status = .running)) }
      | _ => s
  | .check state released =>
      match s.pass with
      | .checking pods (pod :: todo) =>
          if state = .running then { s with pass := .checking pods todo }
          else { s.release pod released with pass := .failing pod pods todo }
      | _ => s
  | .report applied =>
      match s.pass with
      | .failing pod pods todo =>
          { s with
            server := if applied then s.putStatus pod .failed else s.server
            pass := .checking pods todo }
      | _ => s
  | .schedule =>
      match s.pass with
      | .checking pods [] => { s with pass := .scheduling pods }
      | .scheduling (pod :: todo) => { s.spawn pod with pass := .scheduling todo }
      | .scheduling [] => { s with pass := .idle }
      | _ => s
  | .advance i outcome =>
      match s.tasks[i]? with
      | some t => s.advance i t outcome
      | none => s

/-- A new agent. -/
def start (pods : List Pod) : PodSyncState := ⟨pods, ∅, [], .idle, ∅⟩

/-- A task of the pod is running. -/
def IsRunning (podId : String) : Prop := ∃ t ∈ s.tasks, t.pod.id = podId ∧ t.phase.isRunning = true

instance (podId : String) : Decidable (s.IsRunning podId) :=
  inferInstanceAs (Decidable (∃ t ∈ s.tasks, _ ∧ _))

/-! ## Exclusion -/

/-- A container is created only when every other task of the pod has failed, or its `Running` report
has been applied. -/
def CreatesAlone : PodSyncStep → Prop
  | .advance i _ => ∀ t ∈ s.tasks[i]?, t.phase = .creating → ∀ j t', j ≠ i → s.tasks[j]? = some t' →
      t'.pod.id = t.pod.id → t'.phase.isResolved = true
  | _ => True

/-- A pod that waits for its container gets a task, unless it has one. -/
def Retries : PodSyncStep → Prop
  | .schedule => ∀ pod ∈ s.pass.upNext, pod.isSchedulable = true → ¬s.IsRunning pod.id →
      ⟨pod, .allocating⟩ ∈ (s.next .schedule).tasks
  | _ => True

/-- Every id in the set belongs to a running task. -/
def NoneStuck : Prop := ∀ podId ∈ s.inFlight, s.IsRunning podId

/-- No pull and no creation fails, and a pod is not taken up again before the `Running` report of
its last task has been applied. -/
def Orderly : PodSyncStep → Prop
  | .advance i outcome => ∀ t ∈ s.tasks[i]?, t.phase = .pulling ∨ t.phase = .creating → outcome = .ok
  | .schedule => ∀ pod ∈ s.pass.upNext, pod.isSchedulable = true → pod.id ∉ s.inFlight →
      ∀ t ∈ s.tasks, t.pod.id = pod.id → t.phase.isResolved = true
  | _ => True

/-- What holds in every state of an orderly run. -/
structure ExclusionInv : Prop where
  held : ∀ (i : ℕ) (t : LifecycleTask), s.tasks[i]? = some t → t.phase.holds = true →
    t.pod.id ∈ s.inFlight
  holder : ∀ podId ∈ s.inFlight, ∃ (i : ℕ) (t : LifecycleTask), s.tasks[i]? = some t ∧
    t.pod.id = podId ∧ t.phase.holds = true
  alone : ∀ (i j : ℕ) (t t' : LifecycleTask), s.tasks[i]? = some t → s.tasks[j]? = some t' → i ≠ j →
    t'.pod.id = t.pod.id → t.phase.holds = true →
      t'.phase.holds = false ∧ t'.phase.isResolved = true

end PodSyncState

namespace LifecyclePhase

/-- A task that does not hold its id never does again. -/
theorem holds_of_next {phase : LifecyclePhase} {outcome : TaskOutcome}
    (h : (phase.next outcome).1.holds = true) : phase.holds = true := by
  cases phase <;> cases outcome <;> first | rfl | exact h

/-- A task stays resolved. -/
theorem isResolved_next {phase : LifecyclePhase} (outcome : TaskOutcome)
    (h : phase.isResolved = true) : (phase.next outcome).1.isResolved = true := by
  cases phase <;> cases outcome <;> first | rfl | exact h

/-- The id is taken out exactly when the task ceases to hold it, if no pull or creation fails. -/
theorem leaves_iff {phase : LifecyclePhase} {outcome : TaskOutcome}
    (h : phase = .pulling ∨ phase = .creating → outcome = .ok) :
    (phase.next outcome).2 = .leave ↔
      phase.holds = true ∧ (phase.next outcome).1.holds = false := by
  cases phase <;> cases outcome <;> simp_all [next, holds]

theorem isRunning_of_holds {phase : LifecyclePhase} (h : phase.holds = true) :
    phase.isRunning = true := by
  cases phase <;> first | rfl | exact absurd h Bool.false_ne_true

end LifecyclePhase

namespace PodSyncState

variable {s : PodSyncState}

/-- Only the tasks and the set matter. -/
theorem ExclusionInv.congr {s' : PodSyncState} (h : s.ExclusionInv) (htasks : s'.tasks = s.tasks)
    (hset : s'.inFlight = s.inFlight) : s'.ExclusionInv where
  held := by
    rw [htasks, hset]
    exact h.held
  holder := by
    rw [htasks, hset]
    exact h.holder
  alone := by
    rw [htasks]
    exact h.alone

/-- The tasks after a task has moved. -/
theorem getElem?_set_cases {i j : ℕ} {t t' : LifecycleTask}
    (h : (s.tasks.set i t)[j]? = some t') : j = i ∧ t' = t ∨ j ≠ i ∧ s.tasks[j]? = some t' := by
  rw [List.getElem?_set] at h
  split_ifs at h with hij hlt
  · exact Or.inl ⟨hij.symm, (Option.some_inj.mp h).symm⟩
  · exact Or.inr ⟨fun hji => hij hji.symm, h⟩

theorem inFlight_perform (pod : Pod) (effect : TaskEffect) :
    (s.perform pod effect).inFlight =
      if effect = .leave then s.inFlight.erase pod.id else s.inFlight := by
  cases effect <;> rfl

theorem release_agent (pod : Pod) (released : Bool) :
    (s.release pod released).tasks = s.tasks ∧ (s.release pod released).inFlight = s.inFlight := by
  rw [release]
  split
  · exact ⟨rfl, rfl⟩
  · exact ⟨rfl, rfl⟩

/-- A call of a task keeps the invariant. -/
theorem ExclusionInv.advance (h : s.ExclusionInv) {i : ℕ} {t : LifecycleTask}
    (ht : s.tasks[i]? = some t) {outcome : TaskOutcome}
    (hok : t.phase = .pulling ∨ t.phase = .creating → outcome = .ok) :
    (s.advance i t outcome).ExclusionInv := by
  have hleaves := LifecyclePhase.leaves_iff hok
  have hset : (s.advance i t outcome).inFlight =
      if (t.phase.next outcome).2 = .leave then s.inFlight.erase t.pod.id else s.inFlight :=
    inFlight_perform t.pod _
  have hlt : i < s.tasks.length := (List.getElem?_eq_some_iff.mp ht).1
  constructor
  · intro j u hu hholds
    rw [hset]
    rcases getElem?_set_cases hu with ⟨rfl, rfl⟩ | ⟨hji, hu⟩
    · have hstays : (t.phase.next outcome).2 ≠ .leave := fun hleave =>
        Bool.false_ne_true ((hleaves.mp hleave).2.symm.trans hholds)
      rw [if_neg hstays]
      exact h.held j t ht (LifecyclePhase.holds_of_next hholds)
    · have hmem := h.held j u hu hholds
      split_ifs with hleave
      · -- The one that leaves is the only one that holds its id.
        refine Finset.mem_erase.mpr ⟨fun hid => ?_, hmem⟩
        have hfree := (h.alone i j t u ht hu hji.symm hid (hleaves.mp hleave).1).1
        exact Bool.false_ne_true (hfree.symm.trans hholds)
      · exact hmem
  · intro podId hmem
    rw [hset] at hmem
    have hbefore : podId ∈ s.inFlight := by
      split_ifs at hmem
      · exact Finset.mem_of_mem_erase hmem
      · exact hmem
    obtain ⟨j, u, hu, hid, hholds⟩ := h.holder podId hbefore
    by_cases hji : j = i
    · rw [hji, ht] at hu
      obtain rfl := Option.some_inj.mp hu
      refine ⟨i, _, List.getElem?_set_self hlt, hid, ?_⟩
      by_contra hfree
      rw [if_pos (hleaves.mpr ⟨hholds, Bool.eq_false_of_not_eq_true hfree⟩), hid] at hmem
      exact Finset.notMem_erase _ _ hmem
    · exact ⟨j, u, (List.getElem?_set_ne fun hij => hji hij.symm).trans hu, hid, hholds⟩
  · intro j k u u' hu hu' hjk hid hholds
    rcases getElem?_set_cases hu with ⟨hji, rfl⟩ | ⟨hji, hold⟩
    · rcases getElem?_set_cases hu' with ⟨hki, -⟩ | ⟨-, hold'⟩
      · exact absurd (hji.trans hki.symm) hjk
      · exact h.alone i k t u' ht hold' (hji ▸ hjk) hid (LifecyclePhase.holds_of_next hholds)
    · rcases getElem?_set_cases hu' with ⟨-, rfl⟩ | ⟨-, hold'⟩
      · obtain ⟨hfree, hresolved⟩ := h.alone j i u t hold ht hji hid hholds
        refine ⟨?_, LifecyclePhase.isResolved_next outcome hresolved⟩
        refine Bool.eq_false_of_not_eq_true fun hagain => ?_
        exact Bool.false_ne_true (hfree.symm.trans (LifecyclePhase.holds_of_next hagain))
      · exact h.alone j k u u' hold hold' hjk hid hholds

/-- So does a pass that takes up a pod. -/
theorem ExclusionInv.spawn (h : s.ExclusionInv) {pod : Pod}
    (hresolved : pod.isSchedulable = true → pod.id ∉ s.inFlight →
      ∀ t ∈ s.tasks, t.pod.id = pod.id → t.phase.isResolved = true) :
    (s.spawn pod).ExclusionInv := by
  rw [PodSyncState.spawn]
  split_ifs with hspawn
  · obtain ⟨hsched, hfree⟩ := hspawn
    have hold : ∀ {i : ℕ} {t : LifecycleTask},
        (s.tasks ++ [⟨pod, .allocating⟩])[i]? = some t →
          s.tasks[i]? = some t ∨ i = s.tasks.length ∧ t = ⟨pod, .allocating⟩ := by
      intro i t hi
      rw [List.getElem?_append] at hi
      split_ifs at hi with hlt
      · exact Or.inl hi
      · obtain ⟨hindex, hvalue⟩ := List.getElem?_eq_some_iff.mp hi
        rw [List.length_singleton] at hindex
        refine Or.inr ⟨by omega, ?_⟩
        rw [← hvalue, List.getElem_singleton]
    -- No task of the pod holds its id, which is not in the set.
    have hnone : ∀ {i : ℕ} {t : LifecycleTask}, s.tasks[i]? = some t → t.pod.id = pod.id →
        t.phase.holds = false := fun hi hid =>
      Bool.eq_false_of_not_eq_true fun hholds => hfree (hid ▸ h.held _ _ hi hholds)
    constructor
    · intro i t hi hholds
      rcases hold hi with hi | ⟨-, rfl⟩
      · exact Finset.mem_insert_of_mem (h.held i t hi hholds)
      · exact Finset.mem_insert_self _ _
    · intro podId hmem
      rcases Finset.mem_insert.mp hmem with rfl | hmem
      · exact ⟨s.tasks.length, _, List.getElem?_concat_length, rfl, rfl⟩
      · obtain ⟨i, t, hi, hid, hholds⟩ := h.holder podId hmem
        have hlt : i < s.tasks.length := (List.getElem?_eq_some_iff.mp hi).1
        exact ⟨i, t, (List.getElem?_append_left hlt).trans hi, hid, hholds⟩
    · intro i j t t' hi hj hij hid hholds
      rcases hold hi with hi | ⟨rfl, rfl⟩
      · rcases hold hj with hj | ⟨rfl, rfl⟩
        · exact h.alone i j t t' hi hj hij hid hholds
        · exact absurd hholds (by rw [hnone hi hid.symm]; exact Bool.false_ne_true)
      · rcases hold hj with hj | ⟨rfl, rfl⟩
        · exact ⟨hnone hj hid, hresolved hsched hfree t' (List.mem_of_getElem? hj) hid⟩
        · exact absurd rfl hij
  · exact h

/-- Every orderly step keeps the invariant. -/
theorem ExclusionInv.next (h : s.ExclusionInv) {step : PodSyncStep} (hs : s.Orderly step) :
    (s.next step).ExclusionInv := by
  cases step with
  | change pods => exact h.congr rfl rfl
  | fetch =>
      rw [PodSyncState.next]
      split
      · exact h.congr rfl rfl
      · exact h
  | check state released =>
      rw [PodSyncState.next]
      split
      · split_ifs
        · exact h.congr rfl rfl
        · exact h.congr (release_agent _ _).1 (release_agent _ _).2
      · exact h
  | report applied =>
      rw [PodSyncState.next]
      split
      · exact h.congr rfl rfl
      · exact h
  | schedule =>
      rw [PodSyncState.next]
      split
      · exact h.congr rfl rfl
      · rename_i pod todo hpass
        exact (h.spawn (hs pod (by rw [hpass]; rfl))).congr rfl rfl
      · exact h.congr rfl rfl
      · exact h
  | advance i outcome =>
      rw [PodSyncState.next]
      split
      · rename_i t ht
        exact h.advance ht (hs t ht)
      · exact h

theorem exclusionInv_start (pods : List Pod) : (start pods).ExclusionInv where
  held _ _ ht := nomatch ht
  holder _ hmem := absurd hmem (Finset.notMem_empty _)
  alone _ _ _ _ ht := nomatch ht

/-- What the invariant says of the set. -/
theorem ExclusionInv.noneStuck (h : s.ExclusionInv) : s.NoneStuck := by
  intro podId hmem
  obtain ⟨i, t, hi, hid, hholds⟩ := h.holder podId hmem
  exact ⟨t, List.mem_of_getElem? hi, hid, LifecyclePhase.isRunning_of_holds hholds⟩

/-- What it says of the next step. -/
theorem ExclusionInv.createsAlone (h : s.ExclusionInv) (step : PodSyncStep) :
    s.CreatesAlone step ∧ s.Retries step := by
  cases step with
  | change | fetch | check | report => exact ⟨trivial, trivial⟩
  | advance i outcome =>
      refine ⟨fun t ht hphase j t' hji ht' hid => ?_, trivial⟩
      exact (h.alone i j t t' ht ht' hji.symm hid (by rw [hphase]; rfl)).2
  | schedule =>
      refine ⟨trivial, fun pod hnext hsched hidle => ?_⟩
      have hfree : pod.id ∉ s.inFlight := fun hmem => hidle (h.noneStuck pod.id hmem)
      obtain ⟨todo, hpass⟩ := PassPhase.exists_of_upNext hnext
      rw [PodSyncState.next, hpass]
      show _ ∈ (s.spawn pod).tasks
      rw [PodSyncState.spawn, if_pos ⟨hsched, hfree⟩]
      exact List.mem_append_right _ (List.mem_singleton_self _)

end PodSyncState

open PodSyncState in
/-- **Lifecycle tasks exclude each other.**  In an orderly run a container is created only when all
other tasks of the pod have failed or their `Running` reports have been applied; every id in the set
belongs to a running task, and a pod without one gets a new task when it waits for its container. -/
theorem lifecycle_exclusive (pods : List Pod) (steps : List PodSyncStep)
    (h : Admitted next Orderly (start pods) steps) :
    Admitted next (fun s step => s.CreatesAlone step ∧ s.Retries step) (start pods) steps ∧
      Along next NoneStuck (start pods) steps := by
  refine ⟨?_, ?_⟩
  · exact h.mono ExclusionInv (fun s step hs hinv => hinv.next hs)
      (fun s step hinv _ => hinv.createsAlone step) (exclusionInv_start pods)
  · exact (along_of_admitted ExclusionInv (fun s step hs hinv => hinv.next hs)
      (exclusionInv_start pods) h).mono fun s hinv => hinv.noneStuck

instance (s : PodSyncState) : (step : PodSyncStep) → Decidable (s.Orderly step)
  | .advance i outcome => inferInstanceAs (Decidable (∀ t ∈ s.tasks[i]?, _ → outcome = .ok))
  | .schedule => inferInstanceAs (Decidable (∀ pod ∈ s.pass.upNext, _ → _ → ∀ t ∈ s.tasks, _ → _))
  | .change _ | .fetch | .check _ _ | .report _ => inferInstanceAs (Decidable True)

/-- A pod that waits for its container. -/
def waitingPod : Pod where
  id := "p1"
  name := "web-1"
  ns := "default"
  spec := ⟨[], none, [], [], [], none⟩
  status := .scheduled
  statusMessage := none
  containerId := none
  nodeName := some "worker"
  labels := []
  ownerRef := none
  restartCount := 0
  runtimeInfo := none
  ghostIpv6 := none
  vpcName := none
  createdAt := 0

/-- A pass over one pod that does not run. -/
def onePass : List PodSyncStep := [.fetch, .schedule, .schedule, .schedule]

/-- A task that goes well, up to its `Running` report. -/
def toReport (i : ℕ) : List PodSyncStep := List.replicate 5 (.advance i .ok)

/-- The pod is started, reported, lost and started again. -/
def startedTwice : List PodSyncStep :=
  onePass ++ toReport 0 ++ [.advance 0 .ok, .advance 0 .ok, .change [waitingPod]] ++ onePass ++ toReport 1

open PodSyncState in
theorem lifecycle_exclusive_startedTwice :
    (run next (start [waitingPod]) startedTwice).tasks.map LifecycleTask.phase =
        [.succeeded true, .reporting] ∧
      Along next NoneStuck (start [waitingPod]) startedTwice :=
  ⟨by decide, (lifecycle_exclusive [waitingPod] startedTwice (by decide)).2⟩

/-- A second pass comes before the report of the first task. -/
def takenUpTwice : List PodSyncStep :=
  onePass ++ toReport 0 ++ onePass ++ [.advance 1 .ok, .advance 1 .ok]

/-- The image cannot be pulled. -/
def pullFails : List PodSyncStep :=
  onePass ++ [.advance 0 .ok, .advance 0 .failed, .advance 0 .ok]

open PodSyncState in
/-- A second task creates a container while the first has not reported, and the id of a task that is
over stays in the set. -/
theorem lifecycle_exclusive_fails :
    ¬Admitted next CreatesAlone (start [waitingPod]) (takenUpTwice ++ [.advance 1 .ok]) ∧
      ¬Along next NoneStuck (start [waitingPod]) pullFails := by
  constructor
  · intro h
    have hcreates := (admitted_append.mp h).2.1
    have hresolved := hcreates ⟨waitingPod, .creating⟩ (by decide) rfl 0
      ⟨waitingPod, .reporting⟩ (by decide) (by decide) rfl
    exact Bool.false_ne_true hresolved
  · intro h
    have hrunning := h pullFails (List.prefix_refl _) "p1" (by decide)
    exact absurd hrunning (by decide)

end K3rs
