import K3rs.Cluster.PodStates
import K3rs.Cluster.Scheduler

/-!
# Fair scheduling

`Scheduler::schedule` takes the eligible nodes in turn, and the counter of the turns moves only when
it has placed a pod.  So consecutive calls with the same pod and the same nodes go round: `k` calls
return what the list of the `k` eligible nodes holds, rotated (`calls_eq_rotate`).

`Eligible` says which nodes those are, without the loops and the 64-bit sums of the code;
`isNodeEligible_iff` is the link.  A node that has more allocated than its capacity has nothing
left, which is what `saturating_sub` makes of it, and what subtraction in `ℕ` does.
-/

namespace K3rs

/-! ## The counter -/

/-- The state of the scheduler: `round_robin_index`, a counter of 64 bits. -/
structure RoundRobin where
  index : UInt64

/-- `Scheduler::schedule`, with the counter it leaves. -/
def RoundRobin.schedule (s : RoundRobin) (pod : Pod) (nodes : List Node) :
    Option String × RoundRobin :=
  let eligible := nodes.filter fun n => isNodeEligible n pod
  if eligible.isEmpty then (none, s)
  else ((eligible[s.index.toNat % eligible.length]?).map Node.name, ⟨s.index + 1⟩)

/-- What consecutive calls return. -/
def RoundRobin.calls (pod : Pod) (nodes : List Node) : ℕ → RoundRobin → List (Option String)
  | 0, _ => []
  | k + 1, s => (s.schedule pod nodes).1 :: calls pod nodes k (s.schedule pod nodes).2

/-! ## Eligible nodes -/

/-- A toleration admits the taint. -/
def Tolerated (pod : Pod) (taint : Taint) : Prop :=
  ∃ t ∈ pod.spec.tolerations, t.key = taint.key ∧ (t.operator = .exists_ ∨ t.value = taint.value)

/-- What is demanded of a resource is left of it, if the node has a capacity at all. -/
def Fits (capacity allocated : UInt64) (demand : ℕ) : Prop :=
  capacity ≠ 0 → demand ≤ capacity.toNat - allocated.toNat

/-- The pod may run on the node. -/
structure Eligible (node : Node) (pod : Pod) : Prop where
  ready : node.status = .ready
  schedulable : node.unschedulable = false
  labels : ∀ label ∈ pod.spec.nodeAffinity, node.labels.lookup label.1 = some label.2
  taints : ∀ taint ∈ node.taints,
    taint.effect = .noSchedule ∨ taint.effect = .noExecute → Tolerated pod taint
  cpu : Fits node.capacity.cpuMillis node.allocated.cpuMillis
    (pod.spec.demand ResourceRequirements.cpuMillis)
  memory : Fits node.capacity.memoryBytes node.allocated.memoryBytes
    (pod.spec.demand ResourceRequirements.memoryBytes)

/-- The requests of the containers sum within `u64`. -/
def PodSpec.SumsFit (spec : PodSpec) : Prop :=
  spec.demand ResourceRequirements.cpuMillis < 2 ^ 64 ∧
    spec.demand ResourceRequirements.memoryBytes < 2 ^ 64

section Eligibility

variable {node : Node} {pod : Pod}

theorem hasRoom_iff {capacity allocated request : UInt64} :
    hasRoom capacity allocated request = true ↔ Fits capacity allocated request.toNat := by
  rw [hasRoom, Bool.or_eq_true, decide_eq_true_eq, decide_eq_true_eq, Fits, or_iff_not_imp_left,
    UInt64.le_iff_toNat_le, saturatingSub64]
  split_ifs with hle
  · rw [UInt64.toNat_zero, Nat.sub_eq_zero_of_le (UInt64.le_iff_toNat_le.mp hle)]
  · have hlt : allocated ≤ capacity := by
      rw [UInt64.le_iff_toNat_le] at hle ⊢
      omega
    rw [UInt64.toNat_sub_of_le _ _ hlt]

theorem any_tolerates_iff {taint : Taint} :
    (pod.spec.tolerations.any fun t => t.tolerates taint) = true ↔ Tolerated pod taint := by
  rw [List.any_eq_true, Tolerated]
  refine exists_congr fun t => and_congr_right fun _ => ?_
  rw [Toleration.tolerates, Bool.and_eq_true, decide_eq_true_eq]
  refine and_congr_right fun _ => ?_
  cases t.operator with
  | equal => simp
  | exists_ => simp

theorem not_repels_iff {taint : Taint} :
    taint.repels pod.spec = false ↔
      (taint.effect = .noSchedule ∨ taint.effect = .noExecute → Tolerated pod taint) := by
  rw [← any_tolerates_iff, Taint.repels]
  cases taint.effect with
  | noSchedule => simp
  | noExecute => simp
  | preferNoSchedule => simp

/-- **The filters of the scheduler.** -/
theorem isNodeEligible_iff (hfit : pod.spec.SumsFit) :
    isNodeEligible node pod = true ↔ Eligible node pod := by
  have hcpu : (pod.spec.cpuRequest).toNat = pod.spec.demand ResourceRequirements.cpuMillis :=
    PodSpec.toNat_request hfit.1
  have hmemory : (pod.spec.memoryRequest).toNat =
      pod.spec.demand ResourceRequirements.memoryBytes := PodSpec.toNat_request hfit.2
  simp only [isNodeEligible, Bool.and_eq_true, decide_eq_true_eq, List.all_eq_true,
    Bool.not_eq_true', not_repels_iff, hasRoom_iff, hcpu, hmemory]
  constructor
  · rintro ⟨⟨⟨⟨⟨hready, hschedulable⟩, hlabels⟩, htaints⟩, hc⟩, hm⟩
    exact ⟨hready, hschedulable, hlabels, htaints, hc, hm⟩
  · rintro ⟨hready, hschedulable, hlabels, htaints, hc, hm⟩
    exact ⟨⟨⟨⟨⟨hready, hschedulable⟩, hlabels⟩, htaints⟩, hc⟩, hm⟩

end Eligibility

/-! ## Turns -/

section Turns

variable (pod : Pod) (nodes : List Node)

/-- The nodes among which the scheduler takes turns. -/
def eligibleNodes : List Node := nodes.filter fun n => isNodeEligible n pod

/-- A call takes the node whose turn it is. -/
theorem RoundRobin.schedule_fst (s : RoundRobin) :
    (s.schedule pod nodes).1 = K3rs.schedule s.index.toNat pod nodes := by
  rw [RoundRobin.schedule, K3rs.schedule]
  split_ifs with hempty
  · rw [List.isEmpty_iff.mp hempty]
    rfl
  · rfl

/-- A call that can place the pod moves the counter. -/
theorem RoundRobin.schedule_snd (s : RoundRobin) (h : 0 < (eligibleNodes pod nodes).length) :
    (s.schedule pod nodes).2 = ⟨s.index + 1⟩ := by
  rw [RoundRobin.schedule, if_neg fun hempty => ?_]
  rw [eligibleNodes, List.isEmpty_iff.mp hempty] at h
  exact Nat.lt_irrefl 0 h

/-- The turns that consecutive calls take. -/
theorem RoundRobin.calls_eq (h : 0 < (eligibleNodes pod nodes).length) :
    ∀ (k : ℕ) (s : RoundRobin), s.index.toNat + k ≤ 2 ^ 64 →
      RoundRobin.calls pod nodes k s =
        (List.range k).map fun i => K3rs.schedule (s.index.toNat + i) pod nodes := by
  intro k
  induction k with
  | zero => exact fun _ _ => rfl
  | succ k ih =>
      intro s hwrap
      rw [RoundRobin.calls, RoundRobin.schedule_fst, RoundRobin.schedule_snd pod nodes s h,
        List.range_succ_eq_map, List.map_cons, List.map_map, Nat.add_zero]
      rcases Nat.eq_zero_or_pos k with rfl | hk
      · rfl
      · -- with a call to come the counter does not wrap
        have hnext : (s.index + 1).toNat = s.index.toNat + 1 := by
          rw [UInt64.toNat_add, UInt64.toNat_one]
          omega
        rw [ih ⟨s.index + 1⟩ (by rw [hnext]; omega), hnext]
        refine congrArg _ (List.map_congr_left fun i _ => ?_)
        show _ = K3rs.schedule (s.index.toNat + (i + 1)) pod nodes
        rw [Nat.add_assoc, Nat.add_comm 1 i]

/-- **One round.**  As many calls as there are eligible nodes take them all, from some node on. -/
theorem RoundRobin.calls_eq_rotate (s : RoundRobin)
    (hwrap : s.index.toNat + (eligibleNodes pod nodes).length ≤ 2 ^ 64) :
    RoundRobin.calls pod nodes (eligibleNodes pod nodes).length s =
      ((eligibleNodes pod nodes).rotate s.index.toNat).map fun n => some n.name := by
  rcases Nat.eq_zero_or_pos (eligibleNodes pod nodes).length with hzero | hpos
  · rw [hzero, List.eq_nil_of_length_eq_zero hzero]
    rfl
  · rw [RoundRobin.calls_eq pod nodes hpos _ s hwrap]
    refine List.ext_getElem (by simp) fun i hi hi' => ?_
    have hlt : (s.index.toNat + i) % (eligibleNodes pod nodes).length <
        (eligibleNodes pod nodes).length := Nat.mod_lt _ hpos
    rw [List.getElem_map, List.getElem_map, List.getElem_range, List.getElem_rotate, K3rs.schedule]
    show Option.map Node.name ((eligibleNodes pod nodes)[(s.index.toNat + i) %
      (eligibleNodes pod nodes).length]?) = _
    rw [List.getElem?_eq_getElem hlt, Option.map_some]
    simp only [Nat.add_comm]

end Turns

theorem mem_eligibleNodes {pod : Pod} (hfit : pod.spec.SumsFit) {nodes : List Node} {node : Node} :
    node ∈ eligibleNodes pod nodes ↔ node ∈ nodes ∧ Eligible node pod := by
  rw [eligibleNodes, List.mem_filter, isNodeEligible_iff hfit]

open scoped Classical in
theorem countP_eligible {pod : Pod} (hfit : pod.spec.SumsFit) (nodes : List Node) :
    nodes.countP (fun n => Eligible n pod) = (eligibleNodes pod nodes).length := by
  rw [List.countP_eq_length_filter, eligibleNodes]
  refine congrArg List.length (List.filter_congr fun node _ => ?_)
  rw [Bool.eq_iff_iff, decide_eq_true_eq, isNodeEligible_iff hfit]

open scoped Classical in
/-- **Scheduling is sound, complete and fair.**  A pod gets a node if and only if some node is
eligible, and then an eligible one.  While the counter does not wrap, as many consecutive calls as
there are eligible nodes return the name of each of them, and none of them twice. -/
theorem schedule_sound_complete_fair {pod : Pod} (hfit : pod.spec.SumsFit) {nodes : List Node}
    (hnames : (nodes.map Node.name).Nodup) (s : RoundRobin) :
    ((s.schedule pod nodes).1.isSome = true ↔ ∃ node ∈ nodes, Eligible node pod) ∧
    (∀ nodeName, (s.schedule pod nodes).1 = some nodeName →
      ∃ node ∈ nodes, node.name = nodeName ∧ Eligible node pod) ∧
    (s.index.toNat + nodes.countP (fun n => Eligible n pod) ≤ 2 ^ 64 →
      let calls := RoundRobin.calls pod nodes (nodes.countP fun n => Eligible n pod) s
      calls.Nodup ∧ ∀ r, r ∈ calls ↔ ∃ node ∈ nodes, Eligible node pod ∧ some node.name = r) := by
  rw [RoundRobin.schedule_fst]
  refine ⟨⟨fun hsome => ?_, ?_⟩, fun nodeName hname => ?_, fun hwrap => ?_⟩
  · obtain ⟨nodeName, hname⟩ := Option.isSome_iff_exists.mp hsome
    obtain ⟨node, hmem, heligible, -⟩ := exists_of_schedule hname
    exact ⟨node, hmem, (isNodeEligible_iff hfit).mp heligible⟩
  · rintro ⟨node, hmem, heligible⟩
    exact schedule_isSome hmem ((isNodeEligible_iff hfit).mpr heligible)
  · obtain ⟨node, hmem, heligible, hnode⟩ := exists_of_schedule hname
    exact ⟨node, hmem, hnode, (isNodeEligible_iff hfit).mp heligible⟩
  · intro calls
    have hcalls : calls = ((eligibleNodes pod nodes).rotate s.index.toNat).map
        fun n => some n.name := by
      show RoundRobin.calls pod nodes (nodes.countP fun n => Eligible n pod) s = _
      rw [countP_eligible hfit] at hwrap ⊢
      exact RoundRobin.calls_eq_rotate pod nodes s hwrap
    have hnodup : ((eligibleNodes pod nodes).map Node.name).Nodup :=
      hnames.sublist (List.filter_sublist.map Node.name)
    constructor
    · have hrotated : (((eligibleNodes pod nodes).rotate s.index.toNat).map Node.name).Nodup := by
        rw [List.map_rotate, List.nodup_rotate]
        exact hnodup
      rw [hcalls, show (fun n : Node => some n.name) = some ∘ Node.name from rfl, ← List.map_map]
      exact hrotated.map (Option.some_injective _)
    · intro r
      rw [hcalls, List.mem_map]
      simp only [List.mem_rotate, mem_eligibleNodes hfit, and_assoc]

/-- Two workers. -/
theorem schedule_two_workers :
    ((RoundRobin.mk 5).schedule scheduledPod [worker, { worker with name := "other" }]).1.isSome =
      true :=
  (schedule_sound_complete_fair (show scheduledPod.spec.SumsFit from ⟨by decide, by decide⟩)
    (by decide) ⟨5⟩).1.mpr
    ⟨worker, List.mem_cons_self,
      ⟨rfl, rfl, by decide, fun _ htaint => absurd htaint List.not_mem_nil, fun h => absurd rfl h,
        fun h => absurd rfl h⟩⟩

end K3rs
