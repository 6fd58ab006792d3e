import K3rs.Cluster.Objects

/-!
# The scheduler

`Scheduler::schedule` keeps the nodes that are eligible for a pod and takes one of them in turn.
The counter of the turns is shared by all callers, so that a call may find any number in it.

A sum of `u64` requests wraps, as in the release build.
-/

namespace K3rs

/-- What a pod asks for of a resource, as the scheduler adds it up. -/
def PodSpec.request (amount : ResourceRequirements → UInt64) (spec : PodSpec) : UInt64 :=
  (spec.containers.map fun c => amount c.resources).foldl (· + ·) 0

/-- The CPU that a pod asks for. -/
def PodSpec.cpuRequest (spec : PodSpec) : UInt64 := spec.request ResourceRequirements.cpuMillis

/-- The memory that a pod asks for. -/
def PodSpec.memoryRequest (spec : PodSpec) : UInt64 := spec.request ResourceRequirements.memoryBytes

/-- `u64::saturating_sub`. -/
def saturatingSub64 (a b : UInt64) : UInt64 := if a ≤ b then 0 else a - b

/-- A toleration admits a taint; its effect is not looked at. -/
def Toleration.tolerates (t : Toleration) (taint : Taint) : Bool :=
  decide (t.key = taint.key) &&
    match t.operator with
    | .exists_ => true
    | .equal => decide (t.value = taint.value)

/-- A taint keeps the pod away. -/
def Taint.repels (taint : Taint) (spec : PodSpec) : Bool :=
  !(spec.tolerations.any fun t => t.tolerates taint) &&
    match taint.effect with
    | .noSchedule => true
    | .noExecute => true
    | .preferNoSchedule => false

/-- The node has room for a request; without a capacity nothing is checked. -/
def hasRoom (capacity allocated request : UInt64) : Bool :=
  decide (capacity = 0) || decide (request ≤ saturatingSub64 capacity allocated)

/-- `Scheduler::is_node_eligible`. -/
def isNodeEligible (node : Node) (pod : Pod) : Bool :=
  decide (node.status = .ready) &&
    !node.unschedulable &&
    (pod.spec.nodeAffinity.all fun label => decide (node.labels.lookup label.1 = some label.2)) &&
    (node.taints.all fun taint => !taint.repels pod.spec) &&
    hasRoom node.capacity.cpuMillis node.allocated.cpuMillis pod.spec.cpuRequest &&
    hasRoom node.capacity.memoryBytes node.allocated.memoryBytes pod.spec.memoryRequest

/-- `Scheduler::schedule`, with `turn` in the counter. -/
def schedule (turn : ℕ) (pod : Pod) (nodes : List Node) : Option String :=
  let eligible := nodes.filter fun n => isNodeEligible n pod
  (eligible[turn % eligible.length]?).map Node.name

variable {turn : ℕ} {pod : Pod} {nodes : List Node}

/-- A pod is put on an eligible node. -/
theorem exists_of_schedule {nodeName : String} (h : schedule turn pod nodes = some nodeName) :
    ∃ node ∈ nodes, isNodeEligible node pod = true ∧ node.name = nodeName := by
  obtain ⟨node, hget, hname⟩ := Option.map_eq_some_iff.mp h
  obtain ⟨hmem, heligible⟩ := List.mem_filter.mp (List.mem_of_getElem? hget)
  exact ⟨node, hmem, heligible, hname⟩

/-- If a node is eligible, the pod gets a node. -/
theorem schedule_isSome {node : Node} (hmem : node ∈ nodes)
    (heligible : isNodeEligible node pod = true) : (schedule turn pod nodes).isSome = true := by
  have hpos : 0 < (nodes.filter fun n => isNodeEligible n pod).length :=
    List.length_pos_of_mem (List.mem_filter.mpr ⟨hmem, heligible⟩)
  rw [schedule, Option.isSome_map, List.getElem?_eq_getElem (Nat.mod_lt turn hpos)]
  rfl

/-- Of a pod the scheduler looks at its template only. -/
theorem isNodeEligible_congr {node : Node} {p p' : Pod} (h : p.spec = p'.spec) :
    isNodeEligible node p = isNodeEligible node p' := by
  rw [isNodeEligible, isNodeEligible, h]

/-! ## Room -/

/-- What a pod asks for of a resource. -/
def PodSpec.demand (amount : ResourceRequirements → UInt64) (spec : PodSpec) : ℕ :=
  (spec.containers.map fun c => (amount c.resources).toNat).sum

/-- **The sum of the scheduler is the demand**, as long as it fits into its type. -/
theorem PodSpec.toNat_request {amount : ResourceRequirements → UInt64} {spec : PodSpec}
    (h : spec.demand amount < 2 ^ 64) : (spec.request amount).toNat = spec.demand amount := by
  -- From any start, the loop adds up modulo 2^64.
  have hfold : ∀ (xs : List ContainerSpec) (start : UInt64),
      ((xs.map fun c => amount c.resources).foldl (· + ·) start).toNat =
        (start.toNat + (xs.map fun c => (amount c.resources).toNat).sum) % 2 ^ 64 := by
    intro xs
    induction xs with
    | nil =>
        intro start
        exact (Nat.mod_eq_of_lt start.toNat_lt).symm
    | cons c rest ih =>
        intro start
        rw [List.map_cons, List.foldl_cons, ih, UInt64.toNat_add, List.map_cons, List.sum_cons]
        omega
  rw [request, hfold]
  exact (congrArg (· % 2 ^ 64) (Nat.zero_add _)).trans (Nat.mod_eq_of_lt h)

/-- A node with room has what is allocated and the request within its capacity, or the request is
for nothing. -/
theorem le_of_hasRoom {capacity allocated request : UInt64}
    (h : hasRoom capacity allocated request = true) (hcapacity : capacity ≠ 0) :
    allocated.toNat + request.toNat ≤ capacity.toNat ∨ request.toNat = 0 := by
  rw [hasRoom, decide_eq_false hcapacity, Bool.false_or, decide_eq_true_eq, saturatingSub64] at h
  split_ifs at h with hle
  · have hzero : request.toNat ≤ (0 : UInt64).toNat := UInt64.le_iff_toNat_le.mp h
    exact Or.inr (Nat.le_zero.mp hzero)
  · have hlt : allocated.toNat ≤ capacity.toNat := by
      rw [UInt64.le_iff_toNat_le] at hle
      omega
    rw [UInt64.le_iff_toNat_le, UInt64.toNat_sub_of_le _ _ (UInt64.le_iff_toNat_le.mpr hlt)] at h
    exact Or.inl (by omega)

/-- What an eligible node has room for. -/
theorem hasRoom_of_isNodeEligible {node : Node} (h : isNodeEligible node pod = true) :
    hasRoom node.capacity.cpuMillis node.allocated.cpuMillis
        (pod.spec.request ResourceRequirements.cpuMillis) = true ∧
      hasRoom node.capacity.memoryBytes node.allocated.memoryBytes
        (pod.spec.request ResourceRequirements.memoryBytes) = true := by
  simp only [isNodeEligible, Bool.and_eq_true] at h
  exact ⟨h.1.2, h.2⟩

end K3rs
