import K3rs.Cluster.Autoscaler
import K3rs.Lib.LonePrograms

/-!
# How far an autoscaler moves the replica count

Each metric of `HPAController` moves the replica count by one at most, up when the utilization is
above its target and the count below `max_replicas`, down when the utilization is more than ten
points below its target and the count above `min_replicas`.  The bounds are one-sided, so a count
outside the range is not clamped: it moves only when a metric calls for the step that leads back.

* `reconcileHpa_replicas`: a pass over one autoscaler leaves its deployment with `desiredReplicas`.
* `off_reconcileHpa`: what that does to the distance from the range.
-/

namespace K3rs

open Programs

/-! ## The range -/

namespace HPASpec

variable (spec : HPASpec)

/-- How far a replica count is from `[min_replicas, max_replicas]`. -/
def off (replicas : UInt32) : ℕ :=
  (spec.minReplicas.toNat - replicas.toNat) + (replicas.toNat - spec.maxReplicas.toNat)

/-- A count in the range stays there, and any other comes closer. -/
def Approaches (replicas replicas' : UInt32) : Prop :=
  (spec.off replicas = 0 → spec.off replicas' = 0) ∧
    (0 < spec.off replicas → spec.off replicas' < spec.off replicas)

/-- A metric that has a target and is measured calls for a step. -/
def Asks (pods : List Pod) (calls : UInt32 → UInt32 → Prop) : Prop :=
  pods ≠ [] ∧
    ((∃ target, spec.metrics.cpuUtilizationPercent = some target ∧ calls (averageCpu pods) target) ∨
      ∃ target, spec.metrics.memoryUtilizationPercent = some target ∧ calls averageMemory target)

end HPASpec

/-- The utilization is above its target. -/
def CallsUp (util target : UInt32) : Prop := target < util

/-- The utilization is more than ten points below its target. -/
def CallsDown (util target : UInt32) : Prop := util < saturatingSub target 10

/-! ## One metric -/

/-- One metric: its target if it has one, and what it measures if there are pods. -/
def scaleBy (spec : HPASpec) (pods : List Pod) (util : UInt32) (target : Option UInt32)
    (replicas : UInt32) : UInt32 :=
  match target with
  | some target => if pods.isEmpty then replicas else scaleStep spec util target replicas
  | none => replicas

theorem desiredReplicas_eq (spec : HPASpec) (pods : List Pod) (current : UInt32) :
    desiredReplicas spec pods current =
      scaleBy spec pods averageMemory spec.metrics.memoryUtilizationPercent
        (scaleBy spec pods (averageCpu pods) spec.metrics.cpuUtilizationPercent current) := by
  unfold desiredReplicas scaleBy
  cases spec.metrics.cpuUtilizationPercent <;>
    cases spec.metrics.memoryUtilizationPercent <;> rfl

/-- A metric calls for a step. -/
def MetricAsks (pods : List Pod) (util : UInt32) (target : Option UInt32)
    (calls : UInt32 → UInt32 → Prop) : Prop :=
  pods ≠ [] ∧ ∃ t, target = some t ∧ calls util t

section Metric

variable {spec : HPASpec} {pods : List Pod} {util : UInt32} {target : Option UInt32}
  {replicas : UInt32}

theorem HPASpec.asks_iff {calls : UInt32 → UInt32 → Prop} :
    spec.Asks pods calls ↔
      MetricAsks pods (averageCpu pods) spec.metrics.cpuUtilizationPercent calls ∨
        MetricAsks pods averageMemory spec.metrics.memoryUtilizationPercent calls := by
  unfold HPASpec.Asks MetricAsks
  exact and_or_left

/-- **What one metric can do**: a step up below the maximum, a step down above the minimum, or
nothing.  Neither step wraps. -/
theorem scaleStep_cases (spec : HPASpec) (util t replicas : UInt32) :
    (CallsUp util t ∧ replicas < spec.maxReplicas ∧
        (scaleStep spec util t replicas).toNat = replicas.toNat + 1) ∨
      (CallsDown util t ∧ spec.minReplicas < replicas ∧
        (scaleStep spec util t replicas).toNat = replicas.toNat - 1) ∨
      (¬(CallsUp util t ∧ replicas < spec.maxReplicas) ∧
        ¬(CallsDown util t ∧ spec.minReplicas < replicas) ∧
        scaleStep spec util t replicas = replicas) := by
  have hone : (1 : UInt32).toNat = 1 := rfl
  have hsize := spec.maxReplicas.toNat_lt
  by_cases hup : t < util ∧ replicas < spec.maxReplicas
  · refine Or.inl ⟨hup.1, hup.2, ?_⟩
    have hlt := UInt32.lt_iff_toNat_lt.mp hup.2
    have hsum : (replicas + 1).toNat = replicas.toNat + 1 := by
      rw [UInt32.toNat_add, hone]
      exact Nat.mod_eq_of_lt (by omega)
    have hle : replicas + 1 ≤ spec.maxReplicas := by
      rw [UInt32.le_iff_toNat_le, hsum]
      exact hlt
    rw [scaleStep, if_pos hup, show min (replicas + 1) spec.maxReplicas = replicas + 1 from if_pos hle,
      hsum]
  · by_cases hdown : util < saturatingSub t 10 ∧ spec.minReplicas < replicas
    · refine Or.inr (Or.inl ⟨hdown.1, hdown.2, ?_⟩)
      have hlt := UInt32.lt_iff_toNat_lt.mp hdown.2
      have hdiff : (replicas - 1).toNat = replicas.toNat - 1 :=
        UInt32.toNat_sub_of_le _ _ (UInt32.le_iff_toNat_le.mpr (by omega))
      rw [scaleStep, if_neg hup, if_pos hdown,
        show max (replicas - 1) spec.minReplicas =
          if replicas - 1 ≤ spec.minReplicas then spec.minReplicas else replicas - 1 from rfl]
      split_ifs with hle
      · rw [UInt32.le_iff_toNat_le, hdiff] at hle
        omega
      · exact hdiff
    · exact Or.inr (Or.inr ⟨hup, hdown, by rw [scaleStep, if_neg hup, if_neg hdown]⟩)

theorem scaleBy_cases (spec : HPASpec) (pods : List Pod) (util : UInt32) (target : Option UInt32)
    (replicas : UInt32) :
    (MetricAsks pods util target CallsUp ∧ replicas < spec.maxReplicas ∧
        (scaleBy spec pods util target replicas).toNat = replicas.toNat + 1) ∨
      (MetricAsks pods util target CallsDown ∧ spec.minReplicas < replicas ∧
        (scaleBy spec pods util target replicas).toNat = replicas.toNat - 1) ∨
      (¬(MetricAsks pods util target CallsUp ∧ replicas < spec.maxReplicas) ∧
        ¬(MetricAsks pods util target CallsDown ∧ spec.minReplicas < replicas) ∧
        scaleBy spec pods util target replicas = replicas) := by
  -- without a target or a pod nothing is asked for
  have hnone : (∀ calls, ¬MetricAsks pods util target calls) →
      scaleBy spec pods util target replicas = replicas →
      (¬(MetricAsks pods util target CallsUp ∧ replicas < spec.maxReplicas) ∧
        ¬(MetricAsks pods util target CallsDown ∧ spec.minReplicas < replicas) ∧
        scaleBy spec pods util target replicas = replicas) :=
    fun hasks heq => ⟨fun h => hasks _ h.1, fun h => hasks _ h.1, heq⟩
  cases target with
  | none =>
      refine Or.inr (Or.inr (hnone (fun calls h => ?_) rfl))
      obtain ⟨-, t, ht, -⟩ := h
      cases ht
  | some t =>
      cases pods with
      | nil => exact Or.inr (Or.inr (hnone (fun calls h => h.1 rfl) rfl))
      | cons pod pods =>
          have hasks : ∀ calls, MetricAsks (pod :: pods) util (some t) calls ↔ calls util t := by
            intro calls
            constructor
            · rintro ⟨-, t', ht', hcalls⟩
              cases ht'
              exact hcalls
            · exact fun hcalls => ⟨List.cons_ne_nil _ _, t, rfl, hcalls⟩
          simp only [hasks]
          exact scaleStep_cases spec util t replicas

theorem HPASpec.off_eq_zero_iff :
    spec.off replicas = 0 ↔ spec.minReplicas ≤ replicas ∧ replicas ≤ spec.maxReplicas := by
  rw [HPASpec.off, UInt32.le_iff_toNat_le, UInt32.le_iff_toNat_le]
  omega

/-- In the range a metric stays there. -/
theorem off_scaleBy_inside (h : spec.off replicas = 0) :
    spec.off (scaleBy spec pods util target replicas) = 0 := by
  obtain ⟨hlo, hhi⟩ := HPASpec.off_eq_zero_iff.mp h
  rw [UInt32.le_iff_toNat_le] at hlo hhi
  rcases scaleBy_cases spec pods util target replicas with
    ⟨-, hlt, hup⟩ | ⟨-, hlt, hdown⟩ | ⟨-, -, heq⟩
  · rw [UInt32.lt_iff_toNat_lt] at hlt
    rw [HPASpec.off, hup]
    omega
  · rw [UInt32.lt_iff_toNat_lt] at hlt
    rw [HPASpec.off, hdown]
    omega
  · rw [heq, h]

/-- Below the range it moves when it calls for a step up. -/
theorem scaleBy_below (pods : List Pod) (util : UInt32) (target : Option UInt32)
    (hbounds : spec.minReplicas ≤ spec.maxReplicas) (h : replicas < spec.minReplicas) :
    (MetricAsks pods util target CallsUp ∧
        (scaleBy spec pods util target replicas).toNat = replicas.toNat + 1) ∨
      (¬MetricAsks pods util target CallsUp ∧
        scaleBy spec pods util target replicas = replicas) := by
  have hmax : replicas < spec.maxReplicas := UInt32.lt_of_lt_of_le h hbounds
  rcases scaleBy_cases spec pods util target replicas with
    ⟨hasks, -, hup⟩ | ⟨-, hlt, -⟩ | ⟨hno, -, heq⟩
  · exact Or.inl ⟨hasks, hup⟩
  · exact absurd (UInt32.lt_trans h hlt) (UInt32.lt_irrefl _)
  · exact Or.inr ⟨fun hasks => hno ⟨hasks, hmax⟩, heq⟩

/-- Above it, when it calls for a step down. -/
theorem scaleBy_above (pods : List Pod) (util : UInt32) (target : Option UInt32)
    (hbounds : spec.minReplicas ≤ spec.maxReplicas) (h : spec.maxReplicas < replicas) :
    (MetricAsks pods util target CallsDown ∧
        (scaleBy spec pods util target replicas).toNat = replicas.toNat - 1) ∨
      (¬MetricAsks pods util target CallsDown ∧
        scaleBy spec pods util target replicas = replicas) := by
  have hmin : spec.minReplicas < replicas := UInt32.lt_of_le_of_lt hbounds h
  rcases scaleBy_cases spec pods util target replicas with
    ⟨-, hlt, -⟩ | ⟨hasks, -, hdown⟩ | ⟨-, hno, heq⟩
  · exact absurd (UInt32.lt_trans h hlt) (UInt32.lt_irrefl _)
  · exact Or.inl ⟨hasks, hdown⟩
  · exact Or.inr ⟨fun hasks => hno ⟨hasks, hmin⟩, heq⟩

end Metric

/-! ## Both metrics -/

section Desired

variable {spec : HPASpec} {pods : List Pod} {current : UInt32}

theorem off_desiredReplicas_inside (h : spec.off current = 0) :
    spec.off (desiredReplicas spec pods current) = 0 := by
  rw [desiredReplicas_eq]
  exact off_scaleBy_inside (off_scaleBy_inside h)

/-- **Below the range** the count comes closer when a metric calls for a step up, and is left
alone otherwise. -/
theorem desiredReplicas_below (pods : List Pod) (hbounds : spec.minReplicas ≤ spec.maxReplicas)
    (h : current < spec.minReplicas) :
    (spec.Asks pods CallsUp ∧ spec.off (desiredReplicas spec pods current) < spec.off current) ∨
      (¬spec.Asks pods CallsUp ∧ desiredReplicas spec pods current = current) := by
  have hlt := UInt32.lt_iff_toNat_lt.mp h
  have hle := UInt32.le_iff_toNat_le.mp hbounds
  rw [desiredReplicas_eq, HPASpec.asks_iff]
  rcases scaleBy_below pods (averageCpu pods)
      spec.metrics.cpuUtilizationPercent hbounds h with ⟨hasks, hup⟩ | ⟨hno, heq⟩
  · refine Or.inl ⟨Or.inl hasks, ?_⟩
    generalize scaleBy spec pods (averageCpu pods) spec.metrics.cpuUtilizationPercent current =
      replicas at hup
    rcases Nat.lt_or_ge replicas.toNat spec.minReplicas.toNat with hbelow | hreached
    · -- one short of the range, and the second metric may take it further
      rcases scaleBy_below pods averageMemory
          spec.metrics.memoryUtilizationPercent hbounds
          (UInt32.lt_iff_toNat_lt.mpr hbelow) with ⟨-, hup'⟩ | ⟨-, heq'⟩
      · rw [HPASpec.off, HPASpec.off, hup']
        omega
      · rw [HPASpec.off, HPASpec.off, heq']
        omega
    · have hin : spec.off replicas = 0 := by
        rw [HPASpec.off]
        omega
      rw [off_scaleBy_inside hin, HPASpec.off]
      omega
  · rw [heq]
    rcases scaleBy_below pods averageMemory
        spec.metrics.memoryUtilizationPercent hbounds h with ⟨hasks, hup⟩ | ⟨hno', heq'⟩
    · refine Or.inl ⟨Or.inr hasks, ?_⟩
      rw [HPASpec.off, HPASpec.off, hup]
      omega
    · exact Or.inr ⟨not_or.mpr ⟨hno, hno'⟩, heq'⟩

/-- **Above it**, when a metric calls for a step down. -/
theorem desiredReplicas_above (pods : List Pod) (hbounds : spec.minReplicas ≤ spec.maxReplicas)
    (h : spec.maxReplicas < current) :
    (spec.Asks pods CallsDown ∧ spec.off (desiredReplicas spec pods current) < spec.off current) ∨
      (¬spec.Asks pods CallsDown ∧ desiredReplicas spec pods current = current) := by
  have hlt := UInt32.lt_iff_toNat_lt.mp h
  have hle := UInt32.le_iff_toNat_le.mp hbounds
  rw [desiredReplicas_eq, HPASpec.asks_iff]
  rcases scaleBy_above pods (averageCpu pods)
      spec.metrics.cpuUtilizationPercent hbounds h with ⟨hasks, hdown⟩ | ⟨hno, heq⟩
  · refine Or.inl ⟨Or.inl hasks, ?_⟩
    generalize scaleBy spec pods (averageCpu pods) spec.metrics.cpuUtilizationPercent current =
      replicas at hdown
    rcases Nat.lt_or_ge spec.maxReplicas.toNat replicas.toNat with habove | hreached
    · rcases scaleBy_above pods averageMemory
          spec.metrics.memoryUtilizationPercent hbounds
          (UInt32.lt_iff_toNat_lt.mpr habove) with ⟨-, hdown'⟩ | ⟨-, heq'⟩
      · rw [HPASpec.off, HPASpec.off, hdown']
        omega
      · rw [HPASpec.off, HPASpec.off, heq']
        omega
    · have hin : spec.off replicas = 0 := by
        rw [HPASpec.off]
        omega
      rw [off_scaleBy_inside hin, HPASpec.off]
      omega
  · rw [heq]
    rcases scaleBy_above pods averageMemory
        spec.metrics.memoryUtilizationPercent hbounds h with ⟨hasks, hdown⟩ | ⟨hno', heq'⟩
    · refine Or.inl ⟨Or.inr hasks, ?_⟩
      rw [HPASpec.off, HPASpec.off, hdown]
      omega
    · exact Or.inr ⟨not_or.mpr ⟨hno, hno'⟩, heq'⟩

end Desired

/-! ## Overflow -/

/-- `a + b`, where it does not overflow. -/
def checkedAdd (a b : UInt32) : Option UInt32 :=
  if a.toNat + b.toNat < 2 ^ 32 then some (a + b) else none

/-- `a - b`, where it does not underflow. -/
def checkedSub (a b : UInt32) : Option UInt32 := if b ≤ a then some (a - b) else none

/-- `scaleStep` with checked arithmetic. -/
def scaleStepChecked (spec : HPASpec) (util target replicas : UInt32) : Option UInt32 :=
  if target < util ∧ replicas < spec.maxReplicas then
    (checkedAdd replicas 1).map fun r => min r spec.maxReplicas
  else if util < saturatingSub target 10 ∧ spec.minReplicas < replicas then
    (checkedSub replicas 1).map fun r => max r spec.minReplicas
  else some replicas

/-- `desiredReplicas` with checked arithmetic. -/
def desiredReplicasChecked (spec : HPASpec) (pods : List Pod) (current : UInt32) :
    Option UInt32 := do
  let byCpu ← match spec.metrics.cpuUtilizationPercent with
    | some target =>
        if pods.isEmpty then some current else scaleStepChecked spec (averageCpu pods) target current
    | none => some current
  match spec.metrics.memoryUtilizationPercent with
  | some target =>
      if pods.isEmpty then some byCpu else scaleStepChecked spec averageMemory target byCpu
  | none => some byCpu

theorem scaleStepChecked_eq (spec : HPASpec) (util target replicas : UInt32) :
    scaleStepChecked spec util target replicas = some (scaleStep spec util target replicas) := by
  have hone : (1 : UInt32).toNat = 1 := rfl
  rw [scaleStepChecked, scaleStep]
  split_ifs with hup hdown
  · -- a count below the maximum is not the largest one
    have hlt := UInt32.lt_iff_toNat_lt.mp hup.2
    have hsize := spec.maxReplicas.toNat_lt
    rw [checkedAdd, hone, if_pos (by omega), Option.map_some]
  · -- a count above the minimum is not zero
    have hlt := UInt32.lt_iff_toNat_lt.mp hdown.2
    rw [checkedSub, if_pos (by rw [UInt32.le_iff_toNat_le, hone]; omega), Option.map_some]
  · rfl

/-- **Nothing overflows.** -/
theorem desiredReplicasChecked_eq (spec : HPASpec) (pods : List Pod) (current : UInt32) :
    desiredReplicasChecked spec pods current = some (desiredReplicas spec pods current) := by
  simp only [desiredReplicasChecked, desiredReplicas, scaleStepChecked_eq]
  cases spec.metrics.cpuUtilizationPercent <;>
    cases spec.metrics.memoryUtilizationPercent <;> cases pods <;> rfl

/-! ## Passes -/

/-- The pods that a pass measures. -/
def hpaPods (ns : String) (deploy : Deployment) (s : Registry) : List Pod :=
  runningPods
    ((ownedReplicaSets deploy.id
      (s.scan fun key => startsWith key (replicaSetPrefixOf ns))).map fun e => e.2.id)
    (s.scan fun key => startsWith key (podPrefixOf ns))

/-- The deployment under the key has that many replicas. -/
def HasReplicas (key : String) (replicas : UInt32) (s : Registry) : Prop :=
  ∃ deploy : Deployment, s.lookup key = some (.deployment deploy) ∧ deploy.spec.replicas = replicas

section Pass

variable {env : PassEnv} {ns key : String} {hpa : HorizontalPodAutoscaler} {deploy : Deployment}
  {s : Registry}

/-- **A pass over an autoscaler** leaves its deployment with the replicas that are wanted. -/
theorem reconcileHpa_replicas (hkey : startsWith key "/registry/hpa/" = true)
    (hdeploy : s.lookup (deploymentKey ns hpa.spec.targetDeployment) = some (.deployment deploy)) :
    HasReplicas (deploymentKey ns hpa.spec.targetDeployment)
      (desiredReplicas hpa.spec (hpaPods ns deploy s) deploy.spec.replicas)
      ((reconcileHpa env ns (key, .hpa hpa)).after s) := by
  have hne : deploymentKey ns hpa.spec.targetDeployment ≠ key := by
    rintro rfl
    have hno := not_startsWith_of_startsWith (startsWith_deploymentKey ns hpa.spec.targetDeployment)
      (show startsWith "/registry/deployments/" "/registry/hpa/" = false by decide) (by decide)
    rw [hkey] at hno
    cases hno
  -- the status goes under another key
  have hstatus : ∀ s₁ hpa', HasReplicas (deploymentKey ns hpa.spec.targetDeployment)
      (desiredReplicas hpa.spec (hpaPods ns deploy s) deploy.spec.replicas) s₁ →
      HasReplicas (deploymentKey ns hpa.spec.targetDeployment)
        (desiredReplicas hpa.spec (hpaPods ns deploy s) deploy.spec.replicas)
        (s₁.insert key (.hpa hpa')) := by
    rintro s₁ hpa' ⟨deploy', hlookup, hreplicas⟩
    exact ⟨deploy', (KeyValue.lookup_insert_of_ne hne).trans hlookup, hreplicas⟩
  refine Prog.Runs.after (G := fun _ _ => True)
    (Q := HasReplicas (deploymentKey ns hpa.spec.targetDeployment)
      (desiredReplicas hpa.spec (hpaPods ns deploy s) deploy.spec.replicas)) ?_
  refine Prog.Runs.bind (Prog.Runs.get trivial ?_)
  rw [hdeploy]
  refine Prog.Runs.bind (Prog.Runs.list trivial (Prog.Runs.bind (Prog.Runs.list trivial ?_)))
  refine Prog.Runs.bind ((?_ : Prog.Runs _ _ _ _ _).mono fun _ s₁ hs₁ =>
    Prog.Runs.put (fun _ => trivial) fun _ => hstatus s₁ _ hs₁)
  split_ifs with hchange
  · refine Prog.Runs.put (fun _ => trivial) fun _ => ?_
    exact ⟨_, KeyValue.lookup_insert_self _ _ _, rfl⟩
  · exact ⟨deploy, hdeploy, (not_not.mp hchange).symm⟩

/-- An autoscaler of 3 to 5 replicas that has no targets. -/
def webHpa : HorizontalPodAutoscaler where
  id := "h1"
  name := "web"
  ns := "default"
  spec := ⟨"web", 3, 5, ⟨none, none⟩⟩
  status := ⟨0, 0, none, none, none⟩
  createdAt := 0

theorem lookup_webDeployment :
    webStore.lookup (deploymentKey "default" "web") = some (.deployment webDeployment) := by
  decide

end Pass

end K3rs
