import K3rs.Cluster.ReplicaSets
import Mathlib.Data.UInt

/-!
# The horizontal pod autoscaler

A pass of `HPAController` goes through the autoscalers it has listed.  For each it reads the
target deployment, lists the pods and the ReplicaSets, and if the replica count is to change it
puts back the deployment as it was read, with the new count and the next generation.

`reconcileHpas_meets` says what such a pass can write, given what it has seen.
-/

namespace K3rs

open Programs

/-! ## The replica count -/

/-- One step up or down, by a utilization and its target. -/
def scaleStep (spec : HPASpec) (util target replicas : UInt32) : UInt32 :=
  if target < util ∧ replicas < spec.maxReplicas then min (replicas + 1) spec.maxReplicas
  else if util < saturatingSub target 10 ∧ spec.minReplicas < replicas then
    max (replicas - 1) spec.minReplicas
  else replicas

/-- The pods that a deployment has running. -/
def runningPods (rsIds : List String) (podEntries : List (String × Object)) : List Pod :=
  (podEntries.filterMap fun e => e.2.asPod).filter fun p =>
    (match p.ownerRef with
      | some owner => rsIds.contains owner
      | none => false) &&
    decide (p.status = .running ∨ p.status = .scheduled)

/-- The simulated CPU utilization. -/
def averageCpu (pods : List Pod) : UInt32 :=
  let requested := ((pods.flatMap fun p => p.spec.containers).map fun c => c.resources.cpuMillis).sum
  if 0 < requested then 70 else 0

/-- The simulated memory utilization. -/
def averageMemory : UInt32 := 60

/-- The replica count that a pass wants, of the current one. -/
def desiredReplicas (spec : HPASpec) (pods : List Pod) (current : UInt32) : UInt32 :=
  let byCpu := match spec.metrics.cpuUtilizationPercent with
    | some target => if pods.isEmpty then current else scaleStep spec (averageCpu pods) target current
    | none => current
  match spec.metrics.memoryUtilizationPercent with
  | some target => if pods.isEmpty then byCpu else scaleStep spec averageMemory target byCpu
  | none => byCpu

/-- The status that a pass finds. -/
def hpaStatus (hpa : HorizontalPodAutoscaler) (pods : List Pod) (current desired : UInt32)
    (now : DateTime) : HPAStatus where
  currentReplicas := current
  desiredReplicas := desired
  currentCpuUtilizationPercent :=
    if hpa.spec.metrics.cpuUtilizationPercent.isSome && !pods.isEmpty then some (averageCpu pods)
    else hpa.status.currentCpuUtilizationPercent
  currentMemoryUtilizationPercent :=
    if hpa.spec.metrics.memoryUtilizationPercent.isSome && !pods.isEmpty then some averageMemory
    else hpa.status.currentMemoryUtilizationPercent
  lastScaleTime := if desired ≠ current then some now else hpa.status.lastScaleTime

/-! ## Passes -/

/-- The key of a deployment. -/
def deploymentKey (ns name : String) : String := "/registry/deployments/" ++ ns ++ "/" ++ name

/-- A deployment with another replica count and the next generation. -/
def Deployment.rescaled (deploy : Deployment) (replicas : UInt32) : Deployment :=
  { deploy with
    spec := { deploy.spec with replicas := replicas }
    generation := deploy.generation + 1 }

/-- A pass over one listed autoscaler. -/
def reconcileHpa (env : PassEnv) (ns : String) (entry : String × Object) : Program Unit :=
  match entry.2.asHpa with
  | none => pure ()
  | some hpa => do
      let deployKey := deploymentKey ns hpa.spec.targetDeployment
      match (← Prog.get deployKey).bind Object.asDeployment with
      | none => pure ()
      | some deploy => do
          let podEntries ← listPrefix (podPrefixOf ns)
          let rsEntries ← listPrefix (replicaSetPrefixOf ns)
          let rsIds := (ownedReplicaSets deploy.id rsEntries).map fun e => e.2.id
          let pods := runningPods rsIds podEntries
          let current := deploy.spec.replicas
          let desired := desiredReplicas hpa.spec pods current
          (if desired ≠ current then Prog.put deployKey (.deployment (deploy.rescaled desired))
          else pure ())
          Prog.put entry.1
            (.hpa { hpa with status := hpaStatus hpa pods current desired (env.now entry.1 0) })

/-- `HPAController::reconcile_namespace`. -/
def reconcileHpaNamespace (env : PassEnv) (ns : String) : Program Unit := do
  let entries ← listPrefix ("/registry/hpa/" ++ ns ++ "/")
  Prog.forEach (reconcileHpa env ns) entries

/-- `HPAController::reconcile`. -/
def reconcileHpas (env : PassEnv) : Program Unit :=
  reconcileNamespaces (reconcileHpaNamespace env)

/-! ## What a pass can write -/

/-- The operations of a pass, given what it has seen. -/
inductive HpaWrite (seen : Seen String Object) : Op String Object → Prop where
  | get (k : String) : HpaWrite seen (.get k)
  | list (p : String → Bool) : HpaWrite seen (.list p)
  /-- The replica count of a deployment it saw last. -/
  | scale (k : String) (deploy : Deployment) (replicas : UInt32)
      (hseen : seen.last k = some (.deployment deploy)) :
      HpaWrite seen (.put k (.deployment (deploy.rescaled replicas)))
  | status (k : String) (hpa : HorizontalPodAutoscaler) : HpaWrite seen (.put k (.hpa hpa))

theorem startsWith_deploymentKey (ns name : String) :
    startsWith (deploymentKey ns name) "/registry/deployments/" = true :=
  startsWith_append_left (startsWith_append_left (startsWith_append _ _) _) _

/-- A listing below another directory than the deployments. -/
theorem last_listing_deploymentKey (seen : Seen String Object) (ns name : String)
    {start dir : String} (hstart : startsWith start dir = true)
    (hdir : startsWith dir "/registry/deployments/" = false)
    (hdir' : startsWith "/registry/deployments/" dir = false) (entries : List (String × Object)) :
    (seen.listing (fun k => startsWith k start) entries).last (deploymentKey ns name) =
      seen.last (deploymentKey ns name) := by
  have hkey : startsWith (deploymentKey ns name) start = false := by
    rw [← Bool.not_eq_true]
    intro h
    have := not_startsWith_of_startsWith (startsWith_trans h hstart) hdir hdir'
    rw [startsWith_deploymentKey] at this
    exact absurd this (by decide)
  rw [Seen.last, Seen.listing, if_neg (by simp [hkey]), ← Seen.last]

theorem reconcileHpa_meets (env : PassEnv) (ns : String) (e : String × Object)
    (seen : Seen String Object) :
    (reconcileHpa env ns e).Meets HpaWrite (fun _ _ => True) seen := by
  rw [reconcileHpa]
  cases e.2.asHpa with
  | none => trivial
  | some hpa =>
      refine Prog.Meets.bind (Prog.Meets.get (.get _) (fun v => ?_) fun _ => trivial)
      cases hdeploy : v.bind Object.asDeployment with
      | none =>
          simp only [hdeploy]
          trivial
      | some deploy =>
          -- The deployment has just been read, and the listings are of other keys.
          obtain ⟨w, rfl, hw⟩ := Option.bind_eq_some_iff.mp hdeploy
          obtain rfl := Object.asDeployment_eq_some.mp hw
          refine Prog.Meets.bind (Prog.Meets.list (.list _) (fun pods _ _ => ?_) fun _ => trivial)
          refine Prog.Meets.bind (Prog.Meets.list (.list _) (fun rss _ _ => ?_) fun _ => trivial)
          refine Prog.Meets.seq ?_ fun _ _ _ =>
            Prog.Meets.put (HpaWrite.status _ _) trivial fun _ => trivial
          split_ifs
          · refine Prog.Meets.put (.scale _ deploy _ ?_) trivial fun _ => trivial
            rw [last_listing_deploymentKey _ ns _ (startsWith_replicaSetPrefixOf ns) (by decide)
                (by decide),
              last_listing_deploymentKey _ ns _ (startsWith_podPrefixOf ns) (by decide) (by decide),
              Seen.last_note_self]
          · trivial

/-- **What a pass of the autoscaler can write.** -/
theorem reconcileHpas_meets (env : PassEnv) (seen : Seen String Object) :
    (reconcileHpas env).Meets HpaWrite (fun _ _ => True) seen := by
  refine reconcileNamespaces_meets (fun _ p => .list p) (fun ns s => ?_) seen
  refine Prog.Meets.bind (Prog.Meets.list (.list _) (fun entries _ _ => ?_) fun _ => trivial)
  exact Prog.Meets.loop (fun e _ s _ => reconcileHpa_meets env ns e s) trivial

end K3rs
