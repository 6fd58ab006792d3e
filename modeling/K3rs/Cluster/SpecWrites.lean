import K3rs.Cluster.Autoscaler
import K3rs.Server.VpcRegistry

/-!
# Writes to specs and to status

Deployments are written by requests that update them, by the autoscaler and by the deployment
controller; ReplicaSets by the deployment controller and the ReplicaSet controller.  Each of
them puts back a whole object that it has read before, and others may write in between.

* `spec_writes_kept`: where every write of a status finds the spec that the writer has seen, and
  every update the generation that it has seen, specs are changed only by those whose business
  it is, and each change of a deployment has a higher generation.
-/

namespace K3rs

open Programs Transition

/-! ## Tasks -/

/-- `update_deployment`: the status, and the deployment if it has been updated. -/
def updateDeployment (ns name : String) (body : Deployment) :
    Program (StatusCode × Option Deployment) := do
  let key := deploymentKey ns name
  match ← (Prog.get key).attempt with
  | .error _ => return (.internalServerError, none)
  | .ok none => return (.notFound, none)
  | .ok (some existingData) =>
      match existingData.asDeployment with
      | none => return (.internalServerError, none)
      | some existing => do
          let deploy : Deployment :=
            { body with
              id := existing.id
              ns := ns
              createdAt := existing.createdAt
              generation := existing.generation + 1 }
          match ← (Prog.put key (.deployment deploy)).attempt with
          | .error _ => return (.internalServerError, none)
          | .ok () => return (.ok, some deploy)

/-- The writers of deployments and ReplicaSets. -/
inductive SpecTask where
  | update (ns name : String) (body : Deployment)
  | hpa (env : PassEnv)
  | deployments (env : PassEnv)
  | replicaSets (env : PassEnv)

namespace SpecTask

/-- What a task does; a pass has no answer. -/
def code : SpecTask → Program (Option StatusCode)
  | update ns name body => do return some (← updateDeployment ns name body).1
  | hpa env => do
      reconcileHpas env
      return none
  | deployments env => do
      reconcileDeployments env
      return none
  | replicaSets env => do
      reconcileReplicaSets env
      return none

/-- Those who may change the spec of a deployment. -/
def updates : SpecTask → Bool
  | update _ _ _ => true
  | hpa _ => true
  | _ => false

/-- Those who may change the replica count of a ReplicaSet. -/
def scales : SpecTask → Bool
  | deployments _ => true
  | _ => false

end SpecTask

/-- The operations of an update, given what it has seen. -/
inductive UpdateWrite (seen : Seen String Object) : Op String Object → Prop where
  | get (k : String) : UpdateWrite seen (.get k)
  /-- The next generation of a deployment it saw last. -/
  | update (k : String) (existing deploy : Deployment)
      (hseen : seen.last k = some (.deployment existing))
      (hgeneration : deploy.generation = existing.generation + 1) :
      UpdateWrite seen (.put k (.deployment deploy))

theorem updateDeployment_meets (ns name : String) (body : Deployment) (seen : Seen String Object) :
    (updateDeployment ns name body).Meets UpdateWrite (fun _ _ => True) seen := by
  refine Prog.Meets.bind (Prog.Meets.attempt (Prog.Meets.get (.get _) (fun v => ?_) fun _ => trivial))
  cases v with
  | none => trivial
  | some w =>
      cases hw : w.asDeployment with
      | none =>
          simp only [hw]
          trivial
      | some existing =>
          simp only [hw]
          obtain rfl := Object.asDeployment_eq_some.mp hw
          refine Prog.Meets.bind (Prog.Meets.attempt (Prog.Meets.put
            (.update _ existing _ (Seen.last_note_self _ _ _) rfl) trivial fun _ => trivial))

/-- The operations of a task, given what it has seen. -/
def SpecTask.Writes : SpecTask → Seen String Object → Op String Object → Prop
  | update _ _ _ => UpdateWrite
  | hpa _ => HpaWrite
  | deployments _ => DeploymentWrite
  | replicaSets _ => ReplicaSetWrite

theorem SpecTask.code_meets (task : SpecTask) :
    task.code.Meets task.Writes (fun _ _ => True) Seen.empty := by
  cases task with
  | update ns name body =>
      exact Prog.Meets.seq (updateDeployment_meets ns name body _) fun _ _ _ => trivial
  | hpa env => exact Prog.Meets.seq (reconcileHpas_meets env _) fun _ _ _ => trivial
  | deployments env => exact Prog.Meets.seq (reconcileDeployments_meets env _) fun _ _ _ => trivial
  | replicaSets env => exact Prog.Meets.seq (reconcileReplicaSets_meets env _) fun _ _ _ => trivial

/-! ## What is asked for -/

/-- The store and those who write to it. -/
abbrev SpecPool := Pool String Object SpecTask (Option StatusCode)

/-- What is asked of a step: if the spec or the generation of a deployment changes, an updater
has changed it and the generation is higher; if the replica count of a ReplicaSet changes, the
deployment controller has changed it. -/
def SpecKept (pool : SpecPool) (s : PoolStep SpecTask) : Prop :=
  (∀ k d d', pool.store.lookup k = some (.deployment d) →
    (pool.step SpecTask.code s).store.lookup k = some (.deployment d') →
    d'.spec ≠ d.spec ∨ d'.generation ≠ d.generation →
    (∃ tid outcome th, s = .advance tid outcome ∧ pool.threads tid = some th ∧
      th.task.updates = true) ∧ d.generation < d'.generation) ∧
  ∀ k rs rs', pool.store.lookup k = some (.replicaSet rs) →
    (pool.step SpecTask.code s).store.lookup k = some (.replicaSet rs') →
    rs'.spec.replicas ≠ rs.spec.replicas →
    ∃ tid outcome th, s = .advance tid outcome ∧ pool.threads tid = some th ∧ th.task.scales = true

/-- The spec and the generation of a deployment. -/
def specOf (v : Option Object) : Option (DeploymentSpec × UInt64) :=
  (v.bind Object.asDeployment).map fun d => (d.spec, d.generation)

/-- The generation of a deployment. -/
def generationOf (v : Option Object) : Option UInt64 :=
  (v.bind Object.asDeployment).map Deployment.generation

/-- The replica count of a ReplicaSet. -/
def replicasOf (v : Option Object) : Option UInt32 :=
  (v.bind Object.asReplicaSet).map fun rs => rs.spec.replicas

/-- The writer has seen what is stored, as far as it is going to be kept. -/
def UpToDate (seen stored : Option Object) : SpecTask → Object → Prop
  | .deployments _, .deployment _ => specOf stored = none ∨ specOf stored = specOf seen
  | .replicaSets _, .replicaSet _ => replicasOf stored = none ∨ replicasOf stored = replicasOf seen
  | .update _ _ _, .deployment _ => generationOf stored = none ∨
      generationOf stored = generationOf seen ∧ generationOf seen ≠ some 0xffffffffffffffff
  | .hpa _, .deployment _ => generationOf stored = none ∨
      generationOf stored = generationOf seen ∧ generationOf seen ≠ some 0xffffffffffffffff
  | _, _ => True

instance (seen stored : Option Object) (task : SpecTask) (v : Object) :
    Decidable (UpToDate seen stored task v) := by
  unfold UpToDate
  split <;> infer_instance

/-- The condition on a step: a write finds what the writer has seen. -/
def FreshWrite (pool : SpecPool) : PoolStep SpecTask → Prop
  | .spawn _ _ => True
  | .advance tid _ =>
      match pool.threads tid with
      | some ⟨task, .op (.put k v) _, seen⟩ => UpToDate (seen.last k) (pool.store.lookup k) task v
      | _ => True

/-! ## Every run -/

theorem lt_next_generation {g : UInt64} (h : g ≠ 0xffffffffffffffff) : g < g + 1 := by
  rw [UInt64.lt_iff_toNat_lt, UInt64.toNat_add]
  have hne : g.toNat ≠ (0xffffffffffffffff : UInt64).toNat := fun heq => h (UInt64.toNat_inj.mp heq)
  have hlt := g.toNat_lt
  simp at hne ⊢
  omega

/-- A write to a deployment. -/
theorem deployment_write {task : SpecTask} {seen : Seen String Object} {k : String}
    {d d' : Deployment} {stored : Option Object} (hwrites : task.Writes seen (.put k (.deployment d')))
    (hfresh : UpToDate (seen.last k) stored task (.deployment d')) (hstored : stored = some (.deployment d))
    (hchanged : d'.spec ≠ d.spec ∨ d'.generation ≠ d.generation) :
    task.updates = true ∧ d.generation < d'.generation := by
  subst hstored
  have hnext : ∀ existing : Deployment, seen.last k = some (.deployment existing) →
      (generationOf (some (.deployment d)) = none ∨
        generationOf (some (.deployment d)) = generationOf (seen.last k) ∧
          generationOf (seen.last k) ≠ some 0xffffffffffffffff) →
      d'.generation = existing.generation + 1 → d.generation < d'.generation := by
    intro existing hseen hgeneration hd'
    rw [hseen] at hgeneration
    rcases hgeneration with hnone | ⟨hsame, hmax⟩
    · exact nomatch hnone
    · have heq : d.generation = existing.generation := Option.some_inj.mp hsame
      rw [hd', heq]
      exact lt_next_generation fun h => hmax (congrArg some h)
  cases task with
  | update ns name body =>
      obtain ⟨existing, hseen, hgeneration⟩ : ∃ existing, seen.last k = some (.deployment existing) ∧
          d'.generation = existing.generation + 1 := by
        cases hwrites with
        | update _ existing _ hseen hgeneration => exact ⟨existing, hseen, hgeneration⟩
      exact ⟨rfl, hnext existing hseen hfresh hgeneration⟩
  | hpa env =>
      obtain ⟨existing, hseen, hgeneration⟩ : ∃ existing, seen.last k = some (.deployment existing) ∧
          d'.generation = existing.generation + 1 := by
        cases hwrites with
        | scale _ existing _ hseen => exact ⟨existing, hseen, rfl⟩
      exact ⟨rfl, hnext existing hseen hfresh hgeneration⟩
  | deployments env =>
      -- The status goes onto the spec that was seen, which is the one that is stored.
      cases hwrites with
      | status _ deploy status hseen =>
          rw [hseen] at hfresh
          rcases hfresh with hnone | hsame
          · exact nomatch hnone
          · have heq : (d.spec, d.generation) = (deploy.spec, deploy.generation) :=
              Option.some_inj.mp hsame
            obtain ⟨hspec, hgeneration⟩ := Prod.mk.inj heq
            rcases hchanged with h | h
            · exact absurd hspec.symm h
            · exact absurd hgeneration.symm h
  | replicaSets env => cases hwrites

/-- A write to a ReplicaSet. -/
theorem replicaSet_write {task : SpecTask} {seen : Seen String Object} {k : String}
    {rs rs' : ReplicaSet} {stored : Option Object}
    (hwrites : task.Writes seen (.put k (.replicaSet rs')))
    (hfresh : UpToDate (seen.last k) stored task (.replicaSet rs'))
    (hstored : stored = some (.replicaSet rs)) (hchanged : rs'.spec.replicas ≠ rs.spec.replicas) :
    task.scales = true := by
  subst hstored
  cases task with
  | update ns name body => cases hwrites
  | hpa env => cases hwrites
  | deployments env => rfl
  | replicaSets env =>
      cases hwrites with
      | status _ old status hseen =>
          rw [hseen] at hfresh
          rcases hfresh with hnone | hsame
          · exact nomatch hnone
          · exact absurd (Option.some_inj.mp hsame).symm hchanged

/-- A step whose write finds what the writer has seen keeps the specs. -/
theorem specKept_of_fresh {pool : SpecPool} (h : pool.Disciplined SpecTask.Writes fun _ _ _ => True)
    (s : PoolStep SpecTask) (hs : FreshWrite pool s) : SpecKept pool s := by
  refine ⟨fun k d d' hd hd' hchanged => ?_, fun k rs rs' hrs hrs' hchanged => ?_⟩
  · rcases Pool.lookup_step hd' with hsame | ⟨tid, outcome, task, next, seen, rfl, hthread⟩
    · obtain rfl : d = d' := Object.deployment.inj (Option.some_inj.mp (hd.symm.trans hsame))
      simp at hchanged
    · simp only [FreshWrite, hthread] at hs
      obtain ⟨hupdates, hlt⟩ := deployment_write (h.next hthread) hs hd hchanged
      exact ⟨⟨tid, outcome, _, rfl, hthread, hupdates⟩, hlt⟩
  · rcases Pool.lookup_step hrs' with hsame | ⟨tid, outcome, task, next, seen, rfl, hthread⟩
    · obtain rfl : rs = rs' := Object.replicaSet.inj (Option.some_inj.mp (hrs.symm.trans hsame))
      exact absurd rfl hchanged
    · simp only [FreshWrite, hthread] at hs
      exact ⟨tid, outcome, _, rfl, hthread, replicaSet_write (h.next hthread) hs hrs hchanged⟩

/-- **Spec writes are kept.**  In every run in which each write finds what its writer has seen,
every change of a deployment's spec or generation is made by an update or the autoscaler and
takes the generation further up, and every change of a ReplicaSet's replica count is made by
the deployment controller. -/
theorem spec_writes_kept (store : Registry) (steps : List (PoolStep SpecTask))
    (h : Admitted (Pool.step SpecTask.code) FreshWrite (Pool.idle store) steps) :
    Admitted (Pool.step SpecTask.code) SpecKept (Pool.idle store) steps :=
  Admitted.mono (Pool.Disciplined SpecTask.Writes fun _ _ _ => True)
    (fun _ s _ hinv => hinv.step SpecTask.code_meets s)
    (fun _ s hinv hs => specKept_of_fresh hinv s hs)
    (Pool.disciplined_idle _ _ store) h

instance (pool : SpecPool) (s : PoolStep SpecTask) : Decidable (FreshWrite pool s) := by
  unfold FreshWrite
  split
  · infer_instance
  · split <;> infer_instance

/-! ## A lost update -/

/-- The update asks for three replicas. -/
def scaleWeb : SpecTask :=
  .update "default" "web" { webDeployment with spec := { webDeployment.spec with replicas := 3 } }

/-- One update runs through. -/
theorem spec_writes_kept_one_update :
    Admitted (Pool.step SpecTask.code) SpecKept (Pool.idle webStore)
      [.spawn 0 scaleWeb, .advance 0 .ok, .advance 0 .ok] :=
  spec_writes_kept _ _ (by decide)

/-- A pass of the deployment controller lists the deployment, an update changes it, and the
pass puts back what it has listed. -/
def lostUpdate : List (PoolStep SpecTask) :=
  [.spawn 0 (.deployments quietEnv), .advance 0 .ok, .advance 0 .ok,
   .spawn 1 scaleWeb, .advance 1 .ok, .advance 1 .ok,
   .advance 0 .ok, .advance 0 .ok, .advance 0 .ok]

/-- The put of the status takes the deployment back to the generation before the update. -/
theorem spec_writes_kept_fails_lost_update :
    ¬Admitted (Pool.step SpecTask.code) SpecKept (Pool.idle webStore)
      (lostUpdate ++ [.advance 0 .ok]) := by
  intro h
  obtain ⟨-, hkept, -⟩ := admitted_append.mp h
  have hbefore : (run (Pool.step SpecTask.code) (Pool.idle webStore) lostUpdate).store.lookup
      (deploymentKey "default" "web") = some (.deployment (webDeployment.rescaled 3)) := by
    decide +kernel
  have hafter : ((run (Pool.step SpecTask.code) (Pool.idle webStore) lostUpdate).step SpecTask.code
      (.advance 0 .ok)).store.lookup (deploymentKey "default" "web") =
        some (.deployment (webDeployment.observed ⟨0, 0, 0⟩)) := by
    decide +kernel
  obtain ⟨-, hlt⟩ := hkept.1 _ _ _ hbefore hafter (by decide)
  exact absurd hlt (by decide)

end K3rs
