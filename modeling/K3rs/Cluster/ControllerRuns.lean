import K3rs.Cluster.Canary
import K3rs.Cluster.ReplicaPasses
import K3rs.Lib.Transition

/-!
# Runs of the two controllers

Passes of the deployment controller and of the ReplicaSet controller, one after the other in any
order, and pods that begin to run in between.

Only the ReplicaSet controller creates and deletes pods (`spares_reconcileDeployments`), and of the
ReplicaSets it changes nothing but the status (`sameSets_afterReplicaSets`).
-/

namespace K3rs

open Programs Transition

/-! ## Steps -/

/-- A pass of one of the controllers, or the report that the pod under a key runs. -/
inductive ControllerStep where
  | deployments (env : PassEnv)
  | replicaSets (env : PassEnv)
  | running (key : String)

/-- The pod under the key runs. -/
def setRunning (key : String) (s : Registry) : Registry :=
  match s.lookup key with
  | some (.pod p) => s.insert key (.pod { p with status := .running })
  | _ => s

namespace ControllerStep

/-- The store after a step. -/
def next (s : Registry) : ControllerStep → Registry
  | .deployments env => afterDeployments env s
  | .replicaSets env => afterReplicaSets env s
  | .running key => setRunning key s

/-- Every operation of the pass satisfies `A`, in the store in which it is executed. -/
def Each (A : Registry → Op String Object → Prop) (s : Registry) : ControllerStep → Prop
  | .deployments env => (reconcileDeployments env).Each A s
  | .replicaSets env => (reconcileReplicaSets env).Each A s
  | .running _ => True

instance (A : Registry → Op String Object → Prop) [∀ s o, Decidable (A s o)] (s : Registry)
    (step : ControllerStep) : Decidable (step.Each A s) := by
  cases step <;> unfold Each <;> infer_instance

end ControllerStep

/-! ## Passes of the deployment controller -/

section Deployments

variable {env : PassEnv} {ns k : String} {deploy : Deployment} {s : Registry}

/-- The program writes and removes no pod. -/
abbrev Spares (x : Program Unit) (s : Registry) : Prop := x.Each (fun _ o => SparesPods o) s

theorem spares_matchReplicas (current : String × ReplicaSet) : Spares (matchReplicas deploy current) s := by
  rw [matchReplicas]
  split_ifs
  · exact fun _ => ⟨trivial, trivial⟩
  · trivial

theorem spares_scaleDown (old : ReplicaSet → Bool) (scale : UInt32 → UInt32)
    (owned : List (String × ReplicaSet)) : Spares (scaleDown old scale owned) s := by
  refine Prog.Runs.forEach (fun _ _ => True) (fun e rest s _ => ?_) trivial
  split_ifs
  · exact fun _ => ⟨trivial, trivial⟩
  · trivial

theorem spares_rollout (hash : String) (owned : List (String × ReplicaSet)) :
    Spares (rollout env ns k deploy hash owned) s := by
  have hcreate : ∀ replicas s, Spares (createReplicaSet env ns k deploy hash replicas) s :=
    fun _ _ _ => ⟨trivial, trivial⟩
  simp only [rollout]
  split
  · exact Prog.Runs.bind ((spares_matchReplicas _).mono fun _ _ _ => spares_scaleDown _ _ owned)
  · exact Prog.Runs.bind ((hcreate _ _).mono fun _ _ _ => spares_scaleDown _ _ owned)
  · exact spares_matchReplicas _
  · exact Prog.Runs.bind ((spares_scaleDown _ _ owned).mono fun _ _ _ => hcreate _ _)
  · exact Prog.Runs.bind ((spares_matchReplicas _).mono fun _ _ _ => spares_scaleDown _ _ owned)
  · exact hcreate _ _
  · exact spares_matchReplicas _
  · exact hcreate _ _

theorem spares_reconcileDeployment (e : String × Object) : Spares (reconcileDeployment env ns e) s := by
  rw [reconcileDeployment]
  cases e.2.asDeployment with
  | none => trivial
  | some deploy =>
      refine Prog.Runs.bind (Prog.Runs.list trivial (Prog.Runs.bind
        ((spares_rollout _ _).mono fun _ s₁ _ => ?_)))
      exact Prog.Runs.bind (Prog.Runs.list trivial fun _ => ⟨trivial, trivial⟩)

/-- **The deployment controller leaves pods alone.** -/
theorem spares_reconcileDeployments (env : PassEnv) (s : Registry) :
    Spares (reconcileDeployments env) s := by
  refine Prog.Runs.bind (Prog.Runs.list trivial (Prog.Runs.forEach (fun _ _ => True)
    (fun e rest s _ => ?_) trivial))
  split_ifs
  · trivial
  · exact Prog.Runs.bind (Prog.Runs.list trivial (Prog.Runs.forEach (fun _ _ => True)
      (fun e rest s _ => spares_reconcileDeployment e) trivial))

end Deployments

/-! ## Passes of the ReplicaSet controller -/

section ReplicaSets

variable {env : PassEnv} {s₀ s s' : Registry} {I : Registry → Prop}
  (hI : ∀ s s' k rs, IsReplicaSetKey k → s.lookup k = some (.replicaSet rs) → Handles rs k s s' →
    I s → I s')

include hI

/-- What every ReplicaSet keeps, a namespace keeps. -/
theorem runs_reconcileReplicaSetNamespace_keeping (ns : String) (h : I s) :
    (reconcileReplicaSetNamespace env ns).Runs FreshPods (fun _ _ => True) (fun _ => I) s := by
  refine Prog.Runs.bind (Prog.Runs.list trivial (Prog.Runs.bind (Prog.Runs.list trivial ?_)))
  refine (Prog.Runs.forEach (fun rest s' => I s' ∧ Current rest s' ∧ (rest.map Prod.fst).Nodup ∧
    ∀ e ∈ rest, startsWith e.1 (replicaSetPrefixOf ns) = true) (fun e rest s' hs' => ?_)
    ⟨h, fun e he rs _ => (KeyValue.mem_scan.mp he).1, s.nodup_scan _,
      fun e he => (KeyValue.mem_scan.mp he).2⟩).mono fun _ s' hs' => hs'.1
  obtain ⟨hs', hcurrent, hnodup, hbelow⟩ := hs'
  obtain ⟨hnot, hrest⟩ := List.nodup_cons.mp hnodup
  have hbelow' : ∀ e' ∈ rest, startsWith e'.1 (replicaSetPrefixOf ns) = true :=
    fun e' he' => hbelow e' (List.mem_cons_of_mem e he')
  cases hrs : e.2.asReplicaSet with
  | none =>
      rw [reconcileReplicaSet, hrs]
      exact ⟨hs', hcurrent.tail, hrest, hbelow'⟩
  | some rs =>
      obtain ⟨k, v⟩ := e
      obtain rfl := Object.asReplicaSet_eq_some.mp hrs
      have hk : IsReplicaSetKey k := isReplicaSetKey_of_listed (hbelow _ List.mem_cons_self)
      have hstored := hcurrent _ List.mem_cons_self rs rfl
      refine (runs_reconcileReplicaSet hk (fun _ _ _ => trivial) (fun _ _ _ _ => trivial)
        fun _ _ _ => trivial).mono fun _ s'' hs'' => ?_
      exact ⟨hI s' s'' k rs hk hstored hs''.1 hs', hcurrent.tail.handles hs''.1
        (fun e he => isReplicaSetKey_of_listed (hbelow' e he)) hnot, hrest, hbelow'⟩

/-- **What every ReplicaSet keeps**, a pass keeps. -/
theorem keeps_afterReplicaSets (hfresh : FreshPass env s) (h : I s) : I (afterReplicaSets env s) := by
  have hpass : (reconcileReplicaSets env).Runs FreshPods (fun _ _ => True) (fun _ => I) s := by
    refine Prog.Runs.bind (Prog.Runs.list trivial (Prog.Runs.forEach (fun _ => I)
      (fun e rest s' hs' => ?_) h))
    split_ifs
    · exact hs'
    · exact runs_reconcileReplicaSetNamespace_keeping hI _ hs'
  exact (hpass.discharge hfresh).after

end ReplicaSets

/-- The ReplicaSets of both stores differ in their status only. -/
def SameSets (s₀ s : Registry) : Prop :=
  ∀ key, (∃ rs₀, s₀.lookup key = some (.replicaSet rs₀) ∧
      ∃ status, s.lookup key = some (.replicaSet { rs₀ with status := status })) ∨
    (∀ rs, s₀.lookup key ≠ some (.replicaSet rs)) ∧ ∀ rs, s.lookup key ≠ some (.replicaSet rs)

theorem sameSets_refl (s : Registry) : SameSets s s := by
  intro key
  by_cases hrs : ∃ rs, s.lookup key = some (.replicaSet rs)
  · obtain ⟨rs, hrs⟩ := hrs
    exact Or.inl ⟨rs, hrs, rs.status, hrs⟩
  · push Not at hrs
    exact Or.inr ⟨hrs, hrs⟩

/-- **A pass of the ReplicaSet controller** changes the status of ReplicaSets only. -/
theorem sameSets_afterReplicaSets {env : PassEnv} {s : Registry} (hfresh : FreshPass env s) :
    SameSets s (afterReplicaSets env s) := by
  refine keeps_afterReplicaSets (I := SameSets s) (fun s₁ s₂ k rs hk hstored hhandles h key => ?_)
    hfresh (sameSets_refl s)
  rcases hhandles key with hsame | ⟨hpod, hbefore, hafter⟩ | ⟨rfl, status, hstatus⟩
  · rw [hsame]
    exact h key
  · -- There is a pod or nothing before and after.
    have hnot : ∀ {v : Option Object}, PodOf rs.id v → ∀ rs', v ≠ some (.replicaSet rs') := by
      rintro v hv rs' rfl
      obtain ⟨p, hp, -⟩ := hv _ rfl
      exact nomatch hp
    rcases h key with ⟨rs₀, -, status, hrs⟩ | hnone
    · exact absurd hrs (hnot hbefore _)
    · exact Or.inr ⟨hnone.1, hnot hafter⟩
  · rcases h key with ⟨rs₀, hrs₀, status₀, hrs⟩ | hnone
    · obtain rfl := Object.replicaSet.inj (Option.some_inj.mp (hstored.symm.trans hrs))
      exact Or.inl ⟨rs₀, hrs₀, status, hstatus⟩
    · exact absurd hstored (hnone.2 rs)

/-! ## A small cluster -/

/-- The ReplicaSet of an older template, with one replica. -/
def olderReplicaSet : ReplicaSet := newReplicaSet "rs0" 0 "default" webDeployment "older" 1

/-- A pass of each controller. -/
def oneRollout : List ControllerStep := [.deployments quietEnv, .replicaSets quietEnv]

end K3rs
