import K3rs.Cluster.TemplateHash

/-!
# The deployment controller

A pass of `DeploymentController` goes through the deployments it has listed.  For each it lists
the ReplicaSets, brings those it owns in line with the strategy, lists them again for the
status, and puts back the deployment as it was listed, with the new status.

`reconcileDeployments_meets` says what such a pass can write, given what it has seen: the
status of a deployment it saw last, a ReplicaSet it has seen and whose owner it has seen, with
another replica count, or a new ReplicaSet of a deployment it has seen.
-/

namespace K3rs

open Programs

/-- What a pass of a controller gets from elsewhere.  Times and identifiers are chosen for each
object that is created: for the key it is created for, and a number. -/
structure PassEnv where
  /-- The order in which the maps of a template iterate, for the deployment under a key. -/
  order : String → PodSpec → PodSpec
  /-- `Uuid::new_v4`. -/
  uuid : String → ℕ → String
  /-- `Utc::now`. -/
  now : String → ℕ → DateTime
  /-- The replicas of a canary, of those of the deployment and the weight; the source computes
  them in `f64`. -/
  canaryReplicas : UInt32 → UInt32 → UInt32
  /-- `Scheduler::schedule`. -/
  schedule : Pod → List Node → Option String

/-! ## ReplicaSets -/

/-- Where the ReplicaSets of a namespace are. -/
def replicaSetPrefixOf (ns : String) : String := "/registry/replicasets/" ++ ns ++ "/"

/-- The key of a ReplicaSet. -/
def replicaSetKey (ns name : String) : String := replicaSetPrefixOf ns ++ name

/-- The ReplicaSets of a listing that an owner has. -/
def ownedReplicaSets (id : String) (entries : List (String × Object)) :
    List (String × ReplicaSet) :=
  entries.filterMap fun e => do
    let rs ← e.2.asReplicaSet
    if rs.ownerRef = some id then some (e.1, rs) else none

/-- A ReplicaSet with another replica count. -/
def ReplicaSet.scaleTo (rs : ReplicaSet) (replicas : UInt32) : ReplicaSet :=
  { rs with spec := { rs.spec with replicas := replicas } }

/-- The name of the ReplicaSet for a hash. -/
def replicaSetName (deploy : Deployment) (hash : String) : String :=
  deploy.name ++ "-" ++ String.ofList (hash.toList.take 8)

/-- The ReplicaSet that `create_replicaset` makes. -/
def newReplicaSet (id : String) (now : DateTime) (ns : String) (deploy : Deployment) (hash : String)
    (replicas : UInt32) : ReplicaSet where
  id := id
  name := replicaSetName deploy hash
  ns := ns
  spec := ⟨replicas, deploy.spec.selector, deploy.spec.template⟩
  status := ReplicaSetStatus.default
  ownerRef := some deploy.id
  templateHash := hash
  createdAt := now

/-- `create_replicaset`, for the deployment under `key`. -/
def createReplicaSet (env : PassEnv) (ns key : String) (deploy : Deployment) (hash : String)
    (replicas : UInt32) : Program Unit :=
  let rs := newReplicaSet (env.uuid key 0) (env.now key 0) ns deploy hash replicas
  Prog.put (replicaSetKey ns rs.name) (.replicaSet rs)

/-! ## Rollouts -/

/-- `u32::saturating_sub`. -/
def saturatingSub (a b : UInt32) : UInt32 := if a ≤ b then 0 else a - b

/-- Give the current ReplicaSet the replicas of the deployment. -/
def matchReplicas (deploy : Deployment) (current : String × ReplicaSet) : Program Unit :=
  if current.2.spec.replicas ≠ deploy.spec.replicas then
    Prog.put current.1 (.replicaSet (current.2.scaleTo deploy.spec.replicas))
  else pure ()

/-- Scale the ReplicaSets that are old and have replicas. -/
def scaleDown (old : ReplicaSet → Bool) (scale : UInt32 → UInt32)
    (owned : List (String × ReplicaSet)) : Program Unit :=
  Prog.forEach (fun e =>
    if old e.2 && decide (0 < e.2.spec.replicas) then
      Prog.put e.1 (.replicaSet (e.2.scaleTo (scale e.2.spec.replicas)))
    else pure ()) owned

/-- What a pass does with the ReplicaSets of a deployment. -/
def rollout (env : PassEnv) (ns key : String) (deploy : Deployment) (hash : String)
    (owned : List (String × ReplicaSet)) : Program Unit :=
  let current := owned.find? fun e => decide (e.2.templateHash = hash)
  let old := fun rs : ReplicaSet => decide (rs.templateHash ≠ hash)
  match deploy.spec.strategy, current with
  | .rollingUpdate _ _, some current => do
      matchReplicas deploy current
      scaleDown old (fun _ => 0) owned
  | .rollingUpdate maxSurge _, none => do
      createReplicaSet env ns key deploy hash (min deploy.spec.replicas maxSurge)
      scaleDown old (fun replicas => saturatingSub replicas (max maxSurge 1)) owned
  | .recreate, some current => matchReplicas deploy current
  | .recreate, none => do
      scaleDown (fun _ => true) (fun _ => 0) owned
      createReplicaSet env ns key deploy hash deploy.spec.replicas
  | .blueGreen, some current => do
      matchReplicas deploy current
      scaleDown old (fun _ => 0) owned
  | .blueGreen, none => createReplicaSet env ns key deploy hash deploy.spec.replicas
  | .canary _, some current => matchReplicas deploy current
  | .canary weight, none =>
      createReplicaSet env ns key deploy hash (env.canaryReplicas deploy.spec.replicas weight)

/-! ## Passes -/

/-- The status of a deployment, of its ReplicaSets. -/
def deploymentStatus (id hash : String) (entries : List (String × Object)) : DeploymentStatus :=
  (ownedReplicaSets id entries).foldl (fun status e =>
    { readyReplicas := status.readyReplicas + e.2.status.readyReplicas
      availableReplicas := status.availableReplicas + e.2.status.availableReplicas
      updatedReplicas :=
        if e.2.templateHash = hash then status.updatedReplicas + e.2.status.readyReplicas
        else status.updatedReplicas }) ⟨0, 0, 0⟩

/-- A deployment with the status that a pass has found. -/
def Deployment.observed (deploy : Deployment) (status : DeploymentStatus) : Deployment :=
  { deploy with status := status, observedGeneration := deploy.generation }

/-- A pass over one listed deployment. -/
def reconcileDeployment (env : PassEnv) (ns : String) (entry : String × Object) : Program Unit :=
  match entry.2.asDeployment with
  | none => pure ()
  | some deploy => do
      let hash := templateHash (env.order entry.1 deploy.spec.template)
      let rsEntries ← listPrefix (replicaSetPrefixOf ns)
      rollout env ns entry.1 deploy hash (ownedReplicaSets deploy.id rsEntries)
      let rsEntries ← listPrefix (replicaSetPrefixOf ns)
      Prog.put entry.1 (.deployment (deploy.observed (deploymentStatus deploy.id hash rsEntries)))

/-- `DeploymentController::reconcile_namespace`. -/
def reconcileDeploymentNamespace (env : PassEnv) (ns : String) : Program Unit := do
  let entries ← listPrefix ("/registry/deployments/" ++ ns ++ "/")
  Prog.forEach (reconcileDeployment env ns) entries

/-- `DeploymentController::reconcile`. -/
def reconcileDeployments (env : PassEnv) : Program Unit :=
  reconcileNamespaces (reconcileDeploymentNamespace env)

/-! ## What a pass can write -/

/-- The operations of a pass, given what it has seen. -/
inductive DeploymentWrite (seen : Seen String Object) : Op String Object → Prop where
  | list (p : String → Bool) : DeploymentWrite seen (.list p)
  /-- The status of a deployment it saw last. -/
  | status (k : String) (deploy : Deployment) (status : DeploymentStatus)
      (hseen : seen.last k = some (.deployment deploy)) :
      DeploymentWrite seen (.put k (.deployment (deploy.observed status)))
  /-- The replica count of a ReplicaSet. -/
  | scale (k key : String) (rs : ReplicaSet) (replicas : UInt32) (deploy : Deployment)
      (hseen : seen.Ever k (.replicaSet rs)) (howner : seen.Ever key (.deployment deploy))
      (howns : rs.ownerRef = some deploy.id) :
      DeploymentWrite seen (.put k (.replicaSet (rs.scaleTo replicas)))
  /-- A new ReplicaSet. -/
  | create (key id : String) (now : DateTime) (ns : String) (deploy : Deployment) (hash : String)
      (replicas : UInt32) (howner : seen.Ever key (.deployment deploy)) :
      DeploymentWrite seen (.put (replicaSetKey ns (replicaSetName deploy hash))
        (.replicaSet (newReplicaSet id now ns deploy hash replicas)))

/-- A key below the ReplicaSets. -/
def IsReplicaSetKey (k : String) : Prop := startsWith k "/registry/replicasets/" = true

theorem startsWith_replicaSetPrefixOf (ns : String) :
    startsWith (replicaSetPrefixOf ns) "/registry/replicasets/" = true :=
  startsWith_append_left (startsWith_append _ _) _

theorem isReplicaSetKey_key (ns name : String) : IsReplicaSetKey (replicaSetKey ns name) :=
  startsWith_append_left (startsWith_replicaSetPrefixOf ns) name

theorem isReplicaSetKey_of_listed {ns k : String} (h : startsWith k (replicaSetPrefixOf ns) = true) :
    IsReplicaSetKey k := startsWith_trans h (startsWith_replicaSetPrefixOf ns)

theorem mem_ownedReplicaSets {id : String} {entries : List (String × Object)}
    {e : String × ReplicaSet} : e ∈ ownedReplicaSets id entries ↔
      (e.1, .replicaSet e.2) ∈ entries ∧ e.2.ownerRef = some id := by
  rw [ownedReplicaSets, List.mem_filterMap]
  constructor
  · rintro ⟨⟨k, v⟩, hmem, hrs⟩
    obtain ⟨rs, hv, hif⟩ := Option.bind_eq_some_iff.mp hrs
    obtain rfl := Object.asReplicaSet_eq_some.mp hv
    split_ifs at hif with howner
    obtain rfl := Option.some_inj.mp hif
    exact ⟨hmem, howner⟩
  · rintro ⟨hmem, howner⟩
    refine ⟨_, hmem, Option.bind_eq_some_iff.mpr ⟨e.2, rfl, ?_⟩⟩
    rw [if_pos howner]

theorem nodup_ownedReplicaSets {id : String} {entries : List (String × Object)}
    (h : (entries.map Prod.fst).Nodup) : ((ownedReplicaSets id entries).map Prod.fst).Nodup := by
  refine KeyValue.nodup_filterMap (fun e e' he => ?_) h
  obtain ⟨rs, -, hif⟩ := Option.bind_eq_some_iff.mp he
  split_ifs at hif
  rw [← Option.some_inj.mp hif]

section Rollout

variable {env : PassEnv} {ns key : String} {deploy : Deployment} {hash : String}
  {owned : List (String × ReplicaSet)} {seen : Seen String Object}

/-- What is known of the ReplicaSets that a rollout works on. -/
def Known (deploy : Deployment) (key : String) (owned : List (String × ReplicaSet))
    (seen : Seen String Object) : Prop :=
  seen.Ever key (.deployment deploy) ∧ ∀ e ∈ owned,
    seen.Ever e.1 (.replicaSet e.2) ∧ IsReplicaSetKey e.1 ∧ e.2.ownerRef = some deploy.id

theorem Known.grows {seen' : Seen String Object} (h : Known deploy key owned seen)
    (hgrows : Seen.Grows IsReplicaSetKey seen seen') : Known deploy key owned seen' :=
  ⟨hgrows.ever h.1, fun e he => ⟨hgrows.ever (h.2 e he).1, (h.2 e he).2⟩⟩

/-- A write below the ReplicaSets. -/
theorem meets_put_replicaSet {seen₀ : Seen String Object} {k : String} {v : Object}
    (hgrows : Seen.Grows IsReplicaSetKey seen₀ seen) (hk : IsReplicaSetKey k)
    (hwrite : DeploymentWrite seen (.put k v)) :
    (Prog.put k v).Meets DeploymentWrite (fun _ s => Seen.Grows IsReplicaSetKey seen₀ s) seen :=
  Prog.Meets.put hwrite (hgrows.trans (Seen.grows_note seen hk _)) fun _ => hgrows

theorem matchReplicas_meets {seen₀ : Seen String Object} {current : String × ReplicaSet}
    (hcurrent : current ∈ owned) (hknown : Known deploy key owned seen₀)
    (hgrows : Seen.Grows IsReplicaSetKey seen₀ seen) :
    (matchReplicas deploy current).Meets DeploymentWrite
      (fun _ s => Seen.Grows IsReplicaSetKey seen₀ s) seen := by
  obtain ⟨howner, howned⟩ := hknown.grows hgrows
  obtain ⟨hseen, hkey, hid⟩ := howned current hcurrent
  rw [matchReplicas]
  split_ifs
  · exact meets_put_replicaSet hgrows hkey (.scale _ key _ _ deploy hseen howner hid)
  · exact hgrows

theorem scaleDown_meets {seen₀ : Seen String Object} (old : ReplicaSet → Bool)
    (scale : UInt32 → UInt32) (hknown : Known deploy key owned seen₀)
    (hgrows : Seen.Grows IsReplicaSetKey seen₀ seen) :
    (scaleDown old scale owned).Meets DeploymentWrite
      (fun _ s => Seen.Grows IsReplicaSetKey seen₀ s) seen := by
  refine Prog.Meets.loop (fun e he s hs => ?_) hgrows
  obtain ⟨howner, howned⟩ := hknown.grows hs
  obtain ⟨hseen, hkey, hid⟩ := howned e he
  split_ifs
  · exact meets_put_replicaSet hs hkey (.scale _ key _ _ deploy hseen howner hid)
  · exact hs

theorem createReplicaSet_meets {seen₀ : Seen String Object} (replicas : UInt32)
    (hknown : Known deploy key owned seen₀) (hgrows : Seen.Grows IsReplicaSetKey seen₀ seen) :
    (createReplicaSet env ns key deploy hash replicas).Meets DeploymentWrite
      (fun _ s => Seen.Grows IsReplicaSetKey seen₀ s) seen :=
  meets_put_replicaSet hgrows (isReplicaSetKey_key ns _)
    (.create key _ _ ns deploy hash replicas (hknown.grows hgrows).1)

theorem rollout_meets (hknown : Known deploy key owned seen) :
    (rollout env ns key deploy hash owned).Meets DeploymentWrite
      (fun _ s => Seen.Grows IsReplicaSetKey seen s) seen := by
  have hrefl := Seen.Grows.refl IsReplicaSetKey seen
  simp only [rollout]
  split
  · rename_i current hcurrent
    refine Prog.Meets.seq (matchReplicas_meets (List.mem_of_find?_eq_some hcurrent) hknown hrefl) ?_
    exact fun _ s hs => scaleDown_meets _ _ hknown hs
  · refine Prog.Meets.seq (createReplicaSet_meets _ hknown hrefl) ?_
    exact fun _ s hs => scaleDown_meets _ _ hknown hs
  · rename_i current hcurrent
    exact matchReplicas_meets (List.mem_of_find?_eq_some hcurrent) hknown hrefl
  · refine Prog.Meets.seq (scaleDown_meets _ _ hknown hrefl) ?_
    exact fun _ s hs => createReplicaSet_meets _ hknown hs
  · rename_i current hcurrent
    refine Prog.Meets.seq (matchReplicas_meets (List.mem_of_find?_eq_some hcurrent) hknown hrefl) ?_
    exact fun _ s hs => scaleDown_meets _ _ hknown hs
  · exact createReplicaSet_meets _ hknown hrefl
  · rename_i current hcurrent
    exact matchReplicas_meets (List.mem_of_find?_eq_some hcurrent) hknown hrefl
  · exact createReplicaSet_meets _ hknown hrefl

end Rollout

/-! ## Whole passes -/

theorem reconcileDeployment_meets (env : PassEnv) (ns : String) (e : String × Object)
    (rest : List (String × Object)) (seen : Seen String Object)
    (h : Pending IsReplicaSetKey (e :: rest) seen) :
    (reconcileDeployment env ns e).Meets DeploymentWrite (fun r s =>
      match r with
      | .ok _ => Pending IsReplicaSetKey rest s
      | .error _ => True) seen := by
  obtain ⟨hlast, hkey⟩ := h.1 e List.mem_cons_self
  have hlists : ∀ k, startsWith k (replicaSetPrefixOf ns) = true → IsReplicaSetKey k :=
    fun k hk => isReplicaSetKey_of_listed hk
  rw [reconcileDeployment]
  cases hdeploy : e.2.asDeployment with
  | none => exact h.tail
  | some deploy =>
      rw [Object.asDeployment_eq_some.mp hdeploy] at hlast
      refine Prog.Meets.bind (Prog.Meets.list (.list _) (fun entries hp hnodup => ?_) fun _ => trivial)
      -- The owned ReplicaSets have just been seen.
      have hgrows₁ := Seen.grows_listing seen hlists entries
      have hknown : Known deploy e.1 (ownedReplicaSets deploy.id entries)
          (seen.listing (fun k => startsWith k (replicaSetPrefixOf ns)) entries) := by
        refine ⟨hgrows₁.ever (Seen.Ever.of_last hlast), fun e' he' => ?_⟩
        obtain ⟨hmem, howner⟩ := mem_ownedReplicaSets.mp he'
        have hlisted := Seen.last_listing seen (p := fun k => startsWith k (replicaSetPrefixOf ns)) hp
          hnodup hmem
        exact ⟨Seen.Ever.of_last hlisted, hlists _ (hp _ hmem), howner⟩
      refine Prog.Meets.bind ((rollout_meets hknown).mono fun r s hgrows₂ => ?_)
      cases r with
      | error e => trivial
      | ok u =>
          refine Prog.Meets.bind
            (Prog.Meets.list (.list _) (fun entries' _ _ => ?_) fun _ => trivial)
          have hgrows := (hgrows₁.trans hgrows₂).trans (Seen.grows_listing s hlists entries')
          refine Prog.Meets.put (.status _ deploy _ ?_) (h.put hgrows _) fun _ => trivial
          rw [hgrows.last hkey]
          exact hlast

theorem not_isReplicaSetKey_of_deployment {k ns : String}
    (h : startsWith k ("/registry/deployments/" ++ ns ++ "/") = true) : ¬IsReplicaSetKey k := by
  have hdir : startsWith k "/registry/deployments/" = true :=
    startsWith_trans h (startsWith_append_left (startsWith_append _ _) _)
  rw [IsReplicaSetKey, not_startsWith_of_startsWith hdir (by decide) (by decide)]
  exact Bool.false_ne_true

/-- **What a pass of the deployment controller can write.** -/
theorem reconcileDeployments_meets (env : PassEnv) (seen : Seen String Object) :
    (reconcileDeployments env).Meets DeploymentWrite (fun _ _ => True) seen := by
  refine reconcileNamespaces_meets (fun _ p => .list p) (fun ns s => ?_) seen
  refine Prog.Meets.bind (Prog.Meets.list (.list _) (fun entries hp hnodup => ?_) fun _ => trivial)
  refine Prog.Meets.mono (fun _ _ _ => trivial) (Prog.Meets.forEach (Pending IsReplicaSetKey)
    (fun _ => True) (reconcileDeployment_meets env ns)
    (pending_listing s hp hnodup fun k hk => not_isReplicaSetKey_of_deployment hk))

/-! ## A small cluster -/

/-- An empty pod template. -/
def emptyTemplate : PodSpec := ⟨[], none, [], [], [], none⟩

/-- A deployment `web` with one replica. -/
def webDeployment : Deployment where
  id := "d1"
  name := "web"
  ns := "default"
  spec := ⟨1, emptyTemplate, .recreate, []⟩
  status := ⟨0, 0, 0⟩
  generation := 1
  observedGeneration := 1
  createdAt := 0

/-- Nothing iterates, and nothing is scheduled. -/
def quietEnv : PassEnv where
  order := fun _ template => template
  uuid := fun _ _ => "rs1"
  now := fun _ _ => 0
  canaryReplicas := fun replicas _ => replicas
  schedule := fun _ _ => none

/-- A store with one namespace and one deployment. -/
def webStore : Registry :=
  (KeyValue.insert ∅ "/registry/namespaces/default" (.other "")).insert
    "/registry/deployments/default/web" (.deployment webDeployment)

end K3rs
