import K3rs.Cluster.Deployments
import K3rs.Lib.LonePrograms

/-!
# Lone passes of the deployment controller

What one pass of `DeploymentController` does to the store when nobody else writes to it.

For one deployment there are two cases.  If one of its ReplicaSets has the hash of its template,
that one gets the replicas of the deployment and the others are kept or emptied, as the strategy
says (`leaves_rollout_some`).  If not, the ReplicaSet for the template is created, and the others
are shrunk (`leaves_rollout_none`).

About the other deployments of a pass it is enough to know what they leave alone: they scale
ReplicaSets that they own, write the ReplicaSet under their current key, and put back their own
status (`Touches`).  `leaves_reconcileDeployments` is the rule for a whole pass: what every other
deployment keeps, and the deployment itself brings about, holds after the pass.
-/

namespace K3rs

open Programs

/-! ## Scaling -/

@[simp] theorem ReplicaSet.id_scaleTo (rs : ReplicaSet) (n : UInt32) : (rs.scaleTo n).id = rs.id := rfl

@[simp] theorem ReplicaSet.ownerRef_scaleTo (rs : ReplicaSet) (n : UInt32) :
    (rs.scaleTo n).ownerRef = rs.ownerRef := rfl

@[simp] theorem ReplicaSet.templateHash_scaleTo (rs : ReplicaSet) (n : UInt32) :
    (rs.scaleTo n).templateHash = rs.templateHash := rfl

@[simp] theorem ReplicaSet.replicas_scaleTo (rs : ReplicaSet) (n : UInt32) :
    (rs.scaleTo n).spec.replicas = n := rfl

/-- The store has the ReplicaSets of a list. -/
def Holds (owned : List (String × ReplicaSet)) (s : Registry) : Prop :=
  ∀ e ∈ owned, s.lookup e.1 = some (.replicaSet e.2)

/-- The ReplicaSets of a list have been scaled, and nothing else has changed. -/
structure Scaled (owned : List (String × ReplicaSet)) (f : ReplicaSet → UInt32) (s s' : Registry) :
    Prop where
  scaled : ∀ e ∈ owned, s'.lookup e.1 = some (.replicaSet (e.2.scaleTo (f e.2)))
  same : ∀ key, (∀ e ∈ owned, e.1 ≠ key) → s'.lookup key = s.lookup key

/-- As before, and a ReplicaSet has been created. -/
structure ScaledAndCreated (owned : List (String × ReplicaSet)) (f : ReplicaSet → UInt32)
    (c : String) (rs : ReplicaSet) (s s' : Registry) : Prop where
  created : s'.lookup c = some (.replicaSet rs)
  scaled : ∀ e ∈ owned, s'.lookup e.1 = some (.replicaSet (e.2.scaleTo (f e.2)))
  same : ∀ key, key ≠ c → (∀ e ∈ owned, e.1 ≠ key) → s'.lookup key = s.lookup key

section Scaling

variable {owned : List (String × ReplicaSet)} {s : Registry} {deploy : Deployment}

/-- **A loop over ReplicaSets** that puts back some of them with other replicas. -/
theorem leaves_scaleDown (old : ReplicaSet → Bool) (scale : UInt32 → UInt32)
    (hnodup : (owned.map Prod.fst).Nodup) :
    (scaleDown old scale owned).Leaves (fun _ s' =>
      (∀ e ∈ owned, s'.lookup e.1 = if old e.2 && decide (0 < e.2.spec.replicas) then
        some (.replicaSet (e.2.scaleTo (scale e.2.spec.replicas))) else s.lookup e.1) ∧
      ∀ key, (∀ e ∈ owned, e.1 ≠ key) → s'.lookup key = s.lookup key) s := by
  induction owned generalizing s with
  | nil => exact ⟨fun _ he => absurd he List.not_mem_nil, fun _ _ => rfl⟩
  | cons e rest ih =>
      obtain ⟨hnot, hrest⟩ := List.nodup_cons.mp hnodup
      have hne : ∀ e' ∈ rest, e'.1 ≠ e.1 := fun e' he' heq => hnot (heq ▸ List.mem_map_of_mem he')
      -- One round, of which only the key of the ReplicaSet is concerned.
      have hround : ∀ s₁ : Registry, (∀ key, e.1 ≠ key → s₁.lookup key = s.lookup key) →
          (s₁.lookup e.1 = if old e.2 && decide (0 < e.2.spec.replicas) then
            some (.replicaSet (e.2.scaleTo (scale e.2.spec.replicas))) else s.lookup e.1) →
          (scaleDown old scale rest).Leaves (fun _ s' =>
            (∀ e' ∈ e :: rest, s'.lookup e'.1 = if old e'.2 && decide (0 < e'.2.spec.replicas) then
              some (.replicaSet (e'.2.scaleTo (scale e'.2.spec.replicas))) else s.lookup e'.1) ∧
            ∀ key, (∀ e' ∈ e :: rest, e'.1 ≠ key) → s'.lookup key = s.lookup key) s₁ := by
        intro s₁ hothers hhead
        refine (ih hrest).mono fun _ s' h => ⟨fun e' he' => ?_, fun key hkey => ?_⟩
        · rcases List.mem_cons.mp he' with rfl | he'
          · rw [h.2 _ hne, hhead]
          · rw [h.1 e' he', hothers _ (hne e' he').symm]
        · rw [h.2 key fun e' he' => hkey e' (List.mem_cons_of_mem e he')]
          exact hothers key (hkey e List.mem_cons_self)
      refine Prog.Runs.bind ?_
      dsimp only
      split_ifs with hwrite
      · refine fun _ => ⟨trivial, hround _ (fun key hkey => ?_) ?_⟩
        · exact KeyValue.lookup_insert_of_ne hkey.symm
        · rw [if_pos hwrite]
          exact KeyValue.lookup_insert_self _ _ _
      · exact hround s (fun _ _ => rfl) (if_neg hwrite).symm

/-- **The current ReplicaSet gets the replicas of the deployment.** -/
theorem leaves_matchReplicas {current : String × ReplicaSet}
    (hholds : s.lookup current.1 = some (.replicaSet current.2)) :
    (matchReplicas deploy current).Leaves (fun _ s' =>
      s'.lookup current.1 = some (.replicaSet (current.2.scaleTo deploy.spec.replicas)) ∧
        ∀ key, key ≠ current.1 → s'.lookup key = s.lookup key) s := by
  rw [matchReplicas]
  split_ifs with hne
  · refine fun _ => ⟨trivial, KeyValue.lookup_insert_self _ _ _, fun key hkey => ?_⟩
    exact KeyValue.lookup_insert_of_ne hkey
  · refine ⟨?_, fun _ _ => rfl⟩
    rw [← not_not.mp hne]
    exact hholds

end Scaling

/-! ## Rollouts -/

/-- What becomes of the replicas of an old ReplicaSet when the current one is there. -/
def DeploymentStrategy.keep : DeploymentStrategy → UInt32 → UInt32
  | .rollingUpdate _ _, _ => 0
  | .recreate, replicas => replicas
  | .blueGreen, _ => 0
  | .canary _, replicas => replicas

/-- What becomes of the replicas of an old ReplicaSet when the current one is created. -/
def DeploymentStrategy.shrink : DeploymentStrategy → UInt32 → UInt32
  | .rollingUpdate maxSurge _, replicas => saturatingSub replicas (max maxSurge 1)
  | .recreate, _ => 0
  | .blueGreen, replicas => replicas
  | .canary _, replicas => replicas

/-- The replicas of a ReplicaSet that is created. -/
def PassEnv.firstReplicas (env : PassEnv) (replicas : UInt32) : DeploymentStrategy → UInt32
  | .rollingUpdate maxSurge _ => min replicas maxSurge
  | .recreate => replicas
  | .blueGreen => replicas
  | .canary weight => env.canaryReplicas replicas weight

section Rollout

variable {env : PassEnv} {ns k : String} {deploy : Deployment} {hash : String}
  {owned : List (String × ReplicaSet)} {s : Registry}

/-- After the current one has been written, the others are as they were listed. -/
theorem lookup_old {current : String × ReplicaSet} (hnodup : (owned.map Prod.fst).Nodup)
    (hholds : Holds owned s) (hmem : current ∈ owned) (hhash : current.2.templateHash = hash)
    {s₁ : Registry} (hsame : ∀ key, key ≠ current.1 → s₁.lookup key = s.lookup key)
    {e : String × ReplicaSet} (he : e ∈ owned) (hold : e.2.templateHash ≠ hash) :
    s₁.lookup e.1 = some (.replicaSet e.2) := by
  rw [hsame e.1 fun heq => hold ?_]
  · exact hholds e he
  · rw [List.inj_on_of_nodup_map hnodup he hmem heq]
    exact hhash

section Current

variable {current : String × ReplicaSet} (hnodup : (owned.map Prod.fst).Nodup)
  (hholds : Holds owned s) (hmem : current ∈ owned) (hhash : current.2.templateHash = hash)
  (hone : ∀ e ∈ owned, e.2.templateHash = hash → e = current)

include hnodup hholds hmem hhash hone

/-- The old ReplicaSets are kept. -/
theorem leaves_keep : (matchReplicas deploy current).Leaves (fun _ => Scaled owned (fun rs =>
    if rs.templateHash = hash then deploy.spec.replicas else rs.spec.replicas) s) s := by
  refine (leaves_matchReplicas (hholds current hmem)).mono fun _ s' h => ⟨fun e he => ?_, fun key hkey => ?_⟩
  · split_ifs with heq
    · rw [hone e he heq]
      exact h.1
    · exact lookup_old hnodup hholds hmem hhash h.2 he heq
  · exact h.2 key fun heq => hkey current hmem heq.symm

/-- The old ReplicaSets are emptied. -/
theorem leaves_empty :
    (matchReplicas deploy current >>= fun _ =>
      scaleDown (fun rs => decide (rs.templateHash ≠ hash)) (fun _ => 0) owned).Leaves (fun _ =>
        Scaled owned (fun rs =>
          if rs.templateHash = hash then deploy.spec.replicas else 0) s) s := by
  refine Prog.Runs.bind ((leaves_matchReplicas (hholds current hmem)).mono fun _ s₁ h => ?_)
  refine (leaves_scaleDown _ _ hnodup).mono fun _ s' h' => ⟨fun e he => ?_, fun key hkey => ?_⟩
  · rw [h'.1 e he]
    by_cases heq : e.2.templateHash = hash
    · rw [if_pos heq, if_neg (by simp [heq]), hone e he heq]
      exact h.1
    · rw [if_neg heq]
      split_ifs with hwrite
      · rfl
      · -- There was nothing to write.
        have hzero : e.2.spec.replicas = 0 := by simpa [heq] using hwrite
        rw [lookup_old hnodup hholds hmem hhash h.2 he heq, ← hzero]
        rfl
  · rw [h'.2 key hkey]
    exact h.2 key fun heq => hkey current hmem heq.symm

end Current

/-- **The current ReplicaSet is there.** -/
theorem leaves_rollout_some (hnodup : (owned.map Prod.fst).Nodup) (hholds : Holds owned s)
    (hcurrent : ∃ e ∈ owned, e.2.templateHash = hash)
    (hone : ∀ e ∈ owned, ∀ e' ∈ owned, e.2.templateHash = hash → e'.2.templateHash = hash → e = e') :
    (rollout env ns k deploy hash owned).Leaves (fun _ => Scaled owned (fun rs =>
      if rs.templateHash = hash then deploy.spec.replicas
      else deploy.spec.strategy.keep rs.spec.replicas) s) s := by
  obtain ⟨e, he, hhash⟩ := hcurrent
  obtain ⟨current, hfind⟩ : ∃ current,
      owned.find? (fun e => decide (e.2.templateHash = hash)) = some current :=
    Option.isSome_iff_exists.mp (List.find?_isSome.mpr ⟨e, he, decide_eq_true hhash⟩)
  have hmem := List.mem_of_find?_eq_some hfind
  have hhash : current.2.templateHash = hash := by simpa using List.find?_some hfind
  have hone' : ∀ e ∈ owned, e.2.templateHash = hash → e = current :=
    fun e he heq => hone e he current hmem heq hhash
  cases hstrategy : deploy.spec.strategy with
  | rollingUpdate maxSurge maxUnavailable =>
      simp only [rollout, hfind, hstrategy]
      exact leaves_empty hnodup hholds hmem hhash hone'
  | recreate =>
      simp only [rollout, hfind, hstrategy]
      exact leaves_keep hnodup hholds hmem hhash hone'
  | blueGreen =>
      simp only [rollout, hfind, hstrategy]
      exact leaves_empty hnodup hholds hmem hhash hone'
  | canary weight =>
      simp only [rollout, hfind, hstrategy]
      exact leaves_keep hnodup hholds hmem hhash hone'

/-- All ReplicaSets of the list are scaled. -/
theorem leaves_scaleDown_all {old : ReplicaSet → Bool} {scale : UInt32 → UInt32}
    (hold : ∀ e ∈ owned, old e.2 = true) (hzero : scale 0 = 0)
    (hnodup : (owned.map Prod.fst).Nodup) (hholds : Holds owned s) :
    (scaleDown old scale owned).Leaves (fun _ =>
      Scaled owned (fun rs => scale rs.spec.replicas) s) s := by
  refine (leaves_scaleDown old scale hnodup).mono fun _ s' h => ⟨fun e he => ?_, h.2⟩
  rw [h.1 e he, hold e he, Bool.true_and]
  split_ifs with hpos
  · rfl
  · have hnone : e.2.spec.replicas = 0 := by simpa using hpos
    rw [hholds e he, hnone, hzero, ← hnone]
    rfl

/-- **The current ReplicaSet is missing.** -/
theorem leaves_rollout_none (hnodup : (owned.map Prod.fst).Nodup) (hholds : Holds owned s)
    (hnone : ∀ e ∈ owned, e.2.templateHash ≠ hash)
    (hfree : ∀ e ∈ owned, e.1 ≠ replicaSetKey ns (replicaSetName deploy hash)) :
    (rollout env ns k deploy hash owned).Leaves (fun _ =>
      ScaledAndCreated owned (fun rs => deploy.spec.strategy.shrink rs.spec.replicas)
        (replicaSetKey ns (replicaSetName deploy hash))
        (newReplicaSet (env.uuid k 0) (env.now k 0) ns deploy hash
          (env.firstReplicas deploy.spec.replicas deploy.spec.strategy)) s) s := by
  have hfind : owned.find? (fun e => decide (e.2.templateHash = hash)) = none := by
    rw [List.find?_eq_none]
    exact fun e he heq => hnone e he (of_decide_eq_true heq)
  have holds_insert : ∀ v, Holds owned
      (s.insert (replicaSetKey ns (replicaSetName deploy hash)) v) :=
    fun v e he => (KeyValue.lookup_insert_of_ne (hfree e he)).trans (hholds e he)
  have hcreate : ∀ replicas, (createReplicaSet env ns k deploy hash replicas).Leaves (fun _ =>
      ScaledAndCreated owned (fun rs => rs.spec.replicas)
        (replicaSetKey ns (replicaSetName deploy hash))
        (newReplicaSet (env.uuid k 0) (env.now k 0) ns deploy hash replicas) s) s :=
    fun replicas _ => ⟨trivial, KeyValue.lookup_insert_self _ _ _, holds_insert _,
      fun key hkey _ => KeyValue.lookup_insert_of_ne hkey⟩
  cases hstrategy : deploy.spec.strategy with
  | rollingUpdate maxSurge maxUnavailable =>
      simp only [rollout, hfind, hstrategy]
      refine Prog.Runs.bind (Prog.Runs.put (fun _ => trivial) fun _ => ?_)
      refine (leaves_scaleDown_all (fun e he => decide_eq_true (hnone e he)) (by rfl) hnodup
        (holds_insert _)).mono fun _ s' h => ?_
      refine ⟨?_, h.scaled, fun key hkey hnot => ?_⟩
      · rw [h.same _ hfree]
        exact KeyValue.lookup_insert_self _ _ _
      · rw [h.same key hnot]
        exact KeyValue.lookup_insert_of_ne hkey
  | recreate =>
      simp only [rollout, hfind, hstrategy]
      refine Prog.Runs.bind ((leaves_scaleDown_all (fun _ _ => rfl) rfl hnodup hholds).mono
        fun _ s₁ h => ?_)
      refine fun _ => ⟨trivial, KeyValue.lookup_insert_self _ _ _, fun e he => ?_,
        fun key hkey hnot => ?_⟩
      · exact (KeyValue.lookup_insert_of_ne (hfree e he)).trans (h.scaled e he)
      · exact (KeyValue.lookup_insert_of_ne hkey).trans (h.same key hnot)
  | blueGreen =>
      simp only [rollout, hfind, hstrategy]
      exact hcreate _
  | canary weight =>
      simp only [rollout, hfind, hstrategy]
      exact hcreate _

end Rollout

/-! ## What a deployment leaves alone -/

/-- The hash of the template of the deployment under a key. -/
def hashOf (order : String → PodSpec → PodSpec) (k : String) (deploy : Deployment) : String :=
  templateHash (order k deploy.spec.template)

/-- The key of the ReplicaSet for the template. -/
def currentKey (order : String → PodSpec → PodSpec) (ns k : String) (deploy : Deployment) : String :=
  replicaSetKey ns (replicaSetName deploy (hashOf order k deploy))

/-- All that a pass over the deployment under `k` with the current key `c` does: it scales
ReplicaSets of the deployment, writes its ReplicaSet under `c`, and puts back its status. -/
def Touches (deploy : Deployment) (k c : String) (s s' : Registry) : Prop :=
  ∀ key, s'.lookup key = s.lookup key ∨
    (∃ rs n, s.lookup key = some (.replicaSet rs) ∧ rs.ownerRef = some deploy.id ∧
      s'.lookup key = some (.replicaSet (rs.scaleTo n))) ∨
    (key = c ∧ ∃ rs, s'.lookup key = some (.replicaSet rs) ∧ rs.ownerRef = some deploy.id) ∨
    (key = k ∧ ∃ status, s'.lookup key = some (.deployment (deploy.observed status)))

section Touching

variable {env : PassEnv} {ns k c : String} {deploy : Deployment} {hash : String}
  {owned : List (String × ReplicaSet)} {s s₁ : Registry}

theorem touches_refl (deploy : Deployment) (k c : String) (s : Registry) : Touches deploy k c s s :=
  fun _ => Or.inl rfl

/-- One more write of one of the three kinds. -/
theorem Touches.insert {key : String} {v : Object} (h : Touches deploy k c s s₁)
    (hv : (∃ rs n, s.lookup key = some (.replicaSet rs) ∧ rs.ownerRef = some deploy.id ∧
        v = .replicaSet (rs.scaleTo n)) ∨
      (key = c ∧ ∃ rs, v = .replicaSet rs ∧ rs.ownerRef = some deploy.id) ∨
      (key = k ∧ ∃ status, v = .deployment (deploy.observed status))) :
    Touches deploy k c s (s₁.insert key v) := by
  intro key'
  rw [KeyValue.lookup_insert]
  split_ifs with hkey
  · subst hkey
    rcases hv with ⟨rs, n, hrs, howner, rfl⟩ | ⟨hc, rs, rfl, howner⟩ | ⟨hk, status, rfl⟩
    · exact Or.inr (Or.inl ⟨rs, n, hrs, howner, rfl⟩)
    · exact Or.inr (Or.inr (Or.inl ⟨hc, rs, rfl, howner⟩))
    · exact Or.inr (Or.inr (Or.inr ⟨hk, status, rfl⟩))
  · exact h key'

theorem leaves_matchReplicas_touches {current : String × ReplicaSet}
    (hholds : s.lookup current.1 = some (.replicaSet current.2))
    (howner : current.2.ownerRef = some deploy.id) (h : Touches deploy k c s s₁) :
    (matchReplicas deploy current).Leaves (fun _ => Touches deploy k c s) s₁ := by
  rw [matchReplicas]
  split_ifs
  · exact Prog.Runs.put (fun _ => trivial) fun _ =>
      h.insert (Or.inl ⟨current.2, _, hholds, howner, rfl⟩)
  · exact h

theorem leaves_scaleDown_touches (old : ReplicaSet → Bool) (scale : UInt32 → UInt32)
    (hholds : Holds owned s) (howner : ∀ e ∈ owned, e.2.ownerRef = some deploy.id)
    (h : Touches deploy k c s s₁) :
    (scaleDown old scale owned).Leaves (fun _ => Touches deploy k c s) s₁ := by
  refine (Prog.Runs.forEach (fun rest s' => Touches deploy k c s s' ∧ ∀ e ∈ rest, e ∈ owned)
    (fun e rest s' hs' => ?_) ⟨h, fun _ he => he⟩).mono fun _ s' hs' => hs'.1
  obtain ⟨hs', hmem⟩ := hs'
  have hrest : ∀ e' ∈ rest, e' ∈ owned := fun e' he' => hmem e' (List.mem_cons_of_mem e he')
  have he := hmem e List.mem_cons_self
  split_ifs
  · exact Prog.Runs.put (fun _ => trivial) fun _ =>
      ⟨hs'.insert (Or.inl ⟨e.2, _, hholds e he, howner e he, rfl⟩), hrest⟩
  · exact ⟨hs', hrest⟩

theorem leaves_createReplicaSet_touches (replicas : UInt32)
    (h : Touches deploy k (replicaSetKey ns (replicaSetName deploy hash)) s s₁) :
    (createReplicaSet env ns k deploy hash replicas).Leaves (fun _ =>
      Touches deploy k (replicaSetKey ns (replicaSetName deploy hash)) s) s₁ :=
  Prog.Runs.put (fun _ => trivial) fun _ => h.insert (Or.inr (Or.inl ⟨rfl, _, rfl, rfl⟩))

theorem leaves_rollout_touches (hholds : Holds owned s)
    (howner : ∀ e ∈ owned, e.2.ownerRef = some deploy.id) :
    (rollout env ns k deploy hash owned).Leaves (fun _ =>
      Touches deploy k (replicaSetKey ns (replicaSetName deploy hash)) s) s := by
  have hrefl := touches_refl deploy k (replicaSetKey ns (replicaSetName deploy hash)) s
  have hmatch : ∀ {current}, owned.find? (fun e => decide (e.2.templateHash = hash)) = some current →
      (matchReplicas deploy current).Leaves (fun _ =>
        Touches deploy k (replicaSetKey ns (replicaSetName deploy hash)) s) s := by
    intro current hfind
    have hmem := List.mem_of_find?_eq_some hfind
    exact leaves_matchReplicas_touches (hholds _ hmem) (howner _ hmem) hrefl
  simp only [rollout]
  split
  · rename_i hcurrent
    exact Prog.Runs.bind ((hmatch hcurrent).mono fun _ s₁ h =>
      leaves_scaleDown_touches _ _ hholds howner h)
  · exact Prog.Runs.bind ((leaves_createReplicaSet_touches _ hrefl).mono fun _ s₁ h =>
      leaves_scaleDown_touches _ _ hholds howner h)
  · rename_i hcurrent
    exact hmatch hcurrent
  · exact Prog.Runs.bind ((leaves_scaleDown_touches _ _ hholds howner hrefl).mono fun _ s₁ h =>
      leaves_createReplicaSet_touches _ h)
  · rename_i hcurrent
    exact Prog.Runs.bind ((hmatch hcurrent).mono fun _ s₁ h =>
      leaves_scaleDown_touches _ _ hholds howner h)
  · exact leaves_createReplicaSet_touches _ hrefl
  · rename_i hcurrent
    exact hmatch hcurrent
  · exact leaves_createReplicaSet_touches _ hrefl

end Touching

/-! ## Whole passes -/

/-- Where the deployments of a namespace are. -/
def deploymentPrefixOf (ns : String) : String := "/registry/deployments/" ++ ns ++ "/"

/-- The ReplicaSets of a namespace that an owner has. -/
def ownedIn (id ns : String) (s : Registry) : List (String × ReplicaSet) :=
  ownedReplicaSets id (s.scan fun key => startsWith key (replicaSetPrefixOf ns))

section Owned

variable {id ns : String} {s : Registry}

theorem mem_ownedIn {e : String × ReplicaSet} : e ∈ ownedIn id ns s ↔
    s.lookup e.1 = some (.replicaSet e.2) ∧ startsWith e.1 (replicaSetPrefixOf ns) = true ∧
      e.2.ownerRef = some id := by
  rw [ownedIn, mem_ownedReplicaSets, KeyValue.mem_scan, and_assoc]

theorem nodup_ownedIn (id ns : String) (s : Registry) : ((ownedIn id ns s).map Prod.fst).Nodup :=
  nodup_ownedReplicaSets (s.nodup_scan _)

theorem holds_ownedIn (id ns : String) (s : Registry) : Holds (ownedIn id ns s) s :=
  fun _ he => (mem_ownedIn.mp he).1

end Owned

section Pass

variable {env : PassEnv} {ns k : String} {deploy : Deployment} {s : Registry}

/-- **A pass over one deployment** is its rollout, and then its status. -/
theorem leaves_reconcileDeployment {Q : Registry → Prop}
    (h : (rollout env ns k deploy (hashOf env.order k deploy) (ownedIn deploy.id ns s)).Leaves
      (fun _ s₁ => Q (s₁.insert k (.deployment (deploy.observed (deploymentStatus deploy.id
        (hashOf env.order k deploy) (s₁.scan fun key => startsWith key (replicaSetPrefixOf ns))))))) s) :
    (reconcileDeployment env ns (k, .deployment deploy)).Leaves (fun _ => Q) s := by
  refine Prog.Runs.bind (Prog.Runs.list trivial (Prog.Runs.bind (h.mono fun _ s₁ hs₁ => ?_)))
  exact Prog.Runs.bind (Prog.Runs.list trivial (Prog.Runs.put (fun _ => trivial) fun _ => hs₁))

theorem leaves_reconcileDeployment_touches (env : PassEnv) (ns k : String) (deploy : Deployment)
    (s : Registry) : (reconcileDeployment env ns (k, .deployment deploy)).Leaves
      (fun _ => Touches deploy k (currentKey env.order ns k deploy) s) s := by
  refine leaves_reconcileDeployment ((leaves_rollout_touches (holds_ownedIn _ _ _)
    fun e he => (mem_ownedIn.mp he).2.2).mono fun _ s₁ h => ?_)
  exact h.insert (Or.inr (Or.inr ⟨rfl, _, rfl⟩))

/-- A key below the deployments. -/
def IsDeploymentKey (k : String) : Prop := startsWith k "/registry/deployments/" = true

theorem isDeploymentKey_of_listed {k ns : String}
    (h : startsWith k (deploymentPrefixOf ns) = true) : IsDeploymentKey k :=
  startsWith_trans h (startsWith_append_left (startsWith_append _ _) _)

/-- What a deployment touches is none of the namespaces. -/
theorem Touches.sameNamespaces {c : String} {s s' : Registry} (h : Touches deploy k c s s')
    (hk : IsDeploymentKey k) (hc : IsReplicaSetKey c) : SameNamespaces s s' := by
  intro key hkey
  rcases h key with hsame | ⟨rs, n, hrs, -, hrs'⟩ | ⟨rfl, -⟩ | ⟨rfl, -⟩
  · rw [hsame]
  · rw [hrs, hrs']
    rfl
  · exact nomatch (not_startsWith_of_startsWith hc (by decide) (by decide)).symm.trans hkey
  · exact nomatch (not_startsWith_of_startsWith hk (by decide) (by decide)).symm.trans hkey

/-- Of the other deployments nothing changes. -/
theorem Touches.lookup_deployment {c : String} {s s' : Registry} (h : Touches deploy k c s s')
    (hc : IsReplicaSetKey c) {key : String} {other : Deployment} (hkey : IsDeploymentKey key)
    (hne : key ≠ k) (hother : s.lookup key = some (.deployment other)) :
    s'.lookup key = some (.deployment other) := by
  rcases h key with hsame | ⟨rs, n, hrs, -, -⟩ | ⟨rfl, -⟩ | ⟨rfl, -⟩
  · rw [hsame, hother]
  · exact nomatch hrs.symm.trans hother
  · exact nomatch (not_startsWith_of_startsWith hc (by decide) (by decide)).symm.trans hkey
  · exact absurd rfl hne

end Pass

/-- The deployment under `k` is reconciled in the namespace, and in no other. -/
structure PlacedIn (ns k : String) (s : Registry) : Prop where
  registered : Registers s ns
  named : ns.isEmpty = false
  below : startsWith k (deploymentPrefixOf ns) = true
  single : ∀ ns', Registers s ns' → ns'.isEmpty = false →
    startsWith k (deploymentPrefixOf ns') = true → ns' = ns
  stored : ∃ deploy, s.lookup k = some (.deployment deploy)

/-- A pass comes upon the deployment under `k` in the namespace. -/
structure Reconciles (ns k : String) (deploy : Deployment) (s : Registry) : Prop where
  registered : Registers s ns
  named : ns.isEmpty = false
  below : startsWith k (deploymentPrefixOf ns) = true
  stored : s.lookup k = some (.deployment deploy)

section Rule

variable {env : PassEnv} {ns k : String} {I G : Registry → Prop}
  (hplaced : ∀ s, I s → PlacedIn ns k s)
  (hself : ∀ s deploy, I s → s.lookup k = some (.deployment deploy) →
    (reconcileDeployment env ns (k, .deployment deploy)).Leaves (fun _ s' => I s' ∧ G s') s)
  (hothers : ∀ s s' ns' k' deploy, I s → Reconciles ns' k' deploy s → k' ≠ k →
    Touches deploy k' (currentKey env.order ns' k' deploy) s s' → I s' ∧ (G s → G s'))

/-- What is known when some deployments of a namespace remain; `P` stands for what is needed for
the goal if the deployment itself does not remain. -/
structure DeploymentsLeft (k : String) (I G : Registry → Prop) (P : Prop) (ns' : String)
    (s₁ : Registry) (rest : List (String × Object)) (s : Registry) : Prop where
  inv : I s
  namespaces : SameNamespaces s₁ s
  below : ∀ e ∈ rest, startsWith e.1 (deploymentPrefixOf ns') = true
  current : ∀ e ∈ rest, ∀ deploy, e.2 = .deployment deploy → s.lookup e.1 = some e.2
  nodup : (rest.map Prod.fst).Nodup
  goal : (∃ e ∈ rest, e.1 = k ∧ ∃ deploy, e.2 = .deployment deploy) ∨ (P → G s)

/-- Another deployment has been reconciled. -/
theorem DeploymentsLeft.touches {P : Prop} {ns' : String} {s₁ s s' : Registry} {k' : String}
    {deploy : Deployment} {rest : List (String × Object)} {c : String}
    (h : DeploymentsLeft k I G P ns' s₁ ((k', .deployment deploy) :: rest) s)
    (hc : IsReplicaSetKey c) (htouches : Touches deploy k' c s s') (hinv : I s')
    (hgoal : (∃ e ∈ rest, e.1 = k ∧ ∃ deploy, e.2 = .deployment deploy) ∨ (P → G s')) :
    DeploymentsLeft k I G P ns' s₁ rest s' := by
  obtain ⟨hnot, hrest⟩ := List.nodup_cons.mp h.nodup
  have hbelow := h.below _ List.mem_cons_self
  refine ⟨hinv, ?_, ?_, ?_, hrest, hgoal⟩
  · exact h.namespaces.trans (htouches.sameNamespaces (isDeploymentKey_of_listed hbelow) hc)
  · exact fun e he => h.below e (List.mem_cons_of_mem _ he)
  · intro e he other hother
    have hmem := List.mem_cons_of_mem (k', Object.deployment deploy) he
    have hne : e.1 ≠ k' := fun heq => hnot (List.mem_map.mpr ⟨e, he, heq⟩)
    rw [hother]
    exact htouches.lookup_deployment hc (isDeploymentKey_of_listed (h.below e hmem)) hne
      (hother ▸ h.current e hmem other hother)

include hplaced hself hothers

/-- **One deployment of a namespace.** -/
theorem leaves_remaining {P : Prop} {ns' : String} {s₁ s : Registry} {e : String × Object}
    {rest : List (String × Object)} (hreg : Registers s₁ ns') (hns' : ns'.isEmpty = false)
    (h : DeploymentsLeft k I G P ns' s₁ (e :: rest) s) :
    (reconcileDeployment env ns' e).Leaves (fun _ => DeploymentsLeft k I G P ns' s₁ rest) s := by
  cases hdeploy : e.2.asDeployment with
  | none =>
      rw [reconcileDeployment, hdeploy]
      refine ⟨h.inv, h.namespaces, fun e' he' => h.below e' (List.mem_cons_of_mem e he'),
        fun e' he' => h.current e' (List.mem_cons_of_mem e he'), (List.nodup_cons.mp h.nodup).2, ?_⟩
      refine h.goal.imp_left ?_
      rintro ⟨e', he', hk, deploy, hdeploy'⟩
      rcases List.mem_cons.mp he' with rfl | he'
      · rw [hdeploy'] at hdeploy
        cases hdeploy
      · exact ⟨e', he', hk, deploy, hdeploy'⟩
  | some deploy =>
      obtain ⟨k', v⟩ := e
      obtain rfl := Object.asDeployment_eq_some.mp hdeploy
      have hstored : s.lookup k' = some (.deployment deploy) :=
        h.current _ List.mem_cons_self deploy rfl
      have hbelow : startsWith k' (deploymentPrefixOf ns') = true := h.below _ List.mem_cons_self
      have hregs : Registers s ns' := h.namespaces.registers.mpr hreg
      have hc : IsReplicaSetKey (currentKey env.order ns' k' deploy) := isReplicaSetKey_key _ _
      have htouches := leaves_reconcileDeployment_touches env ns' k' deploy s
      by_cases hk : k' = k
      · subst hk
        obtain rfl := (hplaced s h.inv).single ns' hregs hns' hbelow
        refine ((hself s deploy h.inv hstored).and htouches).weaken (fun _ _ _ => trivial) |>.mono
          fun _ s' hs' => ?_
        exact h.touches hc hs'.2 hs'.1.1 (Or.inr fun _ => hs'.1.2)
      · refine htouches.mono fun _ s' hs' => ?_
        obtain ⟨hinv, hgoal⟩ := hothers s s' ns' k' deploy h.inv ⟨hregs, hns', hbelow, hstored⟩ hk hs'
        refine h.touches hc hs' hinv ?_
        rcases h.goal with ⟨e, he, hek, hed⟩ | hP
        · rcases List.mem_cons.mp he with rfl | he
          · exact absurd hek hk
          · exact Or.inl ⟨e, he, hek, hed⟩
        · exact Or.inr fun hp => hgoal (hP hp)

/-- **One namespace of a pass.** -/
theorem leaves_reconcileDeploymentNamespace {ns' : String} {s : Registry} (h : I s)
    (hreg : Registers s ns') (hns' : ns'.isEmpty = false) :
    (reconcileDeploymentNamespace env ns').Leaves (fun _ s' =>
      I s' ∧ SameNamespaces s s' ∧ (G s → G s') ∧ (ns' = ns → G s')) s := by
  refine Prog.Runs.bind (Prog.Runs.list trivial ?_)
  have hloop : ∀ P : Prop, ((∃ e ∈ s.scan fun key => startsWith key (deploymentPrefixOf ns'),
      e.1 = k ∧ ∃ deploy, e.2 = .deployment deploy) ∨ (P → G s)) →
      (Prog.forEach (reconcileDeployment env ns')
        (s.scan fun key => startsWith key (deploymentPrefixOf ns'))).Leaves (fun _ s' =>
          I s' ∧ SameNamespaces s s' ∧ (P → G s')) s := by
    intro P hgoal
    refine (Prog.Runs.forEach (DeploymentsLeft k I G P ns' s)
      (fun e rest s' hs' => leaves_remaining hplaced hself hothers hreg hns' hs')
      ⟨h, fun _ _ => rfl, fun e he => (KeyValue.mem_scan.mp he).2,
        fun e he _ _ => (KeyValue.mem_scan.mp he).1, s.nodup_scan _, hgoal⟩).mono fun _ s' hs' => ?_
    refine ⟨hs'.inv, hs'.namespaces, ?_⟩
    rcases hs'.goal with ⟨e, he, -⟩ | hgoal'
    · exact absurd he List.not_mem_nil
    · exact hgoal'
  by_cases hns : ns' = ns
  · subst hns
    obtain ⟨deploy, hdeploy⟩ := (hplaced s h).stored
    refine (hloop True (Or.inl ⟨(k, .deployment deploy), ?_, rfl, deploy, rfl⟩)).mono
      fun _ s' hs' => ⟨hs'.1, hs'.2.1, fun _ => hs'.2.2 trivial, fun _ => hs'.2.2 trivial⟩
    exact KeyValue.mem_scan.mpr ⟨hdeploy, (hplaced s h).below⟩
  · exact (hloop (G s) (Or.inr id)).mono
      fun _ s' hs' => ⟨hs'.1, hs'.2.1, hs'.2.2, fun heq => absurd heq hns⟩

/-- **The rule for a pass**: what every other deployment keeps, and the deployment itself brings
about, holds after the pass. -/
theorem leaves_reconcileDeployments {s : Registry} (h : I s) :
    (reconcileDeployments env).Leaves (fun _ s' => I s' ∧ G s') s := by
  refine Prog.Runs.bind (Prog.Runs.list trivial ?_)
  refine (Prog.Runs.forEach (fun rest s' => I s' ∧ SameNamespaces s s' ∧
    (∀ e ∈ rest, Registers s (namespaceOf e.1)) ∧
      ((∃ e ∈ rest, namespaceOf e.1 = ns) ∨ G s')) (fun e rest s' hs' => ?_)
    ⟨h, fun _ _ => rfl, fun e he => ?_, ?_⟩).mono fun _ s' hs' => ⟨hs'.1, ?_⟩
  · obtain ⟨hinv, hsame, hreg, hgoal⟩ := hs'
    have hrest : ∀ e' ∈ rest, Registers s (namespaceOf e'.1) :=
      fun e' he' => hreg e' (List.mem_cons_of_mem e he')
    cases hns' : (namespaceOf e.1).isEmpty with
    | true =>
        rw [if_pos rfl]
        refine ⟨hinv, hsame, hrest, hgoal.imp_left ?_⟩
        rintro ⟨e', he', heq⟩
        rcases List.mem_cons.mp he' with rfl | he'
        · rw [heq, (hplaced s h).named] at hns'
          exact nomatch hns'
        · exact ⟨e', he', heq⟩
    | false =>
        rw [if_neg Bool.false_ne_true]
        refine (leaves_reconcileDeploymentNamespace hplaced hself hothers hinv
          (hsame.registers.mpr (hreg e List.mem_cons_self)) hns').mono fun _ s'' hs'' => ?_
        refine ⟨hs''.1, hsame.trans hs''.2.1, hrest, ?_⟩
        rcases hgoal with ⟨e', he', heq⟩ | hgoal
        · rcases List.mem_cons.mp he' with rfl | he'
          · exact Or.inr (hs''.2.2.2 heq)
          · exact Or.inl ⟨e', he', heq⟩
        · exact Or.inr (hs''.2.2.1 hgoal)
  · obtain ⟨hlookup, hdir⟩ := KeyValue.mem_scan.mp he
    exact ⟨e.1, e.2, hlookup, hdir, rfl⟩
  · obtain ⟨key, v, hlookup, hdir, heq⟩ := (hplaced s h).registered
    exact Or.inl ⟨(key, v), KeyValue.mem_scan.mpr ⟨hlookup, hdir⟩, heq⟩
  · rcases hs'.2.2.2 with ⟨e, he, -⟩ | hgoal
    · exact absurd he List.not_mem_nil
    · exact hgoal

/-- What every deployment keeps is kept by a pass as well. -/
theorem leaves_reconcileDeployments_keeping {K : Registry → Prop}
    (hK : ∀ s s' ns' k' deploy, K s → Reconciles ns' k' deploy s →
      Touches deploy k' (currentKey env.order ns' k' deploy) s s' → K s') {s : Registry} (h : I s)
    (hs : K s) : (reconcileDeployments env).Leaves (fun _ s' => (I s' ∧ G s') ∧ K s') s := by
  refine (leaves_reconcileDeployments (k := k) (I := fun s => I s ∧ K s) (G := G)
    (fun s h => hplaced s h.1) (fun s deploy h hstored => ?_)
    (fun s s' ns' k' deploy h hrec hne htouches => ?_) ⟨h, hs⟩).mono
    fun _ s' h => ⟨⟨h.1.1, h.2⟩, h.1.2⟩
  · have hplace := hplaced s h.1
    refine ((hself s deploy h.1 hstored).and (leaves_reconcileDeployment_touches env ns k deploy s)).weaken
      (fun _ _ _ => trivial) |>.mono fun _ s' hs' => ⟨⟨hs'.1.1, ?_⟩, hs'.1.2⟩
    exact hK s s' ns k deploy h.2 ⟨hplace.registered, hplace.named, hplace.below, hstored⟩ hs'.2
  · obtain ⟨hinv, hgoal⟩ := hothers s s' ns' k' deploy h.1 hrec hne htouches
    exact ⟨⟨hinv, hK s s' ns' k' deploy h.2 hrec htouches⟩, hgoal⟩

end Rule

end K3rs
