import K3rs.Cluster.Rollouts

/-!
# Convergence of rollouts

Passes of the deployment controller, one after the other.  A deployment is rolled out by itself
(`Rolls`) if it lies in one namespace, no other deployment has its id, and no other deployment
writes the keys of its ReplicaSets.  Then a pass advances its ReplicaSets by one step, which
depends on these alone (`Advanced`): if one of them is for the current template, it gets the
replicas of the deployment; if not, it is created.

* `rollouts_converge`: for rolling updates and blue/green deployments two passes reach a fixpoint,
  with all replicas in the ReplicaSet of the current template.
-/

namespace K3rs

open Programs

/-! ## Deployments of a store -/

/-- What a deployment declares; a pass changes nothing of it. -/
def Deployment.declared (deploy : Deployment) : String × String × DeploymentSpec :=
  (deploy.id, deploy.name, deploy.spec)

section Declared

variable {deploy deploy' : Deployment} (h : deploy'.declared = deploy.declared)

include h

theorem id_of_declared : deploy'.id = deploy.id := congrArg Prod.fst h

theorem name_of_declared : deploy'.name = deploy.name := congrArg (fun d => d.2.1) h

theorem spec_of_declared : deploy'.spec = deploy.spec := congrArg (fun d => d.2.2) h

theorem hashOf_of_declared (order : String → PodSpec → PodSpec) (k : String) :
    hashOf order k deploy' = hashOf order k deploy := by
  rw [hashOf, hashOf, spec_of_declared h]

theorem currentKey_of_declared (order : String → PodSpec → PodSpec) (ns k : String) :
    currentKey order ns k deploy' = currentKey order ns k deploy := by
  rw [currentKey, currentKey, replicaSetName, replicaSetName, hashOf_of_declared h,
    name_of_declared h]

end Declared

section Touched

variable {deploy : Deployment} {k c : String} {s s' : Registry}

/-- The deployments after a pass over one of them are those before. -/
theorem Touches.deployment (h : Touches deploy k c s s') (hstored : s.lookup k = some (.deployment deploy))
    {key : String} {other' : Deployment} (hother : s'.lookup key = some (.deployment other')) :
    ∃ other, s.lookup key = some (.deployment other) ∧ other'.declared = other.declared := by
  rcases h key with hsame | ⟨rs, n, -, -, hrs⟩ | ⟨-, rs, hrs, -⟩ | ⟨rfl, status, hstatus⟩
  · exact ⟨other', hsame ▸ hother, rfl⟩
  · exact nomatch hrs.symm.trans hother
  · exact nomatch hrs.symm.trans hother
  · refine ⟨deploy, hstored, ?_⟩
    rw [← Object.deployment.inj (Option.some_inj.mp (hstatus.symm.trans hother))]
    rfl

/-- A ReplicaSet of another owner is not touched, unless it is under the current key. -/
theorem Touches.replicaSet (h : Touches deploy k c s s') {key : String} {rs : ReplicaSet}
    (hstored : s.lookup k = some (.deployment deploy)) (hne : rs.ownerRef ≠ some deploy.id)
    (hkey : key ≠ c) (hrs : s.lookup key = some (.replicaSet rs)) :
    s'.lookup key = some (.replicaSet rs) := by
  rcases h key with hsame | ⟨rs', n, hrs', howner, -⟩ | ⟨hc, -⟩ | ⟨rfl, -⟩
  · rw [hsame, hrs]
  · rw [Object.replicaSet.inj (Option.some_inj.mp (hrs'.symm.trans hrs))] at howner
    exact absurd howner hne
  · exact absurd hc hkey
  · exact nomatch hstored.symm.trans hrs

/-- A ReplicaSet of another owner was there before. -/
theorem Touches.replicaSet_back (h : Touches deploy k c s s') {key : String} {rs : ReplicaSet}
    (hne : rs.ownerRef ≠ some deploy.id) (hrs : s'.lookup key = some (.replicaSet rs)) :
    s.lookup key = some (.replicaSet rs) := by
  rcases h key with hsame | ⟨rs', n, -, howner, hrs'⟩ | ⟨-, rs', hrs', howner⟩ | ⟨-, status, hstatus⟩
  · rw [← hsame, hrs]
  · obtain rfl := Object.replicaSet.inj (Option.some_inj.mp (hrs'.symm.trans hrs))
    exact absurd howner hne
  · obtain rfl := Object.replicaSet.inj (Option.some_inj.mp (hrs'.symm.trans hrs))
    exact absurd howner hne
  · exact nomatch hstatus.symm.trans hrs

end Touched

/-! ## ReplicaSets of an owner -/

/-- Both stores have the same ReplicaSets of an owner. -/
def SameOwned (id : String) (s s' : Registry) : Prop :=
  ∀ key rs, rs.ownerRef = some id →
    (s'.lookup key = some (.replicaSet rs) ↔ s.lookup key = some (.replicaSet rs))

theorem sorted_ownedIn (id ns : String) (s : Registry) :
    (ownedIn id ns s).Pairwise fun a b => a.1 < b.1 := by
  rw [ownedIn, ownedReplicaSets, List.pairwise_filterMap]
  refine (s.sorted.sublist List.filter_sublist).imp fun hlt a ha b hb => ?_
  obtain ⟨rs, -, hif⟩ := Option.bind_eq_some_iff.mp ha
  obtain ⟨rs', -, hif'⟩ := Option.bind_eq_some_iff.mp hb
  split_ifs at hif hif'
  rw [← Option.some_inj.mp hif, ← Option.some_inj.mp hif']
  exact hlt

section Same

variable {id ns : String} {s s' : Registry}

theorem SameOwned.ownedIn_eq (h : SameOwned id s s') : ownedIn id ns s' = ownedIn id ns s := by
  refine KeyValue.eq_of_sorted (sorted_ownedIn id ns s') (sorted_ownedIn id ns s) fun e => ?_
  rw [mem_ownedIn, mem_ownedIn]
  constructor
  · rintro ⟨hlookup, hbelow, howner⟩
    exact ⟨(h e.1 e.2 howner).mp hlookup, hbelow, howner⟩
  · rintro ⟨hlookup, hbelow, howner⟩
    exact ⟨(h e.1 e.2 howner).mpr hlookup, hbelow, howner⟩

theorem SameOwned.trans {s'' : Registry} (h : SameOwned id s s') (h' : SameOwned id s' s'') :
    SameOwned id s s'' := fun key rs howner => (h' key rs howner).trans (h key rs howner)

/-- After the ReplicaSets of the owner have been scaled. -/
theorem Scaled.ownedIn_eq {f : ReplicaSet → UInt32} (h : Scaled (ownedIn id ns s) f s s') :
    ownedIn id ns s' = (ownedIn id ns s).map fun e => (e.1, e.2.scaleTo (f e.2)) := by
  have hsorted : ((ownedIn id ns s).map fun e => (e.1, e.2.scaleTo (f e.2))).Pairwise
      fun a b => a.1 < b.1 := List.pairwise_map.mpr (sorted_ownedIn id ns s)
  refine KeyValue.eq_of_sorted (sorted_ownedIn id ns s') hsorted fun e => ?_
  rw [mem_ownedIn, List.mem_map]
  constructor
  · rintro ⟨hlookup, hbelow, howner⟩
    by_cases hmem : ∃ e' ∈ ownedIn id ns s, e'.1 = e.1
    · obtain ⟨e', he', hkey⟩ := hmem
      have hscaled := h.scaled e' he'
      rw [hkey, hlookup] at hscaled
      exact ⟨e', he', Prod.ext hkey (Object.replicaSet.inj (Option.some_inj.mp hscaled)).symm⟩
    · push Not at hmem
      rw [h.same e.1 hmem] at hlookup
      exact absurd rfl (hmem e (mem_ownedIn.mpr ⟨hlookup, hbelow, howner⟩))
  · rintro ⟨e', he', rfl⟩
    obtain ⟨-, hbelow, howner⟩ := mem_ownedIn.mp he'
    exact ⟨h.scaled e' he', hbelow, howner⟩

/-- After one of them has been created as well. -/
theorem ScaledAndCreated.mem_ownedIn_iff {f : ReplicaSet → UInt32} {c : String} {rs : ReplicaSet}
    (h : ScaledAndCreated (ownedIn id ns s) f c rs s s') (hrs : rs.ownerRef = some id)
    (hc : startsWith c (replicaSetPrefixOf ns) = true) {e : String × ReplicaSet} :
    e ∈ ownedIn id ns s' ↔ e = (c, rs) ∨ ∃ e' ∈ ownedIn id ns s, e'.1 ≠ c ∧
      e = (e'.1, e'.2.scaleTo (f e'.2)) := by
  rw [mem_ownedIn]
  constructor
  · rintro ⟨hlookup, hbelow, howner⟩
    by_cases hkey : e.1 = c
    · rw [hkey, h.created] at hlookup
      exact Or.inl (Prod.ext hkey (Object.replicaSet.inj (Option.some_inj.mp hlookup)).symm)
    · by_cases hmem : ∃ e' ∈ ownedIn id ns s, e'.1 = e.1
      · obtain ⟨e', he', hkey'⟩ := hmem
        have hscaled := h.scaled e' he'
        rw [hkey', hlookup] at hscaled
        exact Or.inr ⟨e', he', hkey' ▸ hkey,
          Prod.ext hkey'.symm (Object.replicaSet.inj (Option.some_inj.mp hscaled))⟩
      · push Not at hmem
        rw [h.same e.1 hkey hmem] at hlookup
        exact absurd rfl (hmem e (mem_ownedIn.mpr ⟨hlookup, hbelow, howner⟩))
  · rintro (rfl | ⟨e', he', -, rfl⟩)
    · exact ⟨h.created, hc, hrs⟩
    · obtain ⟨-, hbelow, howner⟩ := mem_ownedIn.mp he'
      exact ⟨h.scaled e' he', hbelow, howner⟩

end Same

/-! ## Deployments that are rolled out by themselves -/

/-- The deployment under `k` is rolled out in the namespace, and nobody else interferes. -/
structure Rolls (order : String → PodSpec → PodSpec) (ns k : String) (deploy : Deployment)
    (s : Registry) : Prop where
  placed : PlacedIn ns k s
  stored : ∃ deploy', s.lookup k = some (.deployment deploy') ∧ deploy'.declared = deploy.declared
  unique : ∀ k' other, s.lookup k' = some (.deployment other) → other.id = deploy.id → k' = k
  apart : ∀ ns' k' other, Reconciles ns' k' other s → k' ≠ k →
    currentKey order ns' k' other ≠ currentKey order ns k deploy
  clear : ∀ ns' k' other, Reconciles ns' k' other s → k' ≠ k → ∀ rs,
    s.lookup (currentKey order ns' k' other) = some (.replicaSet rs) → rs.ownerRef ≠ some deploy.id
  own : ∀ v, s.lookup (currentKey order ns k deploy) = some v → ∃ rs, v = .replicaSet rs ∧
    rs.ownerRef = some deploy.id ∧ rs.templateHash = hashOf order k deploy
  one : ∀ e ∈ ownedIn deploy.id ns s, ∀ e' ∈ ownedIn deploy.id ns s,
    e.2.templateHash = hashOf order k deploy → e'.2.templateHash = hashOf order k deploy → e.1 = e'.1

section Rolls

variable {order : String → PodSpec → PodSpec} {ns k : String} {deploy : Deployment}
  {s s' : Registry}

/-- What is reconciled after a pass over a deployment was so before. -/
theorem Touches.reconciles {k' c ns' key : String} {other other' : Deployment}
    (h : Touches other k' c s s') (hk' : IsDeploymentKey k') (hc : IsReplicaSetKey c)
    (hstored : s.lookup k' = some (.deployment other)) (hrec : Reconciles ns' key other' s') :
    ∃ other₀, Reconciles ns' key other₀ s ∧ other'.declared = other₀.declared := by
  obtain ⟨other₀, hother₀, hdeclared⟩ := h.deployment hstored hrec.stored
  exact ⟨other₀, ⟨(h.sameNamespaces hk' hc).registers.mp hrec.registered, hrec.named, hrec.below,
    hother₀⟩, hdeclared⟩

/-- The deployment stays where it is. -/
theorem PlacedIn.touches {k' c : String} {other : Deployment} (h : PlacedIn ns k s)
    (htouches : Touches other k' c s s') (hk' : IsDeploymentKey k') (hc : IsReplicaSetKey c)
    (hstored : s.lookup k' = some (.deployment other)) : PlacedIn ns k s' := by
  have hsame := htouches.sameNamespaces hk' hc
  refine ⟨hsame.registers.mpr h.registered, h.named, h.below, fun ns' hreg hns' hbelow =>
    h.single ns' (hsame.registers.mp hreg) hns' hbelow, ?_⟩
  obtain ⟨deploy, hdeploy⟩ := h.stored
  by_cases hk : k = k'
  · subst hk
    rcases htouches k with hsame | ⟨rs, n, hrs, -⟩ | ⟨rfl, -⟩ | ⟨-, status, hstatus⟩
    · exact ⟨deploy, hsame.trans hdeploy⟩
    · exact nomatch hrs.symm.trans hdeploy
    · exact nomatch (not_startsWith_of_startsWith hc (by decide) (by decide)).symm.trans hk'
    · exact ⟨_, hstatus⟩
  · exact ⟨deploy, htouches.lookup_deployment hc (isDeploymentKey_of_listed h.below) hk hdeploy⟩

/-- **Another deployment** does not interfere. -/
theorem Rolls.others (h : Rolls order ns k deploy s) {ns' k' : String} {other : Deployment}
    (hrec : Reconciles ns' k' other s) (hne : k' ≠ k)
    (htouches : Touches other k' (currentKey order ns' k' other) s s') :
    Rolls order ns k deploy s' ∧ SameOwned deploy.id s s' ∧ s'.lookup k = s.lookup k := by
  have hk' : IsDeploymentKey k' := isDeploymentKey_of_listed hrec.below
  have hc : IsReplicaSetKey (currentKey order ns' k' other) := isReplicaSetKey_key _ _
  obtain ⟨deploy', hdeploy', hdeclared⟩ := h.stored
  have hid : other.id ≠ deploy.id := fun heq => hne (h.unique k' other hrec.stored heq)
  have hsomeId : ∀ {rs : ReplicaSet}, rs.ownerRef = some deploy.id → rs.ownerRef ≠ some other.id :=
    fun howner heq => hid (Option.some_inj.mp (heq.symm.trans howner))
  have hself : s'.lookup k = s.lookup k := by
    rw [hdeploy']
    exact htouches.lookup_deployment hc (isDeploymentKey_of_listed h.placed.below) hne.symm hdeploy'
  have howned : SameOwned deploy.id s s' := by
    intro key rs howner
    refine ⟨htouches.replicaSet_back (hsomeId howner), fun hrs => ?_⟩
    refine htouches.replicaSet hrec.stored (hsomeId howner) ?_ hrs
    rintro rfl
    exact h.clear ns' k' other hrec hne rs hrs howner
  refine ⟨⟨h.placed.touches htouches hk' hc hrec.stored, ⟨deploy', hself.trans hdeploy', hdeclared⟩,
    ?_, ?_, ?_, ?_, ?_⟩, howned, hself⟩
  · intro key other₁ hother₁ hid₁
    obtain ⟨other₀, hother₀, hdecl⟩ := htouches.deployment hrec.stored hother₁
    exact h.unique key other₀ hother₀ ((id_of_declared hdecl).symm.trans hid₁)
  · intro ns₁ k₁ other₁ hrec₁ hne₁
    obtain ⟨other₀, hrec₀, hdecl⟩ := htouches.reconciles hk' hc hrec.stored hrec₁
    rw [currentKey_of_declared hdecl]
    exact h.apart ns₁ k₁ other₀ hrec₀ hne₁
  · intro ns₁ k₁ other₁ hrec₁ hne₁ rs hrs howner
    obtain ⟨other₀, hrec₀, hdecl⟩ := htouches.reconciles hk' hc hrec.stored hrec₁
    rw [currentKey_of_declared hdecl] at hrs
    exact h.clear ns₁ k₁ other₀ hrec₀ hne₁ rs ((howned _ rs howner).mp hrs) howner
  · -- Nobody else writes the current key.
    have hsame : s'.lookup (currentKey order ns k deploy) =
        s.lookup (currentKey order ns k deploy) := by
      rcases htouches (currentKey order ns k deploy) with hsame | ⟨rs, n, hrs, howner, -⟩ | ⟨heq, -⟩ |
          ⟨heq, -⟩
      · exact hsame
      · obtain ⟨rs', hrs', howner', -⟩ := h.own _ hrs
        obtain rfl := Object.replicaSet.inj hrs'
        exact absurd howner (hsomeId howner')
      · exact absurd heq.symm (h.apart ns' k' other hrec hne)
      · have hkey : IsReplicaSetKey (currentKey order ns k deploy) := isReplicaSetKey_key _ _
        rw [heq] at hkey
        exact nomatch (not_startsWith_of_startsWith hkey (by decide) (by decide)).symm.trans hk'
    rw [hsame]
    exact h.own
  · rw [howned.ownedIn_eq]
    exact h.one

/-- The deployment itself keeps what concerns the others. -/
theorem Rolls.self (h : Rolls order ns k deploy s) {deploy' : Deployment}
    (hstored : s.lookup k = some (.deployment deploy')) (hdeclared : deploy'.declared = deploy.declared)
    (htouches : Touches deploy' k (currentKey order ns k deploy) s s')
    (hown : ∀ v, s'.lookup (currentKey order ns k deploy) = some v → ∃ rs, v = .replicaSet rs ∧
      rs.ownerRef = some deploy.id ∧ rs.templateHash = hashOf order k deploy)
    (hone : ∀ e ∈ ownedIn deploy.id ns s', ∀ e' ∈ ownedIn deploy.id ns s',
      e.2.templateHash = hashOf order k deploy → e'.2.templateHash = hashOf order k deploy →
        e.1 = e'.1) : Rolls order ns k deploy s' := by
  have hk : IsDeploymentKey k := isDeploymentKey_of_listed h.placed.below
  have hc : IsReplicaSetKey (currentKey order ns k deploy) := isReplicaSetKey_key _ _
  have hplaced := h.placed.touches htouches hk hc hstored
  refine ⟨hplaced, ?_, ?_, ?_, ?_, hown, hone⟩
  · obtain ⟨deploy₁, hdeploy₁⟩ := hplaced.stored
    obtain ⟨deploy₀, hdeploy₀, hdecl⟩ := htouches.deployment hstored hdeploy₁
    obtain rfl := Object.deployment.inj (Option.some_inj.mp (hstored.symm.trans hdeploy₀))
    exact ⟨deploy₁, hdeploy₁, hdecl.trans hdeclared⟩
  · intro key other₁ hother₁ hid₁
    obtain ⟨other₀, hother₀, hdecl⟩ := htouches.deployment hstored hother₁
    exact h.unique key other₀ hother₀ ((id_of_declared hdecl).symm.trans hid₁)
  · intro ns₁ k₁ other₁ hrec₁ hne₁
    obtain ⟨other₀, hrec₀, hdecl⟩ := htouches.reconciles hk hc hstored hrec₁
    rw [currentKey_of_declared hdecl]
    exact h.apart ns₁ k₁ other₀ hrec₀ hne₁
  · intro ns₁ k₁ other₁ hrec₁ hne₁ rs hrs howner
    obtain ⟨other₀, hrec₀, hdecl⟩ := htouches.reconciles hk hc hstored hrec₁
    rw [currentKey_of_declared hdecl] at hrs
    have hclear := h.clear ns₁ k₁ other₀ hrec₀ hne₁
    rcases htouches (currentKey order ns₁ k₁ other₀) with hsame | ⟨rs', n, hrs', howner', -⟩ |
        ⟨heq, -⟩ | ⟨-, status, hstatus⟩
    · exact hclear rs (hsame ▸ hrs) howner
    · exact hclear rs' hrs' (howner'.trans (congrArg some (id_of_declared hdeclared)))
    · exact h.apart ns₁ k₁ other₀ hrec₀ hne₁ heq
    · exact nomatch hstatus.symm.trans hrs

/-! ## One step of a rollout -/

/-- The ReplicaSets of a deployment before and after it has been reconciled. -/
structure Advanced (env : PassEnv) (ns k : String) (deploy : Deployment)
    (owned owned' : List (String × ReplicaSet)) : Prop where
  adjusted : (∃ e ∈ owned, e.2.templateHash = hashOf env.order k deploy) →
    owned' = owned.map fun e => (e.1, e.2.scaleTo
      (if e.2.templateHash = hashOf env.order k deploy then deploy.spec.replicas
        else deploy.spec.strategy.keep e.2.spec.replicas))
  created : (∀ e ∈ owned, e.2.templateHash ≠ hashOf env.order k deploy) → ∀ e, e ∈ owned' ↔
    e = (currentKey env.order ns k deploy, newReplicaSet (env.uuid k 0) (env.now k 0) ns deploy
        (hashOf env.order k deploy) (env.firstReplicas deploy.spec.replicas deploy.spec.strategy)) ∨
      ∃ e₀ ∈ owned, e = (e₀.1, e₀.2.scaleTo (deploy.spec.strategy.shrink e₀.2.spec.replicas))

/-- The status of the deployment is that of its ReplicaSets. -/
def Observed (order : String → PodSpec → PodSpec) (ns k : String) (deploy : Deployment)
    (s : Registry) : Prop :=
  ∃ deploy', s.lookup k = some (.deployment deploy') ∧
    deploy'.observed (deploymentStatus deploy.id (hashOf order k deploy)
      (s.scan fun key => startsWith key (replicaSetPrefixOf ns))) = deploy'

/-- What a pass over the deployment leaves. -/
structure Stepped (env : PassEnv) (ns k : String) (deploy : Deployment) (s s' : Registry) : Prop where
  rolls : Rolls env.order ns k deploy s'
  advanced : Advanced env ns k deploy (ownedIn deploy.id ns s) (ownedIn deploy.id ns s')
  observed : Observed env.order ns k deploy s'
  status : ∀ deploy', s.lookup k = some (.deployment deploy') →
    ∃ status, s'.lookup k = some (.deployment (deploy'.observed status))
  outside : ∀ key, startsWith key (replicaSetPrefixOf ns) = false → key ≠ k →
    s'.lookup key = s.lookup key

/-- The status is put back after the rollout. -/
theorem observed_insert (deploy' : Deployment) (hk : startsWith k (replicaSetPrefixOf ns) = false) :
    Observed order ns k deploy (s.insert k (.deployment (deploy'.observed (deploymentStatus deploy.id
      (hashOf order k deploy) (s.scan fun key => startsWith key (replicaSetPrefixOf ns)))))) := by
  refine ⟨_, KeyValue.lookup_insert_self _ _ _, ?_⟩
  rw [KeyValue.scan_congr fun key hkey => KeyValue.lookup_insert_of_ne ?_]
  · rfl
  · rintro rfl
    exact nomatch hk.symm.trans hkey

/-- A write outside of the namespace does not concern its ReplicaSets. -/
theorem ownedIn_insert {id key : String} {v : Object}
    (hkey : startsWith key (replicaSetPrefixOf ns) = false) :
    ownedIn id ns (s.insert key v) = ownedIn id ns s := by
  rw [ownedIn, ownedIn, KeyValue.scan_congr fun key' hkey' => KeyValue.lookup_insert_of_ne ?_]
  rintro rfl
  cases hkey.symm.trans hkey'

variable {env : PassEnv} {deploy' : Deployment}

theorem newReplicaSet_of_declared (h : deploy'.declared = deploy.declared) (id : String)
    (now : DateTime) (hash : String) (replicas : UInt32) :
    newReplicaSet id now ns deploy' hash replicas = newReplicaSet id now ns deploy hash replicas := by
  simp only [newReplicaSet, replicaSetName, id_of_declared h, name_of_declared h, spec_of_declared h]

theorem startsWith_currentKey (order : String → PodSpec → PodSpec) (ns k : String)
    (deploy : Deployment) : startsWith (currentKey order ns k deploy) (replicaSetPrefixOf ns) = true :=
  startsWith_append _ _

theorem Rolls.not_below (h : Rolls order ns k deploy s) :
    startsWith k (replicaSetPrefixOf ns) = false := by
  refine not_startsWith_of_not (b := "/registry/replicasets/") ?_ (startsWith_replicaSetPrefixOf ns)
  exact not_startsWith_of_startsWith (isDeploymentKey_of_listed h.placed.below) (by decide) (by decide)

theorem Rolls.currentKey_ne (h : Rolls order ns k deploy s) : currentKey order ns k deploy ≠ k := by
  intro heq
  have hbelow := startsWith_currentKey order ns k deploy
  rw [heq, h.not_below] at hbelow
  exact nomatch hbelow

/-- **The deployment is reconciled**, when its current ReplicaSet is there. -/
theorem Rolls.stepped_scaled (h : Rolls env.order ns k deploy s)
    (hstored : s.lookup k = some (.deployment deploy')) (hdeclared : deploy'.declared = deploy.declared)
    (hcurrent : ∃ e ∈ ownedIn deploy.id ns s, e.2.templateHash = hashOf env.order k deploy)
    {s₁ s₂ : Registry} {status : DeploymentStatus}
    (hs₂ : s₂ = s₁.insert k (.deployment (deploy'.observed status)))
    (hscaled : Scaled (ownedIn deploy.id ns s) (fun rs =>
      if rs.templateHash = hashOf env.order k deploy then deploy.spec.replicas
      else deploy.spec.strategy.keep rs.spec.replicas) s s₁)
    (htouches : Touches deploy' k (currentKey env.order ns k deploy) s s₂)
    (hobserved : Observed env.order ns k deploy s₂) :
    Stepped env ns k deploy s s₂ := by
  have hstatus : ∀ deploy₀, s.lookup k = some (.deployment deploy₀) →
      ∃ status, s₂.lookup k = some (.deployment (deploy₀.observed status)) := by
    intro deploy₀ hdeploy₀
    obtain rfl := Object.deployment.inj (Option.some_inj.mp (hstored.symm.trans hdeploy₀))
    exact ⟨status, hs₂ ▸ KeyValue.lookup_insert_self _ _ _⟩
  subst hs₂
  have howned : ownedIn deploy.id ns (s₁.insert k (.deployment (deploy'.observed status))) = _ :=
    (ownedIn_insert h.not_below).trans hscaled.ownedIn_eq
  refine ⟨h.self hstored hdeclared htouches ?_ ?_, ⟨fun _ => howned, fun hnone => ?_⟩, hobserved,
    hstatus, fun key hkey hne => ?_⟩
  · intro v' hv'
    rw [KeyValue.lookup_insert_of_ne h.currentKey_ne] at hv'
    by_cases hmem : ∃ e ∈ ownedIn deploy.id ns s, e.1 = currentKey env.order ns k deploy
    · obtain ⟨e, he, hkey⟩ := hmem
      have hlisted := (mem_ownedIn.mp he).1
      have hlookup := hscaled.scaled e he
      rw [hkey] at hlisted hlookup
      obtain ⟨rs, hrs, howner, hhash⟩ := h.own _ hlisted
      obtain rfl := Object.replicaSet.inj hrs
      have hv := Option.some_inj.mp (hv'.symm.trans hlookup)
      subst hv
      refine ⟨_, rfl, ?_, ?_⟩
      · rw [ReplicaSet.ownerRef_scaleTo, howner]
      · rw [ReplicaSet.templateHash_scaleTo, hhash]
    · push Not at hmem
      rw [hscaled.same _ hmem] at hv'
      exact h.own v' hv'
  · rw [howned]
    intro e he e' he' hhash hhash'
    obtain ⟨e₀, he₀, rfl⟩ := List.mem_map.mp he
    obtain ⟨e₀', he₀', rfl⟩ := List.mem_map.mp he'
    rw [ReplicaSet.templateHash_scaleTo] at hhash hhash'
    exact h.one e₀ he₀ e₀' he₀' hhash hhash'
  · obtain ⟨e, he, hhash⟩ := hcurrent
    exact absurd hhash (hnone e he)
  · rw [KeyValue.lookup_insert_of_ne hne]
    refine hscaled.same key fun e he heq => ?_
    rw [← heq, (mem_ownedIn.mp he).2.1] at hkey
    exact nomatch hkey

/-- **The deployment is reconciled**, when its current ReplicaSet is missing. -/
theorem Rolls.stepped_created (h : Rolls env.order ns k deploy s)
    (hstored : s.lookup k = some (.deployment deploy')) (hdeclared : deploy'.declared = deploy.declared)
    (hnone : ∀ e ∈ ownedIn deploy.id ns s, e.2.templateHash ≠ hashOf env.order k deploy)
    (hfree : ∀ e ∈ ownedIn deploy.id ns s, e.1 ≠ currentKey env.order ns k deploy)
    {s₁ s₂ : Registry} {status : DeploymentStatus}
    (hs₂ : s₂ = s₁.insert k (.deployment (deploy'.observed status)))
    (hcreated : ScaledAndCreated (ownedIn deploy.id ns s)
      (fun rs => deploy.spec.strategy.shrink rs.spec.replicas) (currentKey env.order ns k deploy)
      (newReplicaSet (env.uuid k 0) (env.now k 0) ns deploy (hashOf env.order k deploy)
        (env.firstReplicas deploy.spec.replicas deploy.spec.strategy)) s s₁)
    (htouches : Touches deploy' k (currentKey env.order ns k deploy) s s₂)
    (hobserved : Observed env.order ns k deploy s₂) :
    Stepped env ns k deploy s s₂ := by
  have hstatus : ∀ deploy₀, s.lookup k = some (.deployment deploy₀) →
      ∃ status, s₂.lookup k = some (.deployment (deploy₀.observed status)) := by
    intro deploy₀ hdeploy₀
    obtain rfl := Object.deployment.inj (Option.some_inj.mp (hstored.symm.trans hdeploy₀))
    exact ⟨status, hs₂ ▸ KeyValue.lookup_insert_self _ _ _⟩
  subst hs₂
  have hmem : ∀ e, e ∈ ownedIn deploy.id ns (s₁.insert k (.deployment (deploy'.observed status))) ↔
      e = (currentKey env.order ns k deploy, newReplicaSet (env.uuid k 0) (env.now k 0) ns deploy
          (hashOf env.order k deploy) (env.firstReplicas deploy.spec.replicas deploy.spec.strategy)) ∨
        ∃ e₀ ∈ ownedIn deploy.id ns s,
          e = (e₀.1, e₀.2.scaleTo (deploy.spec.strategy.shrink e₀.2.spec.replicas)) := by
    intro e
    rw [ownedIn_insert h.not_below, hcreated.mem_ownedIn_iff rfl (startsWith_currentKey _ _ _ _)]
    refine or_congr_right (exists_congr fun e₀ => and_congr_right fun he₀ => ?_)
    exact and_iff_right (hfree e₀ he₀)
  -- Only the new one is for the current template.
  have hnew : ∀ e ∈ ownedIn deploy.id ns (s₁.insert k (.deployment (deploy'.observed status))),
      e.2.templateHash = hashOf env.order k deploy → e.1 = currentKey env.order ns k deploy := by
    intro e he hhash
    rcases (hmem e).mp he with rfl | ⟨e₀, he₀, rfl⟩
    · rfl
    · exact absurd hhash (hnone e₀ he₀)
  refine ⟨h.self hstored hdeclared htouches ?_ ?_, ⟨fun hcurrent => ?_, fun _ => hmem⟩, hobserved,
    hstatus, fun key hkey hne => ?_⟩
  · intro v' hv'
    rw [KeyValue.lookup_insert_of_ne h.currentKey_ne, hcreated.created] at hv'
    exact ⟨_, (Option.some_inj.mp hv').symm, rfl, rfl⟩
  · exact fun e he e' he' hhash hhash' => (hnew e he hhash).trans (hnew e' he' hhash').symm
  · obtain ⟨e, he, hhash⟩ := hcurrent
    exact absurd hhash (hnone e he)
  · rw [KeyValue.lookup_insert_of_ne hne]
    refine hcreated.same key ?_ fun e he heq => ?_
    · rintro rfl
      exact nomatch hkey.symm.trans (startsWith_currentKey _ _ _ _)
    · rw [← heq, (mem_ownedIn.mp he).2.1] at hkey
      exact nomatch hkey

/-- **The deployment is reconciled.** -/
theorem Rolls.leaves_stepped (h : Rolls env.order ns k deploy s)
    (hstored : s.lookup k = some (.deployment deploy')) :
    (reconcileDeployment env ns (k, .deployment deploy')).Leaves
      (fun _ => Stepped env ns k deploy s) s := by
  have hdeclared : deploy'.declared = deploy.declared := by
    obtain ⟨deploy₀, hdeploy₀, hdecl⟩ := h.stored
    obtain rfl := Object.deployment.inj (Option.some_inj.mp (hstored.symm.trans hdeploy₀))
    exact hdecl
  have htouches := leaves_reconcileDeployment_touches env ns k deploy' s
  rw [currentKey_of_declared hdeclared] at htouches
  suffices hstep : (reconcileDeployment env ns (k, .deployment deploy')).Leaves (fun _ s' =>
      Touches deploy' k (currentKey env.order ns k deploy) s s' → Stepped env ns k deploy s s') s from
    (hstep.and htouches).weaken (fun _ _ _ => trivial) |>.mono fun _ s' hs' => hs'.1 hs'.2
  refine leaves_reconcileDeployment ?_
  rw [id_of_declared hdeclared, hashOf_of_declared hdeclared]
  by_cases hcurrent : ∃ e ∈ ownedIn deploy.id ns s, e.2.templateHash = hashOf env.order k deploy
  · have hunique : ∀ e ∈ ownedIn deploy.id ns s, ∀ e' ∈ ownedIn deploy.id ns s,
        e.2.templateHash = hashOf env.order k deploy → e'.2.templateHash = hashOf env.order k deploy →
          e = e' := fun e he e' he' hhash hhash' =>
      List.inj_on_of_nodup_map (nodup_ownedIn _ _ _) he he' (h.one e he e' he' hhash hhash')
    refine (leaves_rollout_some (nodup_ownedIn _ _ _) (holds_ownedIn _ _ _) hcurrent hunique).mono
      fun _ s₁ hs₁ htouches => ?_
    rw [spec_of_declared hdeclared] at hs₁
    exact h.stepped_scaled hstored hdeclared hcurrent rfl hs₁ htouches (observed_insert _ h.not_below)
  · push Not at hcurrent
    have hname : replicaSetName deploy' (hashOf env.order k deploy) =
        replicaSetName deploy (hashOf env.order k deploy) := by
      rw [replicaSetName, replicaSetName, name_of_declared hdeclared]
    -- The key is free: only the current ReplicaSet may lie under it.
    have hfree : ∀ e ∈ ownedIn deploy.id ns s, e.1 ≠ currentKey env.order ns k deploy := by
      intro e he heq
      have hlisted := (mem_ownedIn.mp he).1
      rw [heq] at hlisted
      obtain ⟨rs, hrs, -, hhash⟩ := h.own _ hlisted
      obtain rfl := Object.replicaSet.inj hrs
      exact hcurrent e he hhash
    refine (leaves_rollout_none (nodup_ownedIn _ _ _) (holds_ownedIn _ _ _) hcurrent
      (hname ▸ hfree)).mono fun _ s₁ hs₁ htouches => ?_
    rw [hname, spec_of_declared hdeclared, newReplicaSet_of_declared hdeclared] at hs₁
    exact h.stepped_created hstored hdeclared hcurrent hfree rfl hs₁ htouches
      (observed_insert _ h.not_below)

end Rolls

/-! ## Passes -/

/-- The store after a pass of the deployment controller that runs alone. -/
def afterDeployments (env : PassEnv) (s : Registry) : Registry := (reconcileDeployments env).after s

/-- The property depends on the deployment and its ReplicaSets only. -/
def Concerns (id k : String) (P : Registry → Prop) : Prop :=
  ∀ s s', SameOwned id s s' → s'.lookup k = s.lookup k → P s → P s'

section Passes

variable {env : PassEnv} {ns k : String} {deploy : Deployment} {P G K : Registry → Prop}
  (hP : Concerns deploy.id k P) (hGoal : Concerns deploy.id k G)
  (hself : ∀ s s', Rolls env.order ns k deploy s → P s → Stepped env ns k deploy s s' →
    P s' ∧ G s')
  (hK : ∀ s s' ns' k' other, K s → Reconciles ns' k' other s →
    Touches other k' (currentKey env.order ns' k' other) s s' → K s')

include hP hGoal hself hK

/-- **The rule for a pass**, for properties of one deployment. -/
theorem Rolls.pass_keeping {s : Registry} (h : Rolls env.order ns k deploy s) (hs : P s) (hks : K s) :
    (Rolls env.order ns k deploy (afterDeployments env s) ∧ P (afterDeployments env s)) ∧
      G (afterDeployments env s) ∧ K (afterDeployments env s) := by
  have hpass := leaves_reconcileDeployments_keeping (k := k)
    (I := fun s => Rolls env.order ns k deploy s ∧ P s) (G := G) (fun s h => h.1.placed)
    (fun s deploy' h hstored => (h.1.leaves_stepped hstored).mono fun _ s' hs' => ?_)
    (fun s s' ns' k' other h hrec hne htouches => ?_) hK ⟨h, hs⟩ hks
  · exact ⟨hpass.after.1.1, hpass.after.1.2, hpass.after.2⟩
  · obtain ⟨hP', hGoal'⟩ := hself s s' h.1 h.2 hs'
    exact ⟨⟨hs'.rolls, hP'⟩, hGoal'⟩
  · obtain ⟨hrolls, howned, hsame⟩ := h.1.others hrec hne htouches
    exact ⟨⟨hrolls, hP s s' howned hsame h.2⟩, hGoal s s' howned hsame⟩

end Passes

/-- The rule without anything else to keep. -/
theorem Rolls.pass {env : PassEnv} {ns k : String} {deploy : Deployment} {P G : Registry → Prop}
    (hP : Concerns deploy.id k P) (hGoal : Concerns deploy.id k G)
    (hself : ∀ s s', Rolls env.order ns k deploy s → P s → Stepped env ns k deploy s s' →
      P s' ∧ G s') {s : Registry} (h : Rolls env.order ns k deploy s) (hs : P s) :
    Rolls env.order ns k deploy (afterDeployments env s) ∧ P (afterDeployments env s) ∧
      G (afterDeployments env s) := by
  obtain ⟨⟨hrolls, hP'⟩, hGoal', -⟩ := h.pass_keeping (K := fun _ => True) hP hGoal hself
    (fun _ _ _ _ _ _ _ _ => trivial) hs trivial
  exact ⟨hrolls, hP', hGoal'⟩

/-! ## The fixpoint -/

section Fixpoint

variable (order : String → PodSpec → PodSpec) (ns k : String) (deploy : Deployment)

/-- One of the ReplicaSets is for the current template. -/
def HasCurrent (s : Registry) : Prop :=
  ∃ e ∈ ownedIn deploy.id ns s, e.2.templateHash = hashOf order k deploy

/-- The ReplicaSets for the current template have all replicas, the others have none. -/
def Balanced (s : Registry) : Prop :=
  HasCurrent order ns k deploy s ∧ ∀ e ∈ ownedIn deploy.id ns s, e.2.spec.replicas =
    if e.2.templateHash = hashOf order k deploy then deploy.spec.replicas else 0

/-- **The deployment is rolled out**: the ReplicaSet of the current template is there and has all
replicas, every other ReplicaSet of the list has none. -/
def RolledOut (owned : List (String × ReplicaSet)) : Prop :=
  ∃ e ∈ owned, e.2.templateHash = hashOf order k deploy ∧ e.2.spec.replicas = deploy.spec.replicas ∧
    ∀ e' ∈ owned, e'.1 ≠ e.1 → e'.2.spec.replicas = 0

/-- The ReplicaSets under the keys of `s₀` that no deployment has, and that are under no current
key, are still there; so are the deployments and the namespaces. -/
structure KeepsUnowned (s₀ s : Registry) : Prop where
  namespaces : SameNamespaces s₀ s
  deployments : ∀ key other, s.lookup key = some (.deployment other) →
    ∃ other₀, s₀.lookup key = some (.deployment other₀) ∧ other.declared = other₀.declared
  unowned : ∀ key rs, s₀.lookup key = some (.replicaSet rs) →
    (∀ key' other, s₀.lookup key' = some (.deployment other) → rs.ownerRef ≠ some other.id) →
    (∀ ns' k' other, Reconciles ns' k' other s₀ → currentKey order ns' k' other ≠ key) →
    s.lookup key = some (.replicaSet rs)

variable {order ns k deploy}

theorem keepsUnowned_refl (order : String → PodSpec → PodSpec) (s : Registry) :
    KeepsUnowned order s s :=
  ⟨fun _ _ => rfl, fun _ other hother => ⟨other, hother, rfl⟩, fun _ _ hrs _ _ => hrs⟩

/-- Every deployment leaves these ReplicaSets alone. -/
theorem KeepsUnowned.touches {s₀ s s' : Registry} {ns' k' : String} {other : Deployment}
    (h : KeepsUnowned order s₀ s) (hrec : Reconciles ns' k' other s)
    (htouches : Touches other k' (currentKey order ns' k' other) s s') : KeepsUnowned order s₀ s' := by
  have hk' : IsDeploymentKey k' := isDeploymentKey_of_listed hrec.below
  have hc : IsReplicaSetKey (currentKey order ns' k' other) := isReplicaSetKey_key _ _
  obtain ⟨other₀, hother₀, hdeclared⟩ := h.deployments k' other hrec.stored
  refine ⟨h.namespaces.trans (htouches.sameNamespaces hk' hc), ?_, ?_⟩
  · intro key other₁ hother₁
    obtain ⟨other₂, hother₂, hdecl⟩ := htouches.deployment hrec.stored hother₁
    obtain ⟨other₃, hother₃, hdecl'⟩ := h.deployments key other₂ hother₂
    exact ⟨other₃, hother₃, hdecl.trans hdecl'⟩
  · intro key rs hrs hunowned hnot
    refine htouches.replicaSet hrec.stored ?_ ?_ (h.unowned key rs hrs hunowned hnot)
    · rw [id_of_declared hdeclared]
      exact hunowned k' other₀ hother₀
    · rw [currentKey_of_declared hdeclared]
      refine Ne.symm (hnot ns' k' other₀ ⟨h.namespaces.registers.mp hrec.registered, hrec.named,
        hrec.below, hother₀⟩)

theorem concerns_hasCurrent : Concerns deploy.id k (HasCurrent order ns k deploy) := by
  intro s s' howned _ h
  rw [HasCurrent, howned.ownedIn_eq]
  exact h

theorem concerns_balanced : Concerns deploy.id k (Balanced order ns k deploy) := by
  intro s s' howned hsame h
  refine ⟨concerns_hasCurrent s s' howned hsame h.1, ?_⟩
  rw [howned.ownedIn_eq]
  exact h.2

theorem concerns_observed : Concerns deploy.id k (Observed order ns k deploy) := by
  rintro s s' howned hsame ⟨deploy', hdeploy', hobserved⟩
  refine ⟨deploy', hsame.trans hdeploy', ?_⟩
  rw [deploymentStatus] at hobserved ⊢
  rw [← ownedIn, howned.ownedIn_eq]
  exact hobserved

/-- After a pass the ReplicaSet of the current template is there. -/
theorem Stepped.hasCurrent {env : PassEnv} {s s' : Registry} (h : Stepped env ns k deploy s s') :
    HasCurrent env.order ns k deploy s' := by
  by_cases hcurrent : ∃ e ∈ ownedIn deploy.id ns s, e.2.templateHash = hashOf env.order k deploy
  · rw [HasCurrent, h.advanced.adjusted hcurrent]
    obtain ⟨e, he, hhash⟩ := hcurrent
    refine ⟨_, List.mem_map_of_mem he, ?_⟩
    rw [ReplicaSet.templateHash_scaleTo, hhash]
  · push Not at hcurrent
    exact ⟨_, (h.advanced.created hcurrent _).mpr (Or.inl rfl), rfl⟩

/-- The strategies whose old ReplicaSets are emptied once the current one is there. -/
def DeploymentStrategy.replaces : DeploymentStrategy → Prop
  | .rollingUpdate _ _ => True
  | .blueGreen => True
  | _ => False

theorem DeploymentStrategy.keep_of_replaces {strategy : DeploymentStrategy} (h : strategy.replaces)
    (n : UInt32) : strategy.keep n = 0 := by
  cases strategy with
  | rollingUpdate maxSurge maxUnavailable => rfl
  | recreate => exact h.elim
  | blueGreen => rfl
  | canary weight => exact h.elim

/-- **From then on one pass is enough.** -/
theorem Stepped.balanced {env : PassEnv} {s s' : Registry} (h : Stepped env ns k deploy s s')
    (hstrategy : deploy.spec.strategy.replaces) (hcurrent : HasCurrent env.order ns k deploy s) :
    Balanced env.order ns k deploy s' := by
  refine ⟨h.hasCurrent, fun e he => ?_⟩
  rw [h.advanced.adjusted hcurrent] at he
  obtain ⟨e₀, he₀, rfl⟩ := List.mem_map.mp he
  rw [ReplicaSet.replicas_scaleTo, ReplicaSet.templateHash_scaleTo]
  split_ifs with hhash
  · rfl
  · exact DeploymentStrategy.keep_of_replaces hstrategy _

/-- There is one ReplicaSet for the current template. -/
theorem Rolls.rolledOut {s : Registry} (h : Rolls order ns k deploy s)
    (hbalanced : Balanced order ns k deploy s) :
    RolledOut order k deploy (ownedIn deploy.id ns s) := by
  obtain ⟨⟨e, he, hhash⟩, hreplicas⟩ := hbalanced
  refine ⟨e, he, hhash, by rw [hreplicas e he, if_pos hhash], fun e' he' hne => ?_⟩
  rw [hreplicas e' he', if_neg fun hhash' => hne (h.one e' he' e he hhash' hhash)]

/-- **The fixpoint**: nothing of the deployment changes any more. -/
theorem Stepped.same {env : PassEnv} {s s' : Registry} (h : Stepped env ns k deploy s s')
    (hstrategy : deploy.spec.strategy.replaces) (hbalanced : Balanced env.order ns k deploy s)
    (hobserved : Observed env.order ns k deploy s) :
    SameOwned deploy.id s s' ∧ s'.lookup k = s.lookup k := by
  obtain ⟨deploy₀, hdeploy₀, hstatus₀⟩ := hobserved
  obtain ⟨deploy₁, hdeploy₁, hstatus₁⟩ := h.observed
  obtain ⟨status, hstatus⟩ := h.status deploy₀ hdeploy₀
  -- The ReplicaSets have the replicas they should have.
  have howned : ownedIn deploy.id ns s' = ownedIn deploy.id ns s := by
    rw [h.advanced.adjusted hbalanced.1]
    refine (List.map_congr_left fun e he => ?_).trans (List.map_id _)
    rw [DeploymentStrategy.keep_of_replaces hstrategy, ← hbalanced.2 e he]
    rfl
  constructor
  · intro key rs howner
    cases hbelow : startsWith key (replicaSetPrefixOf ns) with
    | true =>
        have hmem : (key, rs) ∈ ownedIn deploy.id ns s' ↔ (key, rs) ∈ ownedIn deploy.id ns s := by
          rw [howned]
        rw [mem_ownedIn, mem_ownedIn] at hmem
        constructor
        · exact fun hrs => (hmem.mp ⟨hrs, hbelow, howner⟩).1
        · exact fun hrs => (hmem.mpr ⟨hrs, hbelow, howner⟩).1
    | false =>
        by_cases hk : key = k
        · subst hk
          rw [hstatus, hdeploy₀]
          exact iff_of_false (fun heq => nomatch heq) fun heq => nomatch heq
        · rw [h.outside key hbelow hk]
  · -- The status is that of the same ReplicaSets.
    obtain rfl := Object.deployment.inj (Option.some_inj.mp (hstatus.symm.trans hdeploy₁))
    rw [deploymentStatus, ← ownedIn] at hstatus₀ hstatus₁
    rw [howned] at hstatus₁
    rw [hdeploy₁, hdeploy₀, ← hstatus₁]
    exact congrArg (fun d => some (Object.deployment d)) hstatus₀

end Fixpoint

/-! ## Stores that can be checked -/

/-- The namespaces that a pass goes through. -/
def namespacesIn (s : Registry) : List String :=
  ((s.scan fun key => startsWith key "/registry/namespaces/").map fun e => namespaceOf e.1).filter
    fun ns => !ns.isEmpty

theorem mem_namespacesIn {s : Registry} {ns : String} :
    ns ∈ namespacesIn s ↔ Registers s ns ∧ ns.isEmpty = false := by
  simp only [namespacesIn, List.mem_filter, List.mem_map, KeyValue.mem_scan, Bool.not_eq_true',
    Registers, Prod.exists, and_assoc]

/-- The deployments that a pass goes through, each with its namespace and its key. -/
def reconciledIn (s : Registry) : List (String × String × Deployment) :=
  (namespacesIn s).flatMap fun ns => (s.scan fun key => startsWith key (deploymentPrefixOf ns)).filterMap
    fun e => e.2.asDeployment.map fun deploy => (ns, e.1, deploy)

theorem mem_reconciledIn {s : Registry} {ns k : String} {deploy : Deployment} :
    (ns, k, deploy) ∈ reconciledIn s ↔ Reconciles ns k deploy s := by
  simp only [reconciledIn, List.mem_flatMap, mem_namespacesIn, List.mem_filterMap, KeyValue.mem_scan,
    Option.map_eq_some_iff, Object.asDeployment_eq_some, Prod.exists]
  constructor
  · rintro ⟨ns', ⟨hreg, hns⟩, k', v, ⟨hlookup, hbelow⟩, deploy', rfl, heq⟩
    simp only [Prod.mk.injEq] at heq
    obtain ⟨rfl, rfl, rfl⟩ := heq
    exact ⟨hreg, hns, hbelow, hlookup⟩
  · intro h
    exact ⟨ns, ⟨h.registered, h.named⟩, k, _, ⟨h.stored, h.below⟩, deploy, rfl, rfl⟩

instance (ns k : String) (s : Registry) : Decidable (PlacedIn ns k s) :=
  decidable_of_iff (ns ∈ namespacesIn s ∧ startsWith k (deploymentPrefixOf ns) = true ∧
    (∀ ns' ∈ namespacesIn s, startsWith k (deploymentPrefixOf ns') = true → ns' = ns) ∧
    ((s.lookup k).bind Object.asDeployment).isSome = true) (by
  constructor
  · rintro ⟨hns, hbelow, hsingle, hstored⟩
    obtain ⟨hreg, hnamed⟩ := mem_namespacesIn.mp hns
    obtain ⟨deploy, hdeploy⟩ := Option.isSome_iff_exists.mp hstored
    obtain ⟨v, hv, hdeploy⟩ := Option.bind_eq_some_iff.mp hdeploy
    exact ⟨hreg, hnamed, hbelow, fun ns' hreg' hnamed' => hsingle ns' (mem_namespacesIn.mpr ⟨hreg', hnamed'⟩),
      deploy, Object.asDeployment_eq_some.mp hdeploy ▸ hv⟩
  · intro h
    obtain ⟨deploy, hdeploy⟩ := h.stored
    refine ⟨mem_namespacesIn.mpr ⟨h.registered, h.named⟩, h.below, fun ns' hns' hbelow => ?_, ?_⟩
    · exact h.single ns' (mem_namespacesIn.mp hns').1 (mem_namespacesIn.mp hns').2 hbelow
    · rw [hdeploy]
      rfl)

/-- The current key holds nothing but the ReplicaSet of the current template. -/
def OwnCurrentKey (order : String → PodSpec → PodSpec) (ns k : String) (deploy : Deployment)
    (s : Registry) : Prop :=
  ∀ v ∈ s.lookup (currentKey order ns k deploy), ∃ rs ∈ v.asReplicaSet,
    rs.ownerRef = some deploy.id ∧ rs.templateHash = hashOf order k deploy

/-- At most one of the ReplicaSets is for the current template. -/
def OneCurrent (order : String → PodSpec → PodSpec) (k : String) (deploy : Deployment)
    (owned : List (String × ReplicaSet)) : Prop :=
  ∀ e ∈ owned, ∀ e' ∈ owned, e.2.templateHash = hashOf order k deploy →
    e'.2.templateHash = hashOf order k deploy → e.1 = e'.1

instance (order : String → PodSpec → PodSpec) (ns k : String) (deploy : Deployment) (s : Registry) :
    Decidable (OwnCurrentKey order ns k deploy s) := by
  unfold OwnCurrentKey
  infer_instance

instance (order : String → PodSpec → PodSpec) (k : String) (deploy : Deployment)
    (owned : List (String × ReplicaSet)) : Decidable (OneCurrent order k deploy owned) := by
  unfold OneCurrent
  infer_instance

instance (order : String → PodSpec → PodSpec) (ns k : String) (deploy : Deployment) (s : Registry) :
    Decidable (Rolls order ns k deploy s) :=
  decidable_of_iff (PlacedIn ns k s ∧
    (∃ deploy' ∈ (s.lookup k).bind Object.asDeployment, deploy'.declared = deploy.declared) ∧
    (∀ e ∈ s.rows, ∀ other ∈ e.2.asDeployment, other.id = deploy.id → e.1 = k) ∧
    (∀ r ∈ reconciledIn s, r.2.1 ≠ k →
      currentKey order r.1 r.2.1 r.2.2 ≠ currentKey order ns k deploy ∧
      ∀ rs ∈ (s.lookup (currentKey order r.1 r.2.1 r.2.2)).bind Object.asReplicaSet,
        rs.ownerRef ≠ some deploy.id) ∧
    OwnCurrentKey order ns k deploy s ∧ OneCurrent order k deploy (ownedIn deploy.id ns s)) (by
  constructor
  · rintro ⟨hplaced, ⟨deploy', hdeploy', hdeclared⟩, hunique, hothers, hown, hone⟩
    obtain ⟨v, hv, hdeploy'⟩ := Option.bind_eq_some_iff.mp hdeploy'
    refine ⟨hplaced, ⟨deploy', Object.asDeployment_eq_some.mp hdeploy' ▸ hv, hdeclared⟩, ?_, ?_, ?_, ?_,
      hone⟩
    · exact fun k' other hother => hunique _ (KeyValue.lookup_eq_some.mp hother) other rfl
    · exact fun ns' k' other hrec hne => (hothers _ (mem_reconciledIn.mpr hrec) hne).1
    · intro ns' k' other hrec hne rs hrs
      refine (hothers _ (mem_reconciledIn.mpr hrec) hne).2 rs ?_
      rw [hrs]
      rfl
    · intro v hv
      obtain ⟨rs, hrs, howner, hhash⟩ := hown v hv
      exact ⟨rs, Object.asReplicaSet_eq_some.mp hrs, howner, hhash⟩
  · intro h
    obtain ⟨deploy', hdeploy', hdeclared⟩ := h.stored
    refine ⟨h.placed, ⟨deploy', by rw [hdeploy']; rfl, hdeclared⟩, ?_, ?_, ?_, h.one⟩
    · rintro ⟨key, v⟩ hmem other hother
      obtain rfl := Object.asDeployment_eq_some.mp hother
      exact h.unique key other (KeyValue.lookup_eq_some.mpr hmem)
    · rintro ⟨ns', k', other⟩ hrec hne
      refine ⟨h.apart ns' k' other (mem_reconciledIn.mp hrec) hne, fun rs hrs => ?_⟩
      obtain ⟨v, hv, hrs⟩ := Option.bind_eq_some_iff.mp hrs
      rw [Object.asReplicaSet_eq_some.mp hrs] at hv
      exact h.clear ns' k' other (mem_reconciledIn.mp hrec) hne rs hv
    · intro v hv
      obtain ⟨rs, rfl, howner, hhash⟩ := h.own v hv
      exact ⟨rs, rfl, howner, hhash⟩)

instance (order : String → PodSpec → PodSpec) (k : String) (deploy : Deployment)
    (owned : List (String × ReplicaSet)) : Decidable (RolledOut order k deploy owned) := by
  unfold RolledOut
  infer_instance

/-- **Rollouts converge.**  For a deployment that is rolled out by itself, with a rolling update or
blue/green, and passes that hash templates alike: after two passes it is rolled out, the
ReplicaSets that no deployment has are untouched, and a third pass changes neither the deployment
nor its ReplicaSets. -/
theorem rollouts_converge (order : String → PodSpec → PodSpec) (ns k : String) (deploy : Deployment)
    (hstrategy : deploy.spec.strategy.replaces) (s : Registry) (h : Rolls order ns k deploy s)
    (env₁ env₂ env₃ : PassEnv) (h₁ : env₁.order = order) (h₂ : env₂.order = order)
    (h₃ : env₃.order = order) :
    RolledOut order k deploy
        (ownedIn deploy.id ns (afterDeployments env₂ (afterDeployments env₁ s))) ∧
      KeepsUnowned order s (afterDeployments env₂ (afterDeployments env₁ s)) ∧
      SameOwned deploy.id (afterDeployments env₂ (afterDeployments env₁ s))
        (afterDeployments env₃ (afterDeployments env₂ (afterDeployments env₁ s))) ∧
      (afterDeployments env₃ (afterDeployments env₂ (afterDeployments env₁ s))).lookup k =
        (afterDeployments env₂ (afterDeployments env₁ s)).lookup k := by
  subst h₁
  -- The first pass makes sure that the current ReplicaSet is there.
  have hkeep : ∀ s₁ s' ns' k' other, KeepsUnowned env₁.order s s₁ → Reconciles ns' k' other s₁ →
      Touches other k' (currentKey env₁.order ns' k' other) s₁ s' → KeepsUnowned env₁.order s s' :=
    fun _ _ _ _ _ hs₁ hrec htouches => hs₁.touches hrec htouches
  obtain ⟨⟨hrolls₁, -⟩, hcurrent, hkept₁⟩ := h.pass_keeping (P := fun _ => True)
    (G := HasCurrent env₁.order ns k deploy) (fun _ _ _ _ _ => trivial) concerns_hasCurrent
    (fun _ _ _ _ hstepped => ⟨trivial, hstepped.hasCurrent⟩) hkeep trivial (keepsUnowned_refl _ s)
  -- The second one rolls out.
  have hlocal : Concerns deploy.id k fun s =>
      Balanced env₁.order ns k deploy s ∧ Observed env₁.order ns k deploy s :=
    fun s s' howned hsame hs => ⟨concerns_balanced s s' howned hsame hs.1,
      concerns_observed s s' howned hsame hs.2⟩
  rw [← h₂] at hrolls₁ hcurrent hkept₁ hkeep hlocal ⊢
  obtain ⟨⟨hrolls₂, -⟩, ⟨hbalanced, hobserved⟩, hkept₂⟩ := hrolls₁.pass_keeping concerns_hasCurrent
    hlocal (fun _ _ _ hs hstepped => ⟨hstepped.hasCurrent, hstepped.balanced hstrategy hs,
      hstepped.observed⟩) hkeep hcurrent hkept₁
  refine ⟨hrolls₂.rolledOut hbalanced, hkept₂, ?_⟩
  -- The third one finds nothing to do.
  rw [h₂, ← h₃] at hrolls₂ hbalanced hobserved hlocal
  refine (hrolls₂.pass (P := fun s' => (Balanced env₃.order ns k deploy s' ∧
      Observed env₃.order ns k deploy s') ∧
      SameOwned deploy.id (afterDeployments env₂ (afterDeployments env₁ s)) s' ∧
      s'.lookup k = (afterDeployments env₂ (afterDeployments env₁ s)).lookup k)
    (G := fun _ => True) (fun s s' howned hsame hs => ?_) (fun _ _ _ _ _ => trivial)
    (fun s s' _ hs hstepped => ⟨?_, trivial⟩)
    ⟨⟨hbalanced, hobserved⟩, fun _ _ _ => Iff.rfl, rfl⟩).2.1.2
  · exact ⟨hlocal s s' howned hsame hs.1, hs.2.1.trans howned, hsame.trans hs.2.2⟩
  · obtain ⟨howned, hsame⟩ := hstepped.same hstrategy hs.1.1 hs.1.2
    exact ⟨hlocal s s' howned hsame hs.1, hs.2.1.trans howned, hsame.trans hs.2.2⟩

/-! ## Small clusters -/

/-- A deployment with a rolling update of three replicas. -/
def rollingDeployment (id name : String) : Deployment :=
  { webDeployment with id := id, name := name, spec := ⟨3, emptyTemplate, .rollingUpdate 1 0, []⟩ }

/-- A ReplicaSet of an owner, with two replicas. -/
def ownedReplicaSet (owner hash : String) : ReplicaSet :=
  { newReplicaSet "rs0" 0 "default" (rollingDeployment owner "web") hash 2 with ownerRef := some owner }

/-- A store with namespaces, deployments and ReplicaSets. -/
def clusterStore (namespaces : List String) (deployments : List (String × Deployment))
    (sets : List (String × ReplicaSet)) : Registry :=
  let store : Registry :=
    namespaces.foldl (fun s ns => KeyValue.insert s ("/registry/namespaces/" ++ ns) (.other "")) ∅
  let store : Registry := deployments.foldl (fun s e => KeyValue.insert s e.1 (.deployment e.2)) store
  sets.foldl (fun s e => KeyValue.insert s e.1 (.replicaSet e.2)) store

/-- Two deployments, one of them with an old ReplicaSet. -/
def rollingStore : Registry :=
  clusterStore ["default"] [("/registry/deployments/default/api", rollingDeployment "d2" "api"),
      ("/registry/deployments/default/web", rollingDeployment "d1" "web")]
    [("/registry/replicasets/default/web-old", ownedReplicaSet "d1" "old")]

theorem rollouts_converge_rollingStore :
    RolledOut quietEnv.order "/registry/deployments/default/web" (rollingDeployment "d1" "web")
        (ownedIn "d1" "default" (afterDeployments quietEnv (afterDeployments quietEnv rollingStore))) ∧
      KeepsUnowned quietEnv.order rollingStore
        (afterDeployments quietEnv (afterDeployments quietEnv rollingStore)) ∧
      SameOwned "d1" (afterDeployments quietEnv (afterDeployments quietEnv rollingStore))
        (afterDeployments quietEnv (afterDeployments quietEnv (afterDeployments quietEnv rollingStore))) ∧
      (afterDeployments quietEnv (afterDeployments quietEnv
          (afterDeployments quietEnv rollingStore))).lookup "/registry/deployments/default/web" =
        (afterDeployments quietEnv (afterDeployments quietEnv rollingStore)).lookup
          "/registry/deployments/default/web" :=
  rollouts_converge quietEnv.order "default" "/registry/deployments/default/web"
    (rollingDeployment "d1" "web") trivial rollingStore (by decide +kernel) quietEnv quietEnv quietEnv
    rfl rfl rfl

/-- What is assumed of the ReplicaSets of a deployment. -/
def CurrentIsOwn (ns k : String) (deploy : Deployment) (s : Registry) : Prop :=
  OwnCurrentKey quietEnv.order ns k deploy s ∧
    OneCurrent quietEnv.order k deploy (ownedReplicaSets deploy.id s.rows)

instance (ns k : String) (deploy : Deployment) (s : Registry) :
    Decidable (CurrentIsOwn ns k deploy s) := inferInstanceAs (Decidable (_ ∧ _))

/-- All ReplicaSets of the deployment, wherever they are, after two passes. -/
def ownedAfterTwo (id : String) (s : Registry) : List (String × ReplicaSet) :=
  ownedReplicaSets id (afterDeployments quietEnv (afterDeployments quietEnv s)).rows

/-- Nobody has registered the namespace. -/
def unregisteredStore : Registry :=
  clusterStore [] [("/registry/deployments/default/web", rollingDeployment "d1" "web")] []

/-- The deployment is in the directories of two namespaces. -/
def twiceRegisteredStore : Registry :=
  clusterStore ["a", "a/b"] [("/registry/deployments/a/b/web", rollingDeployment "d1" "web")] []

/-- Two deployments with one id and different templates. -/
def sharedIdStore : Registry :=
  clusterStore ["default"] [("/registry/deployments/default/api", rollingDeployment "d1" "api"),
    ("/registry/deployments/default/web", { rollingDeployment "d1" "web" with
      spec := ⟨3, { emptyTemplate with vpc := some "blue" }, .rollingUpdate 1 0, []⟩ })] []

/-- Two deployments with one name and one template. -/
def sharedKeyStore : Registry :=
  clusterStore ["default"] [("/registry/deployments/default/api", rollingDeployment "d2" "web"),
    ("/registry/deployments/default/web", rollingDeployment "d1" "web")] []

/-- The ReplicaSet of one deployment is under the current key of another. -/
def foreignKeyStore (owner : String) : Registry :=
  clusterStore ["default"] [("/registry/deployments/default/api", rollingDeployment "d1" "api"),
      ("/registry/deployments/default/web", rollingDeployment "d2" "web")]
    [(currentKey quietEnv.order "default" "/registry/deployments/default/web"
      (rollingDeployment "d2" "web"), ownedReplicaSet owner (templateHash emptyTemplate))]

/-- A ReplicaSet of the deployment is in another namespace. -/
def scatteredStore : Registry :=
  clusterStore ["default", "other"] [("/registry/deployments/default/web", rollingDeployment "d1" "web")]
    [("/registry/replicasets/other/web-old", ownedReplicaSet "d1" "old")]

/-- Without the conditions on the store two passes do not roll out, and may overwrite a ReplicaSet
that no deployment has. -/
theorem rollouts_fail :
    (CurrentIsOwn "default" "/registry/deployments/default/web" (rollingDeployment "d1" "web")
        unregisteredStore ∧
      ¬RolledOut quietEnv.order "/registry/deployments/default/web" (rollingDeployment "d1" "web")
        (ownedAfterTwo "d1" unregisteredStore)) ∧
    (CurrentIsOwn "a/b" "/registry/deployments/a/b/web" (rollingDeployment "d1" "web")
        twiceRegisteredStore ∧
      ¬RolledOut quietEnv.order "/registry/deployments/a/b/web" (rollingDeployment "d1" "web")
        (ownedAfterTwo "d1" twiceRegisteredStore)) ∧
    (CurrentIsOwn "default" "/registry/deployments/default/api" (rollingDeployment "d1" "api")
        sharedIdStore ∧
      ¬RolledOut quietEnv.order "/registry/deployments/default/api" (rollingDeployment "d1" "api")
        (ownedAfterTwo "d1" sharedIdStore)) ∧
    (CurrentIsOwn "default" "/registry/deployments/default/web" (rollingDeployment "d1" "web")
        sharedKeyStore ∧
      ¬RolledOut quietEnv.order "/registry/deployments/default/web" (rollingDeployment "d1" "web")
        (ownedAfterTwo "d1" sharedKeyStore)) ∧
    (CurrentIsOwn "default" "/registry/deployments/default/api" (rollingDeployment "d1" "api")
        (foreignKeyStore "d1") ∧
      ¬RolledOut quietEnv.order "/registry/deployments/default/api" (rollingDeployment "d1" "api")
        (ownedAfterTwo "d1" (foreignKeyStore "d1"))) ∧
    (CurrentIsOwn "default" "/registry/deployments/default/web" (rollingDeployment "d1" "web")
        scatteredStore ∧
      ¬RolledOut quietEnv.order "/registry/deployments/default/web" (rollingDeployment "d1" "web")
        (ownedAfterTwo "d1" scatteredStore)) ∧
    (CurrentIsOwn "default" "/registry/deployments/default/api" (rollingDeployment "d1" "api")
        (foreignKeyStore "nobody") ∧
      (ownedReplicaSets "nobody" (foreignKeyStore "nobody").rows).length = 1 ∧
      (ownedAfterTwo "nobody" (foreignKeyStore "nobody")).length = 0) := by
  refine ⟨⟨by decide +kernel, by decide +kernel⟩, ⟨by decide +kernel, by decide +kernel⟩,
    ⟨by decide +kernel, by decide +kernel⟩, ⟨by decide +kernel, by decide +kernel⟩,
    ⟨by decide +kernel, by decide +kernel⟩, ⟨by decide +kernel, by decide +kernel⟩,
    ⟨by decide +kernel, by decide +kernel, by decide +kernel⟩⟩

end K3rs
