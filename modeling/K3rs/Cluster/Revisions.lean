import K3rs.Cluster.Deployments

/-!
# Revisions of a deployment

A pass recognises the ReplicaSet of the current template by the template's hash, and the key of
a new ReplicaSet has the first half of the hash in its name.

* `template_hash_steady_iff`: the hash is the same for all orders of the template's maps, and a
  pass over an unchanged deployment only confirms its ReplicaSet, exactly if every map is free of
  order.
* `revision_keys_differ_iff`: templates with different hashes get different keys exactly if the
  high halves of their polynomials differ.
-/

namespace K3rs

open Programs

/-! ## Unchanged deployments -/

/-- What a pass may do while the deployment has not changed: give one of the ReplicaSets it owns
another replica count, and to the current one no other than that of the deployment. -/
def Steady (deploy : Deployment) (owned : List (String × ReplicaSet))
    (current : String × ReplicaSet) (o : Op String Object) : Prop :=
  ∃ e ∈ owned, ∃ replicas, o = .put e.1 (.replicaSet (e.2.scaleTo replicas)) ∧
    (e.1 = current.1 → replicas = deploy.spec.replicas)

section Rollout

variable {deploy : Deployment} {hash : String} {owned : List (String × ReplicaSet)}
  {current : String × ReplicaSet}

theorem matchReplicas_steady {found : String × ReplicaSet} (hfound : found ∈ owned) :
    (matchReplicas deploy found).Only (Steady deploy owned current) := by
  rw [matchReplicas]
  split_ifs
  · exact ⟨⟨found, hfound, _, rfl, fun _ => rfl⟩, fun _ => trivial⟩
  · trivial

/-- The old ReplicaSets are not the current one. -/
theorem scaleDown_steady (hnodup : (owned.map Prod.fst).Nodup) (hcurrent : current ∈ owned)
    (hhash : current.2.templateHash = hash) (scale : UInt32 → UInt32) :
    (scaleDown (fun rs => decide (rs.templateHash ≠ hash)) scale owned).Only
      (Steady deploy owned current) := by
  refine Prog.Only.forEach fun e he => ?_
  split_ifs with hold
  · refine ⟨⟨e, he, _, rfl, fun hkey => ?_⟩, fun _ => trivial⟩
    have hsame : e = current := List.inj_on_of_nodup_map hnodup he hcurrent hkey
    have hne : e.2.templateHash ≠ hash := of_decide_eq_true (Bool.and_eq_true_iff.mp hold).1
    exact absurd (hsame ▸ hhash) hne
  · trivial

/-- A pass that finds the current ReplicaSet by its hash. -/
theorem rollout_steady (env : PassEnv) (ns key : String) (hnodup : (owned.map Prod.fst).Nodup)
    (hcurrent : current ∈ owned) (hhash : current.2.templateHash = hash) :
    (rollout env ns key deploy hash owned).Only (Steady deploy owned current) := by
  have hfind : (owned.find? fun e => decide (e.2.templateHash = hash)).isSome :=
    List.find?_isSome.mpr ⟨current, hcurrent, decide_eq_true hhash⟩
  obtain ⟨found, hfound⟩ := Option.isSome_iff_exists.mp hfind
  have hmem := List.mem_of_find?_eq_some hfound
  simp only [rollout, hfound]
  cases deploy.spec.strategy with
  | rollingUpdate maxSurge maxUnavailable =>
      exact (matchReplicas_steady hmem).bind fun _ =>
        scaleDown_steady hnodup hcurrent hhash _
  | recreate => exact matchReplicas_steady hmem
  | blueGreen =>
      exact (matchReplicas_steady hmem).bind fun _ =>
        scaleDown_steady hnodup hcurrent hhash _
  | canary weight => exact matchReplicas_steady hmem

end Rollout

/-- **The hash as a function of the template's meaning.**  Deployments with the same template
have the same hash, whatever the orders of the maps, and a pass that finds the ReplicaSet of an
earlier pass only confirms it, exactly if every map of the template is free of order. -/
theorem template_hash_steady_iff (deploy : Deployment) :
    ((∀ deploy' : Deployment, deploy.spec.template.Same deploy'.spec.template →
        computeTemplateHash deploy' = computeTemplateHash deploy) ∧
      ∀ (env : PassEnv) (ns key : String) (template : PodSpec) (entries : List (String × Object))
        (current : String × ReplicaSet),
        deploy.spec.template.Same template →
        deploy.spec.template.Same (env.order key deploy.spec.template) →
        (entries.map Prod.fst).Nodup → current ∈ ownedReplicaSets deploy.id entries →
        current.2.templateHash = templateHash template →
        (rollout env ns key deploy (templateHash (env.order key deploy.spec.template))
          (ownedReplicaSets deploy.id entries)).Only
          (Steady deploy (ownedReplicaSets deploy.id entries) current)) ↔
      ∀ m ∈ deploy.spec.template.maps, m.OrderFree := by
  rw [← templateHash_order_iff]
  constructor
  · rintro ⟨hhash, -⟩ t' hsame
    exact hhash { deploy with spec := { deploy.spec with template := t' } } hsame
  · intro h
    refine ⟨fun deploy' hsame => h _ hsame, ?_⟩
    intro env ns key template entries current htemplate horder hnodup hcurrent hhash
    refine rollout_steady env ns key ?_ hcurrent ?_
    · exact nodup_ownedReplicaSets hnodup
    · rw [hhash, h _ htemplate, h _ horder]

/-- A template with one container that has an environment. -/
def envTemplate (env : StringMap) : PodSpec :=
  { emptyTemplate with containers := [⟨"c", "i", [], [], env, ⟨0, 0⟩, []⟩] }

/-- Two variables, in one order and in the other. -/
theorem template_hash_steady_fails_two_variables :
    (envTemplate [("A", "1"), ("B", "2")]).Same (envTemplate [("B", "2"), ("A", "1")]) ∧
      computeTemplateHash
          { webDeployment with
            spec := { webDeployment.spec with template := envTemplate [("B", "2"), ("A", "1")] } } ≠
        computeTemplateHash
          { webDeployment with
            spec := { webDeployment.spec with template := envTemplate [("A", "1"), ("B", "2")] } } := by
  refine ⟨⟨?_, List.Perm.refl _, rfl⟩, by decide +kernel⟩
  exact List.Forall₂.cons ⟨List.Perm.swap _ _ _, rfl⟩ List.Forall₂.nil

/-! ## Keys of revisions -/

/-- The part of a template's hash that its keys show: the high half of the polynomial. -/
def keyPart (template : PodSpec) : ℕ :=
  PolyHash.value 31 (codes template.toJson.render) % 2 ^ 64 / 2 ^ 32

/-- The key of the ReplicaSet for a template. -/
def revisionKey (ns : String) (deploy : Deployment) (template : PodSpec) : String :=
  replicaSetKey ns (replicaSetName deploy (templateHash template))

theorem keyPart_lt (template : PodSpec) : keyPart template < 16 ^ 8 := by
  have h := Nat.mod_lt (PolyHash.value 31 (codes template.toJson.render)) (by decide : 0 < 2 ^ 64)
  rw [keyPart]
  omega

/-- Two keys are equal exactly if they show the same. -/
theorem revisionKey_inj (ns : String) (deploy : Deployment) (t t' : PodSpec) :
    revisionKey ns deploy t = revisionKey ns deploy t' ↔ keyPart t = keyPart t' := by
  have htake : ∀ t, (templateHash t).toList.take 8 = hexFixed 8 (keyPart t) := by
    intro t
    rw [templateHash, String.toList_ofList, hashBytes_toNat]
    exact take_hexFixed 8 8 _
  have hmod : ∀ t, keyPart t % 16 ^ 8 = keyPart t := fun t => Nat.mod_eq_of_lt (keyPart_lt t)
  constructor
  · intro h
    have hlists := congrArg String.toList h
    simp only [revisionKey, replicaSetKey, replicaSetName, String.toList_append,
      List.append_cancel_left_eq, String.toList_ofList, htake, hexFixed_inj, Nat.ModEq, hmod] at hlists
    exact hlists
  · intro h
    rw [revisionKey, revisionKey, replicaSetName, replicaSetName, htake, htake, h]

/-- What a new revision must leave alone: the stored ReplicaSet of the old template when the one
for the new template is created, and the latter when the old one is scaled down. -/
def Apart (ns : String) (deploy : Deployment) (old new : PodSpec) : Prop :=
  revisionKey ns deploy old ≠ revisionKey ns deploy new ∧
  ∀ (env : PassEnv) (key : String) (replicas scaled : UInt32) (rs : ReplicaSet) (store : Registry),
    store.lookup (revisionKey ns deploy old) = some (.replicaSet rs) →
    let created := ((createReplicaSet env ns key deploy (templateHash new) replicas).exec [] store).2.2
    created.lookup (revisionKey ns deploy old) = some (.replicaSet rs) ∧
    ((Prog.put (revisionKey ns deploy old) (.replicaSet (rs.scaleTo scaled)) : Program Unit).exec []
      created).2.2.lookup (revisionKey ns deploy new) =
        created.lookup (revisionKey ns deploy new)

/-- **Revisions do not collide** exactly if the high halves of their polynomials differ. -/
theorem revision_keys_differ_iff (ns : String) (deploy : Deployment) (old new : PodSpec) :
    Apart ns deploy old new ↔ keyPart old ≠ keyPart new := by
  have hkeys := not_congr (revisionKey_inj ns deploy old new)
  constructor
  · exact fun h => hkeys.mp h.1
  · intro hparts
    have h := hkeys.mpr hparts
    refine ⟨h, fun env key replicas scaled rs store hstored => ⟨?_, ?_⟩⟩
    · exact (KeyValue.lookup_insert_of_ne h).trans hstored
    · exact KeyValue.lookup_insert_of_ne (Ne.symm h)

/-- A template with a VPC. -/
def vpcTemplate (vpc : String) : PodSpec := { emptyTemplate with vpc := some vpc }

/-- Two templates that differ in the last character of the VPC have different hashes and one
key. -/
theorem revision_keys_differ_fails_last_character :
    templateHash (vpcTemplate "a") ≠ templateHash (vpcTemplate "b") ∧
      ¬Apart "default" webDeployment (vpcTemplate "a") (vpcTemplate "b") := by
  refine ⟨by decide +kernel, fun h => h.1 ?_⟩
  decide +kernel

end K3rs
