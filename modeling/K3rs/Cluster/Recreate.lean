import K3rs.Cluster.ControllerRuns

/-!
# Recreating a deployment

With the strategy `Recreate` the old ReplicaSets are to be gone before the new one has pods.

The deployment controller empties the old ReplicaSets in the pass that creates the new one, and
never again: after a rollback, when the ReplicaSet of the template is still there, they keep their
replicas.  The pods are left to the ReplicaSet controller, which goes through the ReplicaSets in
the order of their keys, so that the new one may get its pods before the old ones lose theirs.

* `recreate_holds`: exactly when old ReplicaSets are empty after any number of passes, and in which
  runs of both controllers new pods replace the old ones.
-/

namespace K3rs

open Programs Transition

/-! ## Old ReplicaSets -/

/-- The ReplicaSets that are not for the current template have no replicas. -/
def OlderEmpty (order : String → PodSpec → PodSpec) (ns k : String) (deploy : Deployment)
    (s : Registry) : Prop :=
  ∀ e ∈ ownedIn deploy.id ns s, e.2.templateHash ≠ hashOf order k deploy → e.2.spec.replicas = 0

instance (order : String → PodSpec → PodSpec) (ns k : String) (deploy : Deployment) (s : Registry) :
    Decidable (OlderEmpty order ns k deploy s) := by
  unfold OlderEmpty
  infer_instance

/-- The deployment controller has emptied the old ReplicaSets, or it will. -/
def EmptiesOlder (order : String → PodSpec → PodSpec) (ns k : String) (deploy : Deployment)
    (s : Registry) : Prop :=
  ¬HasCurrent order ns k deploy s ∨ OlderEmpty order ns k deploy s

section Passes

variable {order : String → PodSpec → PodSpec} {ns k : String} {deploy : Deployment} {s s' : Registry}

theorem concerns_emptiesOlder (p : Prop) :
    Concerns deploy.id k fun s => EmptiesOlder order ns k deploy s ↔ p := by
  intro s s' howned _ h
  rw [EmptiesOlder, HasCurrent, OlderEmpty, howned.ownedIn_eq]
  exact h

/-- A pass that creates the current ReplicaSet empties the others. -/
theorem Stepped.olderEmpty_of_created {env : PassEnv} (h : Stepped env ns k deploy s s')
    (hstrategy : deploy.spec.strategy = .recreate) (hnone : ¬HasCurrent env.order ns k deploy s) :
    OlderEmpty env.order ns k deploy s' := by
  intro e he hold
  have hnone : ∀ e ∈ ownedIn deploy.id ns s, e.2.templateHash ≠ hashOf env.order k deploy :=
    fun e he hhash => hnone ⟨e, he, hhash⟩
  rcases (h.advanced.created hnone e).mp he with rfl | ⟨e₀, he₀, rfl⟩
  · exact absurd rfl hold
  · rw [ReplicaSet.replicas_scaleTo, hstrategy]
    rfl

/-- A pass that finds the current ReplicaSet leaves the others as they are. -/
theorem Stepped.olderEmpty_iff {env : PassEnv} (h : Stepped env ns k deploy s s')
    (hstrategy : deploy.spec.strategy = .recreate) (hcurrent : HasCurrent env.order ns k deploy s) :
    OlderEmpty env.order ns k deploy s' ↔ OlderEmpty env.order ns k deploy s := by
  have hadjusted := h.advanced.adjusted hcurrent
  constructor
  · intro hempty e he hold
    have hmem := List.mem_map_of_mem (f := fun e : String × ReplicaSet => (e.1, e.2.scaleTo
      (if e.2.templateHash = hashOf env.order k deploy then deploy.spec.replicas
        else deploy.spec.strategy.keep e.2.spec.replicas))) he
    rw [← hadjusted] at hmem
    have hzero := hempty _ hmem (by rw [ReplicaSet.templateHash_scaleTo]; exact hold)
    rw [ReplicaSet.replicas_scaleTo, if_neg hold, hstrategy] at hzero
    exact hzero
  · intro hempty e he hold
    rw [hadjusted] at he
    obtain ⟨e₀, he₀, rfl⟩ := List.mem_map.mp he
    rw [ReplicaSet.templateHash_scaleTo] at hold
    rw [ReplicaSet.replicas_scaleTo, if_neg hold, hstrategy]
    exact hempty e₀ he₀ hold

/-- **A pass changes nothing about it.** -/
theorem Stepped.emptiesOlder_iff {env : PassEnv} (h : Stepped env ns k deploy s s')
    (hstrategy : deploy.spec.strategy = .recreate) :
    EmptiesOlder env.order ns k deploy s' ↔ EmptiesOlder env.order ns k deploy s := by
  by_cases hcurrent : HasCurrent env.order ns k deploy s
  · rw [EmptiesOlder, EmptiesOlder, h.olderEmpty_iff hstrategy hcurrent]
    exact or_congr_left (iff_of_false (not_not.mpr h.hasCurrent) (not_not.mpr hcurrent))
  · exact iff_of_true (Or.inr (h.olderEmpty_of_created hstrategy hcurrent)) (Or.inl hcurrent)

/-- From the first pass on the current ReplicaSet is there, and the others are empty exactly if it
was so in the beginning or if the first pass has created the current one. -/
theorem olderEmpty_afterPasses (hstrategy : deploy.spec.strategy = .recreate)
    {envs : ℕ → PassEnv} (horder : ∀ n, (envs n).order = order) (h : Rolls order ns k deploy s) (n : ℕ) :
    OlderEmpty order ns k deploy (afterPasses envs (n + 1) s) ↔ EmptiesOlder order ns k deploy s := by
  have hkept : ∀ n, EmptiesOlder order ns k deploy (afterPasses envs n s) ↔
      EmptiesOlder order ns k deploy s := by
    intro n
    induction n with
    | zero => exact Iff.rfl
    | succ n ih =>
        have hrolls := h.afterPasses horder n
        rw [← horder n] at hrolls ih ⊢
        exact (hrolls.pass (G := fun _ => True) (concerns_emptiesOlder _) (fun _ _ _ _ _ => trivial)
          (fun _ _ _ hs hstepped => ⟨(hstepped.emptiesOlder_iff hstrategy).trans hs, trivial⟩) ih).2.1
  have hcurrent : HasCurrent order ns k deploy (afterPasses envs (n + 1) s) := by
    have hrolls := h.afterPasses horder n
    rw [← horder n] at hrolls ⊢
    exact (hrolls.pass (P := fun _ => True) (fun _ _ _ _ _ => trivial) concerns_hasCurrent
      (fun _ _ _ _ hstepped => ⟨trivial, hstepped.hasCurrent⟩) trivial).2.2
  rw [← hkept (n + 1), EmptiesOlder, or_iff_right (not_not.mpr hcurrent)]

end Passes

/-! ## New pods -/

/-- A pod of the current template is created only when the older ReplicaSets of the list have no
pods. -/
def CreatesAfterOlder (ns hash : String) (sets : List (String × ReplicaSet)) (s : Registry)
    (o : Op String Object) : Prop :=
  match o with
  | .put _ (.pod p) => ∀ e ∈ sets, e.2.templateHash = hash → p.ownerRef = some e.2.id →
      ∀ e' ∈ sets, e'.2.templateHash ≠ hash → podsIn e'.2.id ns s = []
  | _ => True

instance (ns hash : String) (sets : List (String × ReplicaSet)) (s : Registry) (o : Op String Object) :
    Decidable (CreatesAfterOlder ns hash sets s o) :=
  match o with
  | .put _ (.pod p) => inferInstanceAs (Decidable (∀ e ∈ sets, e.2.templateHash = hash →
      p.ownerRef = some e.2.id → ∀ e' ∈ sets, e'.2.templateHash ≠ hash → podsIn e'.2.id ns s = []))
  | .put _ (.deployment _) | .put _ (.replicaSet _) | .put _ (.hpa _) | .put _ (.node _)
  | .put _ (.job _) | .put _ (.daemonSet _) | .put _ (.vpc _) | .put _ (.other _)
  | .get _ | .list _ | .delete _ => inferInstanceAs (Decidable True)

/-- If a ReplicaSet of the current template lacks pods, the older ones that are before it in the
order of the keys are to be emptied, and those behind it have no pods. -/
def OlderFirst (ns hash : String) (sets : List (String × ReplicaSet)) (s : Registry) : Prop :=
  ∀ e ∈ sets, e.2.templateHash = hash → counted (podsIn e.2.id ns s) < e.2.spec.replicas.toNat →
    ∀ e' ∈ sets, e'.2.templateHash ≠ hash →
      if e'.1 < e.1 then e'.2.spec.replicas = 0 ∧ (podsIn e'.2.id ns s).length < 2 ^ 32
      else podsIn e'.2.id ns s = []

instance (ns hash : String) (sets : List (String × ReplicaSet)) (s : Registry) :
    Decidable (OlderFirst ns hash sets s) := by
  unfold OlderFirst
  infer_instance

section Pods

variable {env : PassEnv} {ns hash : String} {sets : List (String × ReplicaSet)} {s₀ : Registry}

theorem SparesPods.createsAfterOlder {s : Registry} {o : Op String Object} (h : SparesPods o) :
    CreatesAfterOlder ns hash sets s o := by
  cases o with
  | put key v =>
      cases v with
      | pod p => exact h.elim
      | _ => trivial
  | _ => trivial

/-- A ReplicaSet without replicas loses its pods. -/
theorem Rescaled.eq_nil {k : String} {rs : ReplicaSet} {nodes : List Node}
    {pods pods' : List (String × Pod)} (h : Rescaled env ns k rs nodes pods pods')
    (hzero : rs.spec.replicas = 0) (hlt : pods.length < 2 ^ 32) : pods' = [] := by
  obtain ⟨new, hperm, hlength, -⟩ := h
  rw [hzero, UInt32.toNat_zero, Nat.zero_sub, List.length_eq_zero_iff] at hlength
  have hkept : keptPods rs pods = [] := by
    rw [keptPods, List.drop_eq_nil_iff, counted, Nat.mod_eq_of_lt hlt, hzero]
    exact (List.length_mergeSort _).le
  rw [hlength, hkept] at hperm
  exact List.perm_nil.mp hperm

/-- **What a pass guarantees** if older ReplicaSets come first. -/
theorem guarantees_createsAfterOlder (htracked : Tracked ns sets s₀)
    (hfirst : OlderFirst ns hash sets s₀) :
    Guarantees env ns sets s₀ (CreatesAfterOlder ns hash sets) where
  spares s o h := h.createsAfterOlder
  foreignPut s key p hforeign e he _ howner := absurd howner (hforeign e he)
  foreignDelete _ _ _ := trivial
  delete _ _ _ _ _ _ _ := trivial
  put e he s s₁ key p hprogress hcreates e₁ he₁ hhash howner e' he' hold := by
    obtain ⟨hstored, hpods⟩ := hprogress.waiting e he (lt_irrefl _)
    -- The pod is of this ReplicaSet and of no other.
    have hkey : e.1 = e₁.1 := hprogress.key_eq htracked hstored he₁
      (Option.some_inj.mp (hcreates.isNew.ownerRef.symm.trans howner))
    obtain rfl := htracked.eq_of_key he he₁ hkey
    have hlacks : counted (podsIn e.2.id ns s₀) < e.2.spec.replicas.toNat := by
      obtain ⟨new, -, -, hlength⟩ := hcreates.few
      rw [hpods.podsIn_eq] at hlength
      omega
    have hne : e'.2.id ≠ e.2.id := by
      intro hid
      have hkey' := hprogress.key_eq htracked hstored he' hid.symm
      exact hold (htracked.eq_of_key he he' hkey' ▸ hhash)
    rw [(hcreates.handles.samePods hstored hne).podsIn_eq]
    have hcase := hfirst e he hhash hlacks e' he' hold
    split_ifs at hcase with hlt
    · exact (hprogress.finished e' he' hlt).eq_nil hcase.1 hcase.2
    · rw [(hprogress.waiting e' he' hlt).2.podsIn_eq]
      exact hcase

end Pods

/-! ## Runs -/

/-- A pass of the ReplicaSet controller finds the ReplicaSets of the owner in order: it comes upon
each of them once, the names of new pods are fresh, and older ReplicaSets come first. -/
def RecreatesInOrder (id ns hash : String) (s : Registry) : ControllerStep → Prop
  | .replicaSets env => Tracked ns (ownedIn id ns s) s ∧ FreshPass env s ∧
      OlderFirst ns hash (ownedIn id ns s) s
  | _ => True

instance (id ns hash : String) (s : Registry) (step : ControllerStep) :
    Decidable (RecreatesInOrder id ns hash s step) :=
  match step with
  | .replicaSets _ => inferInstanceAs (Decidable (_ ∧ _ ∧ _))
  | .deployments _ | .running _ => inferInstanceAs (Decidable True)

/-- The pods that the step creates for the current template replace those of the older ones. -/
def ReplacesPods (id ns hash : String) (s : Registry) (step : ControllerStep) : Prop :=
  step.Each (CreatesAfterOlder ns hash (ownedIn id ns s)) s

instance (id ns hash : String) (s : Registry) (step : ControllerStep) :
    Decidable (ReplacesPods id ns hash s step) :=
  inferInstanceAs (Decidable (step.Each _ s))

/-- **One step.** -/
theorem replacesPods_of_inOrder {id ns hash : String} {s : Registry} {step : ControllerStep}
    (h : RecreatesInOrder id ns hash s step) : ReplacesPods id ns hash s step := by
  cases step with
  | deployments env =>
      show (reconcileDeployments env).Each (CreatesAfterOlder ns hash (ownedIn id ns s)) s
      exact (spares_reconcileDeployments env s).weaken fun _ _ => SparesPods.createsAfterOlder
  | replicaSets env =>
      obtain ⟨htracked, hfresh, hfirst⟩ := h
      exact ((runs_reconcileReplicaSets htracked
        (guarantees_createsAfterOlder htracked hfirst)).discharge hfresh).mono fun _ _ _ => trivial
  | running key => trivial

/-- **Recreating a deployment.**  For a deployment that is rolled out by itself, the old ReplicaSets
are empty after two or more passes of the deployment controller exactly if they were empty before
or the current one was missing.  In every run of both controllers in which passes find the
ReplicaSets in order, pods of the current template are created only when there is no pod of an older
ReplicaSet. -/
theorem recreate_holds (order : String → PodSpec → PodSpec) (ns k : String) (deploy : Deployment)
    (hstrategy : deploy.spec.strategy = .recreate) :
    (∀ s, Rolls order ns k deploy s → ∀ envs : ℕ → PassEnv, (∀ n, (envs n).order = order) →
      ((∀ n, 2 ≤ n → OlderEmpty order ns k deploy (afterPasses envs n s)) ↔
        ¬HasCurrent order ns k deploy s ∨ OlderEmpty order ns k deploy s)) ∧
    ∀ s steps,
      Admitted ControllerStep.next (RecreatesInOrder deploy.id ns (hashOf order k deploy)) s steps →
      Admitted ControllerStep.next (ReplacesPods deploy.id ns (hashOf order k deploy)) s steps := by
  constructor
  · intro s hrolls envs horder
    constructor
    · intro hempty
      exact (olderEmpty_afterPasses hstrategy horder hrolls 1).mp (hempty 2 le_rfl)
    · intro hstart n hn
      obtain ⟨m, rfl⟩ : ∃ m, n = m + 1 := ⟨n - 1, by omega⟩
      exact (olderEmpty_afterPasses hstrategy horder hrolls m).mpr hstart
  · intro s steps
    exact Admitted.mono (fun _ => True) (fun _ _ _ _ => trivial)
      (fun _ _ _ => replacesPods_of_inOrder) trivial

/-! ## Rollouts and rollbacks -/

/-- The deployment `web` with an older ReplicaSet under the key and its pod. -/
def rolloutStore (key : String) : Registry :=
  KeyValue.insert (clusterStore ["default"] [("/registry/deployments/default/web", webDeployment)]
    [(key, olderReplicaSet)]) (podKey "default" "web-p0") (.pod (newPod "p0" 0 "default" olderReplicaSet))

/-- The deployment was rolled back: the ReplicaSet of its template is still there, without
replicas. -/
def rollbackStore : Registry :=
  clusterStore ["default"] [("/registry/deployments/default/web", webDeployment)]
    [("/registry/replicasets/default/web-0", olderReplicaSet),
     (currentKey quietEnv.order "default" "/registry/deployments/default/web" webDeployment,
      newReplicaSet "rs1" 0 "default" webDeployment
        (hashOf quietEnv.order "/registry/deployments/default/web" webDeployment) 0)]

/-- An older ReplicaSet that comes first. -/
theorem recreate_holds_olderFirst :
    (∀ n, 2 ≤ n → OlderEmpty quietEnv.order "default" "/registry/deployments/default/web" webDeployment
      (afterPasses (fun _ => quietEnv) n (rolloutStore "/registry/replicasets/default/web-0"))) ∧
    Admitted ControllerStep.next (ReplacesPods "d1" "default"
        (hashOf quietEnv.order "/registry/deployments/default/web" webDeployment))
      (rolloutStore "/registry/replicasets/default/web-0") oneRollout := by
  obtain ⟨hpasses, hruns⟩ := recreate_holds quietEnv.order "default"
    "/registry/deployments/default/web" webDeployment rfl
  refine ⟨(hpasses _ (by decide +kernel) (fun _ => quietEnv) fun _ => rfl).mpr (Or.inl ?_),
    hruns _ oneRollout (by decide +kernel)⟩
  unfold HasCurrent
  decide +kernel

/-- After a rollback the older ReplicaSet keeps its replica, and an older ReplicaSet that comes
later still has its pod when the new one is created. -/
theorem recreate_fails :
    (Rolls quietEnv.order "default" "/registry/deployments/default/web" webDeployment rollbackStore ∧
      ¬OlderEmpty quietEnv.order "default" "/registry/deployments/default/web" webDeployment
        (afterPasses (fun _ => quietEnv) 2 rollbackStore)) ∧
    Rolls quietEnv.order "default" "/registry/deployments/default/web" webDeployment
        (rolloutStore "/registry/replicasets/default/web-z") ∧
      ¬Admitted ControllerStep.next (ReplacesPods "d1" "default"
          (hashOf quietEnv.order "/registry/deployments/default/web" webDeployment))
        (rolloutStore "/registry/replicasets/default/web-z") oneRollout :=
  ⟨by decide +kernel, by decide +kernel⟩

end K3rs
