import K3rs.Cluster.Convergence
import K3rs.Lib.Binary64

/-!
# Canaries

A canary deployment creates the ReplicaSet of a new template with a share of the replicas.  The
next pass finds that ReplicaSet and gives it all of them, like every other strategy does.

* `canary_holds_iff`: the ReplicaSet of the new template keeps the size of a canary over all passes
  exactly when that size is the number of all replicas.
-/

namespace K3rs

open Programs

/-! ## Sizes of canaries -/

/-- The size that is meant: the share of the replicas, rounded up, and at least one. -/
def canarySize (replicas weight : UInt32) : ℕ :=
  max 1 ((replicas.toNat * weight.toNat + 99) / 100)

open Binary64 in
/-- The size as the source computes it, in `f64`. -/
def canaryReplicas (replicas weight : UInt32) : UInt32 :=
  toUInt32 (max (ceil (mul (ofNat replicas.toNat) (div (ofNat weight.toNat) (ofNat 100)))) one)

/-- Seven per cent of a hundred replicas are eight. -/
example : canaryReplicas 100 7 = 8 ∧ canarySize 100 7 = 7 := by decide +kernel

/-- The share is so large, or the replicas are so few, that the canary takes all of them. -/
def CanaryTakesAll (replicas weight : UInt32) : Prop :=
  replicas = 1 ∨ 0 < replicas.toNat ∧ replicas.toNat * (100 - weight.toNat) < 100

instance (replicas weight : UInt32) : Decidable (CanaryTakesAll replicas weight) :=
  inferInstanceAs (Decidable (_ ∨ _))

/-- **When a canary takes all replicas.** -/
theorem canarySize_eq_iff {replicas weight : UInt32} (hweight : weight < 100) :
    canarySize replicas weight = replicas.toNat ↔ CanaryTakesAll replicas weight := by
  have hlt : weight.toNat < 100 := UInt32.lt_iff_toNat_lt.mp hweight
  have hone : replicas = 1 ↔ replicas.toNat = 1 := by
    rw [← UInt32.toNat_inj]
    rfl
  rw [CanaryTakesAll, hone, canarySize]
  generalize weight.toNat = w at hlt ⊢
  generalize replicas.toNat = r
  have hle : r * w ≤ r * 99 := Nat.mul_le_mul_left r (by omega)
  rw [Nat.mul_sub]
  rcases Nat.lt_or_ge r 2 with hfew | hmany
  · interval_cases r <;> omega
  · omega

section Rounding

open Binary64

variable {r w : ℕ}

theorem le_units : 2 ^ 61 ≤ one := by
  have hle : ∀ n, 61 ≤ n → 2 ^ 61 ≤ 2 ^ n := fun n hn => Nat.pow_le_pow_right (by decide) hn
  unfold one
  exact hle 1074 (by decide)

/-- The weight as a share, up to one part in `2 ^ 53`. -/
theorem div_bounds (hw : 0 < w) :
    div (ofNat w) (ofNat 100) * 100 * 2 ^ 53 ≤ w * one * (2 ^ 53 + 1) ∧
      w * one * 2 ^ 53 ≤ div (ofNat w) (ofNat 100) * 100 * 2 ^ 53 + w * one := by
  have hone := units_pos
  have hd : 0 < ofNat 100 := Nat.mul_pos (by decide) hone
  have hn : 2 ^ 52 * ofNat 100 ≤ ofNat w * one := by
    calc 2 ^ 52 * ofNat 100 = 2 ^ 52 * 100 * one := by rw [ofNat, Nat.mul_assoc]
      _ ≤ one * one := Nat.mul_le_mul_right one (le_trans (by norm_num) le_units)
      _ ≤ ofNat w * one := Nat.mul_le_mul_right one (Nat.le_mul_of_pos_left one hw)
  refine ⟨Nat.le_of_mul_le_mul_right ?_ hone, Nat.le_of_mul_le_mul_right ?_ hone⟩
  · calc div (ofNat w) (ofNat 100) * 100 * 2 ^ 53 * one
        = nearest (ofNat w * one) (ofNat 100) * ofNat 100 * 2 ^ 53 := by simp only [div, ofNat]; ring
      _ ≤ ofNat w * one * (2 ^ 53 + 1) := nearest_mul_le hn hd
      _ = w * one * (2 ^ 53 + 1) * one := by rw [ofNat]; ring
  · calc w * one * 2 ^ 53 * one = ofNat w * one * 2 ^ 53 := by rw [ofNat]; ring
      _ ≤ nearest (ofNat w * one) (ofNat 100) * ofNat 100 * 2 ^ 53 + ofNat w * one :=
          le_nearest_mul hn hd
      _ = (div (ofNat w) (ofNat 100) * 100 * 2 ^ 53 + w * one) * one := by simp only [div, ofNat]; ring

/-- The share is not among the smallest numbers. -/
theorem le_div (hw : 0 < w) : 2 ^ 52 ≤ div (ofNat w) (ofNat 100) := by
  have hlower := (div_bounds hw).2
  have hbig : one ≤ w * one := Nat.le_mul_of_pos_left one hw
  have hone := le_units
  omega

/-- The share of the replicas, up to another part in `2 ^ 53`. -/
theorem mul_bounds (hr : 0 < r) {x : ℕ} (hx : 2 ^ 52 ≤ x) :
    mul (ofNat r) x * 2 ^ 53 ≤ r * x * (2 ^ 53 + 1) ∧
      r * x * 2 ^ 53 ≤ mul (ofNat r) x * 2 ^ 53 + r * x := by
  have hone := units_pos
  have hn : 2 ^ 52 * one ≤ ofNat r * x := by
    calc 2 ^ 52 * one ≤ x * one := Nat.mul_le_mul_right one hx
      _ ≤ r * (x * one) := Nat.le_mul_of_pos_left _ hr
      _ = ofNat r * x := by rw [ofNat]; ring
  refine ⟨Nat.le_of_mul_le_mul_right ?_ hone, Nat.le_of_mul_le_mul_right ?_ hone⟩
  · calc mul (ofNat r) x * 2 ^ 53 * one = nearest (ofNat r * x) one * one * 2 ^ 53 := by
          rw [mul]; ring
      _ ≤ ofNat r * x * (2 ^ 53 + 1) := nearest_mul_le hn hone
      _ = r * x * (2 ^ 53 + 1) * one := by rw [ofNat]; ring
  · calc r * x * 2 ^ 53 * one = ofNat r * x * 2 ^ 53 := by rw [ofNat]; ring
      _ ≤ nearest (ofNat r * x) one * one * 2 ^ 53 + ofNat r * x := le_nearest_mul hn hone
      _ = (mul (ofNat r) x * 2 ^ 53 + r * x) * one := by rw [mul, ofNat]; ring

/-- The product is at most the number of replicas. -/
theorem product_le (hlt : w < 100) :
    mul (ofNat r) (div (ofNat w) (ofNat 100)) ≤ r * one := by
  rcases Nat.eq_zero_or_pos w with rfl | hw
  · simp [ofNat, div, mul, nearest_zero]
  rcases Nat.eq_zero_or_pos r with rfl | hr
  · simp [ofNat, mul, nearest_zero]
  obtain ⟨hdiv, -⟩ := div_bounds hw
  obtain ⟨hmul, -⟩ := mul_bounds hr (le_div hw)
  have hw' : w * one ≤ 99 * one := Nat.mul_le_mul_right one (by omega)
  generalize div (ofNat w) (ofNat 100) = x at hdiv hmul ⊢
  have hx : x * 2 ^ 53 * (2 ^ 53 + 1) ≤ one * 2 ^ 106 := by
    have hstep : x * 100 * 2 ^ 53 * (2 ^ 53 + 1) ≤ 99 * one * (2 ^ 53 + 1) * (2 ^ 53 + 1) :=
      Nat.mul_le_mul_right _ (hdiv.trans (Nat.mul_le_mul_right _ hw'))
    have hone := units_pos
    nlinarith
  have hrx : r * (x * 2 ^ 53 * (2 ^ 53 + 1)) ≤ r * (one * 2 ^ 106) := Nat.mul_le_mul_left r hx
  nlinarith

/-- The product is more than one replica less. -/
theorem lt_product (hlt : w < 100) (hr : 0 < r) (hall : r * (100 - w) < 100) :
    (r - 1) * one < mul (ofNat r) (div (ofNat w) (ofNat 100)) := by
  have hr' : r < 100 := by
    have hle : r * 1 ≤ r * (100 - w) := Nat.mul_le_mul_left r (by omega)
    omega
  have hw : 0 < w := by
    refine Nat.pos_of_ne_zero fun hzero => ?_
    rw [hzero, Nat.sub_zero] at hall
    omega
  have hshare : 100 * (r - 1) + 1 ≤ r * w := by
    rw [Nat.mul_sub] at hall
    omega
  obtain ⟨-, hdiv⟩ := div_bounds hw
  obtain ⟨-, hmul⟩ := mul_bounds hr (le_div hw)
  generalize div (ofNat w) (ofNat 100) = x at hdiv hmul ⊢
  generalize mul (ofNat r) x = p at hmul ⊢
  by_contra hle
  rw [Nat.not_lt] at hle
  -- The errors are too small for so large a difference.
  have hx : w * one * 9007199254740991 ≤ x * 100 * 2 ^ 53 := by linarith
  have hp : r * x * 9007199254740991 ≤ (r - 1) * one * 2 ^ 53 := by linarith
  have hprod : r * w * 9007199254740991 ^ 2 ≤ 100 * (r - 1) * 2 ^ 106 := by
    refine Nat.le_of_mul_le_mul_right ?_ units_pos
    calc r * w * 9007199254740991 ^ 2 * one
        = r * 9007199254740991 * (w * one * 9007199254740991) := by ring
      _ ≤ r * 9007199254740991 * (x * 100 * 2 ^ 53) := Nat.mul_le_mul_left _ hx
      _ = r * x * 9007199254740991 * (100 * 2 ^ 53) := by ring
      _ ≤ (r - 1) * one * 2 ^ 53 * (100 * 2 ^ 53) := Nat.mul_le_mul_right _ hp
      _ = 100 * (r - 1) * 2 ^ 106 * one := by ring
  have hmany := (Nat.mul_le_mul_right (9007199254740991 ^ 2) hshare).trans hprod
  norm_num at hmany
  omega

end Rounding

/-- **A canary that takes all replicas**, in `f64` as well. -/
theorem canaryReplicas_eq {replicas weight : UInt32} (hweight : weight < 100)
    (hall : CanaryTakesAll replicas weight) : canaryReplicas replicas weight = replicas := by
  have hlt : weight.toNat < 100 := UInt32.lt_iff_toNat_lt.mp hweight
  have hle := product_le (r := replicas.toNat) hlt
  have hpos := Binary64.units_pos
  have hrange := replicas.toNat_lt
  -- The rounded product lies between one and all replicas, or is one.
  have hmax : max (Binary64.ceil (Binary64.mul (Binary64.ofNat replicas.toNat)
      (Binary64.div (Binary64.ofNat weight.toNat) (Binary64.ofNat 100)))) Binary64.one =
        replicas.toNat * Binary64.one := by
    rcases hall with rfl | ⟨hr, hall⟩
    · rw [show UInt32.toNat 1 = 1 from rfl, one_mul] at hle ⊢
      have hceil := Binary64.ceil_le ((one_mul Binary64.one).symm ▸ hle)
      rw [one_mul] at hceil
      exact max_eq_right hceil
    · rw [Binary64.ceil_eq (lt_product hlt hr hall) hle]
      exact max_eq_left (Nat.le_mul_of_pos_left _ hr)
  rw [canaryReplicas, hmax, Binary64.toUInt32, Nat.mul_div_cancel _ hpos, min_eq_left (by omega)]
  exact UInt32.ofNat_toNat

/-! ## Passes -/

/-- The store after some passes of the deployment controller. -/
def afterPasses (envs : ℕ → PassEnv) : ℕ → Registry → Registry
  | 0, s => s
  | n + 1, s => afterDeployments (envs n) (afterPasses envs n s)

/-- The ReplicaSet of the current template is there and has so many replicas. -/
def CurrentHas (order : String → PodSpec → PodSpec) (ns k : String) (deploy : Deployment) (size : ℕ)
    (s : Registry) : Prop :=
  HasCurrent order ns k deploy s ∧ ∀ e ∈ ownedIn deploy.id ns s,
    e.2.templateHash = hashOf order k deploy → e.2.spec.replicas.toNat = size

instance (order : String → PodSpec → PodSpec) (ns k : String) (deploy : Deployment) (size : ℕ)
    (s : Registry) : Decidable (CurrentHas order ns k deploy size s) := by
  unfold CurrentHas HasCurrent
  infer_instance

section Passes

variable {order : String → PodSpec → PodSpec} {ns k : String} {deploy : Deployment} {s s' : Registry}

theorem concerns_currentHas (size : ℕ) : Concerns deploy.id k (CurrentHas order ns k deploy size) := by
  intro s s' howned hsame h
  refine ⟨concerns_hasCurrent s s' howned hsame h.1, ?_⟩
  rw [howned.ownedIn_eq]
  exact h.2

/-- The deployment stays as it is. -/
theorem Rolls.afterPasses {envs : ℕ → PassEnv} (horder : ∀ n, (envs n).order = order)
    (h : Rolls order ns k deploy s) (n : ℕ) : Rolls order ns k deploy (afterPasses envs n s) := by
  induction n with
  | zero => exact h
  | succ n ih =>
      rw [← horder n] at ih ⊢
      exact (ih.pass (P := fun _ => True) (G := fun _ => True) (fun _ _ _ _ _ => trivial)
        (fun _ _ _ _ _ => trivial) (fun _ _ _ _ _ => ⟨trivial, trivial⟩) trivial).1

/-- A ReplicaSet for the current template that is there gets all replicas. -/
theorem Stepped.currentHas_of_hasCurrent {env : PassEnv} (h : Stepped env ns k deploy s s')
    (hcurrent : HasCurrent env.order ns k deploy s) :
    CurrentHas env.order ns k deploy deploy.spec.replicas.toNat s' := by
  refine ⟨h.hasCurrent, fun e he hhash => ?_⟩
  rw [h.advanced.adjusted hcurrent] at he
  obtain ⟨e₀, he₀, rfl⟩ := List.mem_map.mp he
  rw [ReplicaSet.templateHash_scaleTo] at hhash
  rw [ReplicaSet.replicas_scaleTo, if_pos hhash]

/-- If the first replicas are all of them, the ReplicaSet has them in any case. -/
theorem Stepped.currentHas {env : PassEnv} (h : Stepped env ns k deploy s s')
    (hfirst : env.firstReplicas deploy.spec.replicas deploy.spec.strategy = deploy.spec.replicas) :
    CurrentHas env.order ns k deploy deploy.spec.replicas.toNat s' := by
  by_cases hcurrent : HasCurrent env.order ns k deploy s
  · exact h.currentHas_of_hasCurrent hcurrent
  · have hnone : ∀ e ∈ ownedIn deploy.id ns s, e.2.templateHash ≠ hashOf env.order k deploy :=
      fun e he hhash => hcurrent ⟨e, he, hhash⟩
    refine ⟨h.hasCurrent, fun e he hhash => ?_⟩
    rcases (h.advanced.created hnone e).mp he with rfl | ⟨e₀, he₀, rfl⟩
    · exact congrArg UInt32.toNat hfirst
    · exact absurd hhash (hnone e₀ he₀)

end Passes

/-- **A canary is kept** over any number of passes exactly if it takes all replicas: the first pass
creates it, and the second one gives it the replicas of the deployment. -/
theorem canary_holds_iff (order : String → PodSpec → PodSpec) (ns k : String) (deploy : Deployment)
    (weight : UInt32) (hstrategy : deploy.spec.strategy = .canary weight) (hweight : weight < 100)
    (s : Registry) (h : Rolls order ns k deploy s) (envs : ℕ → PassEnv)
    (horder : ∀ n, (envs n).order = order) (hcanary : ∀ n, (envs n).canaryReplicas = canaryReplicas) :
    (∀ n, CurrentHas order ns k deploy (canarySize deploy.spec.replicas weight)
        (afterPasses envs (n + 1) s)) ↔
      CanaryTakesAll deploy.spec.replicas weight := by
  constructor
  · intro hkept
    -- After the first pass the ReplicaSet is there, and the second one promotes it.
    have hrolls := h.afterPasses horder 1
    have hfirst := (hkept 0).1
    have hsecond := hkept 1
    rw [← horder 1] at hrolls hfirst
    obtain ⟨-, -, hfull⟩ := hrolls.pass concerns_hasCurrent
      (concerns_currentHas deploy.spec.replicas.toNat)
      (fun _ _ _ hs hstepped => ⟨hstepped.hasCurrent, hstepped.currentHas_of_hasCurrent hs⟩) hfirst
    rw [horder 1] at hfull
    obtain ⟨e, he, hhash⟩ := hsecond.1
    rw [← canarySize_eq_iff hweight, ← hsecond.2 e he hhash]
    exact hfull.2 e he hhash
  · intro hall n
    have hrolls := h.afterPasses horder n
    rw [(canarySize_eq_iff hweight).mpr hall]
    rw [← horder n] at hrolls ⊢
    refine (hrolls.pass (P := fun _ => True) (fun _ _ _ _ _ => trivial)
      (concerns_currentHas deploy.spec.replicas.toNat) (fun _ _ _ _ hstepped => ⟨trivial, ?_⟩)
      trivial).2.2
    refine hstepped.currentHas ?_
    rw [hstrategy, PassEnv.firstReplicas, hcanary n]
    exact canaryReplicas_eq hweight hall

/-! ## A canary that is promoted -/

/-- Every pass computes canaries as the source does. -/
def canaryEnv : PassEnv := { quietEnv with canaryReplicas := canaryReplicas }

/-- A canary deployment of ten per cent. -/
def canaryDeployment (replicas : UInt32) : Deployment :=
  { webDeployment with spec := ⟨replicas, emptyTemplate, .canary 10, []⟩ }

/-- The deployment and an old ReplicaSet. -/
def canaryStore (replicas : UInt32) : Registry :=
  clusterStore ["default"] [("/registry/deployments/default/web", canaryDeployment replicas)]
    [("/registry/replicasets/default/web-old", ownedReplicaSet "d1" "old")]

/-- The only replica is the canary. -/
theorem canary_holds_iff_one :
    (∀ n, CurrentHas quietEnv.order "default" "/registry/deployments/default/web" (canaryDeployment 1)
        (canarySize 1 10) (afterPasses (fun _ => canaryEnv) (n + 1) (canaryStore 1))) ↔
      CanaryTakesAll 1 10 :=
  canary_holds_iff quietEnv.order "default" "/registry/deployments/default/web" (canaryDeployment 1) 10
    rfl (by decide) (canaryStore 1) (by decide +kernel) (fun _ => canaryEnv) (fun _ => rfl)
    fun _ => rfl

/-- Ten per cent of three replicas are one after the first pass, and all three after the second. -/
theorem canary_promoted :
    Rolls quietEnv.order "default" "/registry/deployments/default/web" (canaryDeployment 3)
        (canaryStore 3) ∧
      CurrentHas quietEnv.order "default" "/registry/deployments/default/web" (canaryDeployment 3) 1
        (afterPasses (fun _ => canaryEnv) 1 (canaryStore 3)) ∧
      CurrentHas quietEnv.order "default" "/registry/deployments/default/web" (canaryDeployment 3) 3
        (afterPasses (fun _ => canaryEnv) 2 (canaryStore 3)) ∧
      ¬CurrentHas quietEnv.order "default" "/registry/deployments/default/web" (canaryDeployment 3)
        (canarySize 3 10) (afterPasses (fun _ => canaryEnv) 2 (canaryStore 3)) :=
  by decide +kernel

end K3rs
