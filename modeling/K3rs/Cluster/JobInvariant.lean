import K3rs.Cluster.Jobs
import K3rs.Lib.RelyGuarantee
import K3rs.Lib.Totals

/-!
# The invariant of a job

While the job controller works, the pods of a job move on: an active pod gets another active
status, succeeds or fails (`Moves`).  `JobInv` is what holds of a job between any two operations of
the controller: the number of its active pods is bounded by its parallelism, and that of the active
and succeeded ones by its completions.  It is kept when pods move on, when a pod is created for
which there is room, and when jobs are put back.

A job must lie in one namespace only: the directory of a namespace `a` holds that of a namespace
`a/b`, and then only part of the pods of a job is counted in each of them (`handlers`).
-/

namespace K3rs

open Programs Transition

/-! ## Pods that move on -/

/-- A pod that is active gets another status, but not `Unknown`. -/
def movePod (m : String × PodStatus) (store : Registry) : Registry :=
  match (store.lookup m.1).bind Object.asPod with
  | some p =>
      if p.status.isActive ∧ m.2 ≠ .unknown then store.insert m.1 (.pod { p with status := m.2 })
      else store
  | none => store

/-- Some pods have moved on. -/
def Moves (s s' : Registry) : Prop :=
  ∀ k, s'.lookup k = s.lookup k ∨ ∃ p status, s.lookup k = some (.pod p) ∧
    p.status.isActive = true ∧ status ≠ .unknown ∧
    s'.lookup k = some (.pod { p with status := status })

theorem moves_movePod (m : String × PodStatus) (store : Registry) : Moves store (movePod m store) := by
  intro k
  cases hpod : (store.lookup m.1).bind Object.asPod with
  | none =>
      rw [movePod, hpod]
      exact Or.inl rfl
  | some p =>
      obtain ⟨v, hv, hvp⟩ := Option.bind_eq_some_iff.mp hpod
      rw [Object.asPod_eq_some.mp hvp] at hv
      simp only [movePod, hpod]
      split_ifs with hmove
      · by_cases hk : k = m.1
        · subst hk
          exact Or.inr ⟨p, m.2, hv, hmove.1, hmove.2, KeyValue.lookup_insert_self _ _ _⟩
        · exact Or.inl (KeyValue.lookup_insert_of_ne hk)
      · exact Or.inl rfl

theorem Moves.trans {s s' s'' : Registry} (h : Moves s s') (h' : Moves s' s'') : Moves s s'' := by
  intro k
  rcases h k with hkeep | ⟨p, status, hp, hactive, hknown, hp'⟩
  · rcases h' k with hkeep' | ⟨p, status, hp, hactive, hknown, hp'⟩
    · exact Or.inl (hkeep'.trans hkeep)
    · exact Or.inr ⟨p, status, hkeep ▸ hp, hactive, hknown, hp'⟩
  · rcases h' k with hkeep' | ⟨q, status', hq, -, hknown', hq'⟩
    · exact Or.inr ⟨p, status, hp, hactive, hknown, hkeep'.trans hp'⟩
    · obtain rfl := Object.pod.inj (Option.some_inj.mp (hp'.symm.trans hq))
      exact Or.inr ⟨p, status', hp, hactive, hknown', hq'⟩

/-- What is under a key after pods have moved on. -/
theorem Moves.lookup_isSome {s s' : Registry} (h : Moves s s') (k : String) :
    (s'.lookup k).isSome = (s.lookup k).isSome := by
  rcases h k with hkeep | ⟨p, status, hp, -, -, hp'⟩
  · rw [hkeep]
  · rw [hp, hp']
    rfl

/-- What is not a pod stays, and comes from nowhere. -/
theorem Moves.lookup_of_not_pod {s s' : Registry} (h : Moves s s') {k : String} {v : Object}
    (hv : v.asPod = none) : s'.lookup k = some v ↔ s.lookup k = some v := by
  rcases h k with hkeep | ⟨p, status, hp, -, -, hp'⟩
  · rw [hkeep]
  · rw [hp, hp']
    constructor
    · intro heq
      rw [← Option.some_inj.mp heq] at hv
      exact nomatch hv
    · intro heq
      rw [← Option.some_inj.mp heq] at hv
      exact nomatch hv

/-- A pod after the move was one before it, with the same owner. -/
theorem Moves.pod {s s' : Registry} (h : Moves s s') {k : String} {q : Pod}
    (hq : s'.lookup k = some (.pod q)) :
    ∃ p, s.lookup k = some (.pod p) ∧ p.ownerRef = q.ownerRef := by
  rcases h k with hkeep | ⟨p, status, hp, -, -, hp'⟩
  · exact ⟨q, hkeep ▸ hq, rfl⟩
  · obtain rfl := Object.pod.inj (Option.some_inj.mp (hp'.symm.trans hq))
    exact ⟨p, hp, rfl⟩

/-- **What passes rely on**: between their operations pods move on; operations succeed or fail; and
the names of new pods are fresh. -/
def jobSetting : Setting String Object where
  rely := Moves
  refl _ _ := Or.inl rfl
  trans := Moves.trans
  may s o outcome :=
    (outcome = .ok ∨ ∃ e, outcome = .fail e) ∧
      match o with
      | .put k (.pod _) => s.lookup k = none
      | _ => True

/-- A session of the job controller. -/
abbrev JobSession := Session String Object

/-- One step of the session. -/
def JobSession.next (s : JobSession) (i : SessionStep PassEnv (String × PodStatus)) : JobSession :=
  s.step reconcileJobs movePod i

/-! ## Counts -/

/-- An object is a pod of the owner whose status passes a test. -/
def isPodOf (id : String) (test : PodStatus → Bool) (_k : String) (v : Object) : Bool :=
  match v.asPod with
  | some p => decide (p.ownerRef = some id) && test p.status
  | none => false

/-- The number of active pods of an owner. -/
def activePods (id : String) (store : Registry) : ℕ := store.count (isPodOf id PodStatus.isActive)

/-- The number of succeeded pods of an owner. -/
def succeededPods (id : String) (store : Registry) : ℕ :=
  store.count (isPodOf id fun s => decide (s = .succeeded))

/-- The pods that are active or have succeeded, as one sum. -/
theorem activePods_add_succeededPods (id : String) (store : Registry) :
    activePods id store + succeededPods id store = store.total fun k v =>
      (if isPodOf id PodStatus.isActive k v then 1 else 0) +
        if isPodOf id (fun s => decide (s = .succeeded)) k v then 1 else 0 := by
  rw [activePods, succeededPods, KeyValue.count, KeyValue.count, ← KeyValue.total_add]

/-- A status is not both. -/
theorem PodStatus.not_both (status : PodStatus) :
    (if status.isActive then 1 else 0) + (if decide (status = .succeeded) then 1 else 0) ≤ 1 := by
  cases status <;> decide

theorem weight_pod {id : String} {test : PodStatus → Bool} {store : Registry} {k : String} {p : Pod}
    (hp : store.lookup k = some (.pod p)) :
    store.weight (fun k v => if isPodOf id test k v then 1 else 0) k =
      if p.ownerRef = some id then (if test p.status then 1 else 0) else 0 := by
  rw [KeyValue.weight_of_some hp, isPodOf, Object.asPod]
  by_cases howner : p.ownerRef = some id
  · simp [howner]
  · simp [howner]

section Moving

variable {s s' : Registry} (h : Moves s s') (id : String)

include h

theorem Moves.activePods_le : activePods id s' ≤ activePods id s := by
  rw [activePods, activePods, KeyValue.count, KeyValue.count]
  refine KeyValue.total_le_total fun k => ?_
  rcases h k with hkeep | ⟨p, status, hp, hactive, -, hp'⟩
  · rw [KeyValue.weight, KeyValue.weight, hkeep]
  · rw [weight_pod hp, weight_pod hp', hactive, if_pos rfl]
    dsimp only
    by_cases howner : p.ownerRef = some id
    · rw [if_pos howner, if_pos howner]
      split_ifs
      · exact le_rfl
      · exact Nat.zero_le 1
    · rw [if_neg howner, if_neg howner]

theorem Moves.succeededPods_le : succeededPods id s ≤ succeededPods id s' := by
  rw [succeededPods, succeededPods, KeyValue.count, KeyValue.count]
  refine KeyValue.total_le_total fun k => ?_
  rcases h k with hkeep | ⟨p, status, hp, hactive, -, hp'⟩
  · rw [KeyValue.weight, KeyValue.weight, hkeep]
  · -- An active pod has not succeeded.
    have hnot : decide (p.status = .succeeded) = false := by
      cases hstatus : p.status <;> simp_all [PodStatus.isActive]
    rw [weight_pod hp, hnot, if_neg Bool.false_ne_true, ite_self]
    exact Nat.zero_le _

theorem Moves.live_le : activePods id s' + succeededPods id s' ≤
    activePods id s + succeededPods id s := by
  rw [activePods_add_succeededPods, activePods_add_succeededPods]
  refine KeyValue.total_le_total fun k => ?_
  rcases h k with hkeep | ⟨p, status, hp, hactive, -, hp'⟩
  · rw [KeyValue.weight, KeyValue.weight, hkeep]
  · have hone := status.not_both
    rw [KeyValue.weight_of_some hp, KeyValue.weight_of_some hp']
    by_cases howner : p.ownerRef = some id
    · simp only [isPodOf, Object.asPod, howner, decide_true, Bool.true_and, hactive, if_true]
      omega
    · simp [isPodOf, Object.asPod, howner]

end Moving

/-- What is counted after a write, under a key where nothing was counted. -/
theorem count_insert {id : String} {test : PodStatus → Bool} {store : Registry} {k : String}
    {v : Object} (hold : ∀ w, store.lookup k = some w → isPodOf id test k w = false) :
    (store.insert k v).count (isPodOf id test) =
      store.count (isPodOf id test) + if isPodOf id test k v then 1 else 0 := by
  have h := KeyValue.total_insert (fun k v => if isPodOf id test k v then 1 else 0) store k v
  have hzero : store.weight (fun k v => if isPodOf id test k v then 1 else 0) k = 0 := by
    cases hlookup : store.lookup k with
    | none => exact KeyValue.weight_of_none hlookup
    | some w => rw [KeyValue.weight_of_some hlookup, hold w hlookup]; rfl
  rw [hzero, Nat.add_zero] at h
  exact h

/-- A new active pod of the owner. -/
theorem activePods_insert {id : String} {store : Registry} {k : String} {p : Pod}
    (hnone : store.lookup k = none) (hactive : p.status.isActive = true)
    (howner : p.ownerRef = some id) :
    activePods id (store.insert k (.pod p)) = activePods id store + 1 := by
  rw [activePods, count_insert fun w hw => nomatch hnone.symm.trans hw]
  simp [isPodOf, Object.asPod, hactive, howner, activePods]

/-- A new active pod has not succeeded. -/
theorem succeededPods_insert {id : String} {store : Registry} {k : String} {p : Pod}
    (hnone : store.lookup k = none) (hactive : p.status.isActive = true) :
    succeededPods id (store.insert k (.pod p)) = succeededPods id store := by
  have hnot : decide (p.status = .succeeded) = false := by
    cases hstatus : p.status <;> simp_all [PodStatus.isActive]
  rw [succeededPods, count_insert fun w hw => nomatch hnone.symm.trans hw]
  simp only [isPodOf, Object.asPod, hnot, Bool.and_false, Bool.false_eq_true, if_false]
  rfl

/-- A new pod of another owner. -/
theorem activePods_insert_other {id : String} {store : Registry} {k : String} {p : Pod}
    (hnone : store.lookup k = none) (howner : p.ownerRef ≠ some id) :
    activePods id (store.insert k (.pod p)) = activePods id store := by
  rw [activePods, count_insert fun w hw => nomatch hnone.symm.trans hw]
  simp [isPodOf, Object.asPod, howner, activePods]

/-! ## Namespaces -/

/-- The namespaces whose directory of jobs holds a key. -/
def handlers (s : Registry) (k : String) : List String :=
  ((s.scan fun key => startsWith key "/registry/namespaces/").map fun e => namespaceOf e.1).filter
    fun ns => !ns.isEmpty && startsWith k (jobPrefixOf ns)

theorem mem_handlers {s : Registry} {k ns : String} : ns ∈ handlers s k ↔
    Registers s ns ∧ ns.isEmpty = false ∧ startsWith k (jobPrefixOf ns) = true := by
  simp only [handlers, List.mem_filter, List.mem_map, KeyValue.mem_scan, Bool.and_eq_true,
    Bool.not_eq_true', Registers, Prod.exists]
  constructor
  · rintro ⟨⟨key, v, ⟨hlookup, hdir⟩, hname⟩, hempty, hstart⟩
    exact ⟨⟨key, v, hlookup, hdir, hname⟩, hempty, hstart⟩
  · rintro ⟨⟨key, v, hlookup, hdir, hname⟩, hempty, hstart⟩
    exact ⟨⟨key, v, ⟨hlookup, hdir⟩, hname⟩, hempty, hstart⟩

theorem SameNamespaces.handlers {s s' : Registry} (h : SameNamespaces s s') {k ns : String} :
    ns ∈ handlers s' k ↔ ns ∈ handlers s k := by
  rw [mem_handlers, mem_handlers, h.registers]

theorem Moves.sameNamespaces {s s' : Registry} (h : Moves s s') : SameNamespaces s s' :=
  fun key _ => h.lookup_isSome key

/-! ## The invariant -/

/-- What holds of the job between any two operations. -/
structure JobInv (k : String) (job : Job) (s : Registry) : Prop where
  stored : ∃ j, s.lookup k = some (.job j) ∧ j.id = job.id ∧ j.spec = job.spec
  unique : ∀ k' j, s.lookup k' = some (.job j) → j.id = job.id → k' = k
  single : ∀ ns ∈ handlers s k, ∀ ns' ∈ handlers s k, ns = ns'
  podKeys : ∀ key p, s.lookup key = some (.pod p) → p.ownerRef = some job.id → IsPodKey key
  placed : ∀ ns ∈ handlers s k, ∀ key p, s.lookup key = some (.pod p) →
    p.ownerRef = some job.id → startsWith key (podPrefixOf ns) = true
  active_le : activePods job.id s ≤ job.spec.parallelism.toNat
  live_le : activePods job.id s + succeededPods job.id s ≤ job.spec.completions.toNat
  complete : ∀ j, s.lookup k = some (.job j) → j.status.condition = .complete →
    succeededPods job.id s = job.spec.completions.toNat

section Invariant

variable {k : String} {job : Job} {s s' : Registry}

/-- **Pods may move on.** -/
theorem JobInv.moves (h : JobInv k job s) (hmoves : Moves s s') : JobInv k job s' := by
  have hlive := hmoves.live_le job.id
  have hjob : ∀ {key j}, s'.lookup key = some (.job j) ↔ s.lookup key = some (.job j) :=
    hmoves.lookup_of_not_pod rfl
  refine ⟨?_, ?_, ?_, ?_, ?_, ?_, ?_, ?_⟩
  · obtain ⟨j, hj, hid, hspec⟩ := h.stored
    exact ⟨j, hjob.mpr hj, hid, hspec⟩
  · exact fun k' j hj => h.unique k' j (hjob.mp hj)
  · intro ns hns ns' hns'
    rw [hmoves.sameNamespaces.handlers] at hns hns'
    exact h.single ns hns ns' hns'
  · intro key p hp howner
    obtain ⟨p', hp', howner'⟩ := hmoves.pod hp
    exact h.podKeys key p' hp' (howner'.trans howner)
  · intro ns hns key p hp howner
    obtain ⟨p', hp', howner'⟩ := hmoves.pod hp
    exact h.placed ns (hmoves.sameNamespaces.handlers.mp hns) key p' hp' (howner'.trans howner)
  · exact (hmoves.activePods_le job.id).trans h.active_le
  · exact hlive.trans h.live_le
  · intro j hj hcomplete
    have hle := hmoves.succeededPods_le job.id
    have hall := h.complete j (hjob.mp hj) hcomplete
    have hbound := h.live_le
    omega

/-- The key of the job holds no pod. -/
theorem JobInv.ne_of_lookup_none (h : JobInv k job s) {key : String} (hnone : s.lookup key = none) :
    k ≠ key := by
  rintro rfl
  obtain ⟨j, hj, -⟩ := h.stored
  exact nomatch hnone.symm.trans hj

/-- **A new pod.**  If it belongs to the job, it has room and is put where its pods are. -/
theorem JobInv.insertPod (h : JobInv k job s) {key : String} {p : Pod} (hnone : s.lookup key = none)
    (hkey : IsPodKey key) (hactive : p.status.isActive = true)
    (hown : p.ownerRef = some job.id →
      (∃ ns ∈ handlers s k, startsWith key (podPrefixOf ns) = true) ∧
        activePods job.id s + 1 ≤ job.spec.parallelism.toNat ∧
        activePods job.id s + succeededPods job.id s + 1 ≤ job.spec.completions.toNat) :
    JobInv k job (s.insert key (.pod p)) := by
  have hne := h.ne_of_lookup_none hnone
  have hns := sameNamespaces_insert (s := s) (v := .pod p)
    (not_startsWith_of_startsWith hkey (by decide) (by decide) :
      startsWith key "/registry/namespaces/" = false)
  have hsucceeded := @succeededPods_insert job.id _ _ _ hnone hactive
  have hpods : ∀ {key' q}, (s.insert key (.pod p)).lookup key' = some (.pod q) →
      q.ownerRef = some job.id → s.lookup key' = some (.pod q) ∨ key' = key ∧ q = p := by
    intro key' q hq _
    rw [KeyValue.lookup_insert] at hq
    split_ifs at hq with heq
    · exact Or.inr ⟨heq, (Object.pod.inj (Option.some_inj.mp hq)).symm⟩
    · exact Or.inl hq
  have hjobs : ∀ {key' j}, (s.insert key (.pod p)).lookup key' = some (.job j) →
      s.lookup key' = some (.job j) := by
    intro key' j hj
    rw [KeyValue.lookup_insert] at hj
    split_ifs at hj with heq
    · exact nomatch hj
    · exact hj
  refine ⟨?_, fun k' j hj => h.unique k' j (hjobs hj), ?_, ?_, ?_, ?_, ?_, ?_⟩
  · obtain ⟨j, hj, hid, hspec⟩ := h.stored
    exact ⟨j, (KeyValue.lookup_insert_of_ne hne).trans hj, hid, hspec⟩
  · intro ns hmem ns' hmem'
    rw [hns.handlers] at hmem hmem'
    exact h.single ns hmem ns' hmem'
  · intro key' q hq howner
    rcases hpods hq howner with hold | ⟨rfl, rfl⟩
    · exact h.podKeys key' q hold howner
    · exact hkey
  · intro ns hmem key' q hq howner
    rw [hns.handlers] at hmem
    rcases hpods hq howner with hold | ⟨rfl, rfl⟩
    · exact h.placed ns hmem key' q hold howner
    · obtain ⟨⟨ns', hmem', hstart⟩, -⟩ := hown howner
      rw [h.single ns hmem ns' hmem']
      exact hstart
  · by_cases howner : p.ownerRef = some job.id
    · rw [activePods_insert hnone hactive howner]
      exact (hown howner).2.1
    · rw [activePods_insert_other hnone howner]
      exact h.active_le
  · by_cases howner : p.ownerRef = some job.id
    · have := (hown howner).2.2
      rw [activePods_insert hnone hactive howner, hsucceeded]
      omega
    · rw [activePods_insert_other hnone howner, hsucceeded]
      exact h.live_le
  · intro j hj hcomplete
    rw [hsucceeded]
    exact h.complete j (hjobs hj) hcomplete

/-- **A job is put back**, this one or another. -/
theorem JobInv.insertJob (h : JobInv k job s) {key : String} {j : Job}
    (hkey : startsWith key "/registry/jobs/" = true)
    (hself : key = k → j.id = job.id ∧ j.spec = job.spec ∧
      (j.status.condition = .complete → succeededPods job.id s = job.spec.completions.toNat))
    (hother : key ≠ k → j.id ≠ job.id) : JobInv k job (s.insert key (.job j)) := by
  have hns := sameNamespaces_insert (s := s) (v := .job j)
    (not_startsWith_of_startsWith hkey (by decide) (by decide) :
      startsWith key "/registry/namespaces/" = false)
  -- Pods of the job are elsewhere.
  have hold : ∀ test w, s.lookup key = some w → isPodOf job.id test key w = false := by
    intro test w hw
    cases hpod : w.asPod with
    | none => simp [isPodOf, hpod]
    | some p =>
        obtain rfl := Object.asPod_eq_some.mp hpod
        have howner : p.ownerRef ≠ some job.id := by
          intro howner
          have hpodKey := h.podKeys key p hw howner
          rw [IsPodKey, not_startsWith_of_startsWith hkey (by decide) (by decide)] at hpodKey
          cases hpodKey
        simp [isPodOf, Object.asPod, howner]
  have hcount : ∀ test, (s.insert key (.job j)).count (isPodOf job.id test) =
      s.count (isPodOf job.id test) := fun test => by
    rw [count_insert (hold test)]
    rfl
  have hpods : ∀ {key' q}, (s.insert key (.job j)).lookup key' = some (.pod q) →
      s.lookup key' = some (.pod q) := by
    intro key' q hq
    rw [KeyValue.lookup_insert] at hq
    split_ifs at hq with heq
    · cases hq
    · exact hq
  refine ⟨?_, ?_, ?_, fun key' q hq => h.podKeys key' q (hpods hq), ?_, ?_, ?_, ?_⟩
  · by_cases heq : key = k
    · subst heq
      exact ⟨j, KeyValue.lookup_insert_self _ _ _, (hself rfl).1, (hself rfl).2.1⟩
    · obtain ⟨j', hj', hid, hspec⟩ := h.stored
      exact ⟨j', (KeyValue.lookup_insert_of_ne (Ne.symm heq)).trans hj', hid, hspec⟩
  · intro k' j' hj' hid
    rw [KeyValue.lookup_insert] at hj'
    split_ifs at hj' with heq
    · obtain rfl := Object.job.inj (Option.some_inj.mp hj')
      by_contra hne
      exact hother (fun hk => hne (heq.trans hk)) hid
    · exact h.unique k' j' hj' hid
  · intro ns hmem ns' hmem'
    rw [hns.handlers] at hmem hmem'
    exact h.single ns hmem ns' hmem'
  · intro ns hmem key' q hq howner
    exact h.placed ns (hns.handlers.mp hmem) key' q (hpods hq) howner
  · rw [activePods, hcount]
    exact h.active_le
  · rw [activePods, succeededPods, hcount, hcount]
    exact h.live_le
  · intro j' hj' hcomplete
    rw [succeededPods, hcount]
    rw [KeyValue.lookup_insert] at hj'
    split_ifs at hj' with heq
    · obtain rfl := Object.job.inj (Option.some_inj.mp hj')
      exact (hself heq.symm).2.2 hcomplete
    · exact h.complete j' hj' hcomplete

end Invariant

end K3rs
