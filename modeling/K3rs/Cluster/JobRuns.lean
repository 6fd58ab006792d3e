import K3rs.Cluster.JobInvariant

/-!
# Runs of a job

Passes of the job controller, one after the other, while pods move on between any two of their
operations.  A pass counts the active and the succeeded pods of a job and creates what is missing;
while it creates them, pods may succeed or fail.  What carries the bounds over the loop is a
budget: the pods that are still to be created fit beside those that are active, and beside those
that are active or have succeeded (`Budget`).

* `job_accounting`: a job that starts running and without pods never has more active pods than its
  parallelism, nor more active and succeeded ones than its completions; when it is complete, as
  many have succeeded as it asks for; and once it is complete or has failed, it stays so and gets
  no further pod.
-/

namespace K3rs

open Programs Transition

/-! ## Guarantees -/

/-- A job that is over stays as it is and gets no further pod. -/
def Settled (k id : String) (s s' : Registry) : Prop :=
  ∀ j, s.lookup k = some (.job j) → j.isOver = true →
    (∃ j', s'.lookup k = some (.job j') ∧ j'.status.condition = j.status.condition) ∧
      ∀ key p, s'.lookup key = some (.pod p) → p.ownerRef = some id →
        ∃ p', s.lookup key = some (.pod p') ∧ p'.ownerRef = some id

theorem settled_refl (k id : String) (s : Registry) : Settled k id s s :=
  fun j hj _ => ⟨⟨j, hj, rfl⟩, fun _ p hp howner => ⟨p, hp, howner⟩⟩

theorem Moves.settled {s s' : Registry} (h : Moves s s') (k id : String) : Settled k id s s' := by
  intro j hj _
  refine ⟨⟨j, (h.lookup_of_not_pod rfl).mpr hj, rfl⟩, fun key p hp howner => ?_⟩
  obtain ⟨p', hp', howner'⟩ := h.pod hp
  exact ⟨p', hp', howner'.trans howner⟩

/-- A job that is not over is not concerned. -/
theorem settled_of_not_isOver {k id : String} {s s' : Registry} {j : Job}
    (hj : s.lookup k = some (.job j)) (hover : j.isOver = false) : Settled k id s s' := by
  intro j' hj' hover'
  obtain rfl := Object.job.inj (Option.some_inj.mp (hj.symm.trans hj'))
  exact nomatch hover.symm.trans hover'

/-- A write elsewhere that does not concern pods of the job. -/
theorem settled_insert {k id key : String} {s : Registry} {v : Object} (hne : k ≠ key)
    (hv : ∀ p, v = .pod p → p.ownerRef ≠ some id) : Settled k id s (s.insert key v) := by
  intro j hj _
  refine ⟨⟨j, (KeyValue.lookup_insert_of_ne hne).trans hj, rfl⟩, fun key' p hp howner => ?_⟩
  rw [KeyValue.lookup_insert] at hp
  split_ifs at hp with heq
  · exact absurd howner (hv p (Option.some_inj.mp hp))
  · exact ⟨p, hp, howner⟩

/-- What every operation of a pass guarantees. -/
def JobGuarantee (k : String) (job : Job) (s : Registry) (o : Op String Object) : Prop :=
  JobInv k job s ∧ ∀ outcome, jobSetting.may s o outcome → Settled k job.id s (o.apply s outcome)

/-- Every program of a pass, from a store to what it leaves; after an error the invariant is left. -/
abbrev Keeps {α : Type} (k : String) (job : Job) (x : Program α) (J : α → Registry → Prop)
    (s : Registry) : Prop :=
  x.Under jobSetting (JobGuarantee k job) (fun r s' =>
    match r with
    | .ok a => J a s'
    | .error _ => JobInv k job s') s

/-- A property of the store that gives the invariant and survives the moves of pods. -/
structure Lasting (k : String) (job : Job) (I : Registry → Prop) : Prop where
  inv : ∀ s, I s → JobInv k job s
  moves : ∀ s s', Moves s s' → I s → I s'

section Rules

variable {k : String} {job : Job} {I J : Registry → Prop} {s : Registry}

theorem lasting_inv : Lasting k job (JobInv k job) :=
  ⟨fun _ h => h, fun _ _ hmoves h => h.moves hmoves⟩

/-- A listing is of some store that has the property; since then pods may have moved on. -/
theorem keeps_list (hI : Lasting k job I) (start : String) (h : I s) :
    Keeps k job (listPrefix start) (fun entries s' =>
      ∃ s₀, I s₀ ∧ entries = s₀.scan (fun key => startsWith key start) ∧ Moves s₀ s') s := by
  intro s' hmoves
  have hs' := hI.moves s s' hmoves h
  refine ⟨⟨hI.inv s' hs', fun outcome _ => settled_refl k job.id s'⟩, fun outcome hmay => ?_⟩
  rcases hmay.1 with rfl | ⟨e, rfl⟩
  · exact fun s'' hmoves' => ⟨s', hs', rfl, hmoves'⟩
  · exact fun s'' hmoves' => hI.inv s'' (hI.moves s' s'' hmoves' hs')

/-- A put. -/
theorem keeps_put (hI : Lasting k job I) (hJ : Lasting k job J) {key : String} {v : Object}
    (hput : ∀ s, I s → (∀ p, v = .pod p → s.lookup key = none) →
      J (s.insert key v) ∧ Settled k job.id s (s.insert key v)) (h : I s) :
    Keeps k job (Prog.put key v) (fun _ => J) s := by
  intro s' hmoves
  have hs' := hI.moves s s' hmoves h
  have hfresh : ∀ outcome, jobSetting.may s' (.put key v) outcome →
      ∀ p, v = .pod p → s'.lookup key = none := by
    rintro outcome hmay p rfl
    exact hmay.2
  refine ⟨⟨hI.inv s' hs', fun outcome hmay => ?_⟩, fun outcome hmay => ?_⟩
  · rcases hmay.1 with rfl | ⟨e, rfl⟩
    · exact (hput s' hs' (hfresh _ hmay)).2
    · exact settled_refl k job.id s'
  · rcases hmay.1 with rfl | ⟨e, rfl⟩
    · exact fun s'' hmoves' => hJ.moves _ s'' hmoves' (hput s' hs' (hfresh _ hmay)).1
    · exact fun s'' hmoves' => hI.inv s'' (hI.moves s' s'' hmoves' hs')

/-- A sequence. -/
theorem keeps_bind {α β : Type} {x : Program α} {f : α → Program β} {J : α → Registry → Prop}
    {J' : β → Registry → Prop} (hx : Keeps k job x J s)
    (hf : ∀ a s', J a s' → Keeps k job (f a) J' s') : Keeps k job (x >>= f) J' s := by
  refine Prog.Under.bind (hx.mono fun r s' hr => ?_)
  cases r with
  | ok a => exact hf a s' hr
  | error e => exact hr

/-- A loop; `I rest` holds when `rest` remains. -/
theorem keeps_forEach {α : Type} {f : α → Program Unit} {I : List α → Registry → Prop}
    (hI : ∀ rest, Lasting k job (I rest))
    (hf : ∀ x rest s, I (x :: rest) s → Keeps k job (f x) (fun _ => I rest) s) {xs : List α}
    (h : I xs s) : Keeps k job (Prog.forEach f xs) (fun _ => I []) s := by
  refine (Prog.Under.forEach I (JobInv k job)
    (fun rest s s' hmoves h => (hI rest).moves s s' hmoves h)
    (fun x rest s h => (hf x rest s h).mono fun r s' hr => ?_) h).mono fun r s' hr => ?_
  · cases r <;> exact hr
  · cases r <;> exact hr

/-- Nothing to do. -/
theorem keeps_pure (hI : Lasting k job I) (h : I s) :
    Keeps k job (pure () : Program Unit) (fun _ => I) s :=
  fun s' hmoves => hI.moves s s' hmoves h

end Rules

/-! ## Counts of a pass -/

section Counts

variable {k : String} {job : Job} {s : Registry}

/-- A listing of the pods counts all of them. -/
theorem length_ownedPods (h : JobInv k job s) {ns : String} (hns : ns ∈ handlers s k)
    (test : PodStatus → Bool) :
    ((ownedPods job.id (s.scan fun key => startsWith key (podPrefixOf ns))).filter
      fun e => test e.2.status).length = s.count (isPodOf job.id test) := by
  rw [ownedPods, List.filter_filterMap]
  refine KeyValue.count_eq_length (fun e _ => ?_) fun key v hv hout => ?_
  · cases hpod : e.2.asPod with
    | none => simp [isPodOf, hpod]
    | some p =>
        by_cases howner : p.ownerRef = some job.id
        · cases htest : test p.status with
          | false => simp [isPodOf, hpod, howner, htest]
          | true => simp [isPodOf, hpod, howner, htest]
        · simp [isPodOf, hpod, howner]
  · -- Pods of the job are below the directory.
    cases hpod : v.asPod with
    | none => simp [isPodOf, hpod]
    | some p =>
        obtain rfl := Object.asPod_eq_some.mp hpod
        have howner : p.ownerRef ≠ some job.id := by
          intro howner
          cases hout.symm.trans (h.placed ns hns key p hv howner)
        simp [isPodOf, Object.asPod, howner]

theorem toNat_countPods (h : JobInv k job s) {ns : String} (hns : ns ∈ handlers s k)
    {test : PodStatus → Bool} (hle : s.count (isPodOf job.id test) < 2 ^ 32) :
    (countPods test (ownedPods job.id (s.scan fun key => startsWith key (podPrefixOf ns)))).toNat =
      s.count (isPodOf job.id test) := by
  rw [countPods, length_ownedPods h hns, UInt32.toNat_ofNat']
  exact Nat.mod_eq_of_lt hle

/-- The job as a pass counts it from a store. -/
def countedFrom (s : Registry) (ns : String) (now : DateTime) (j : Job) : Job :=
  j.counted now (ownedPods j.id (s.scan fun key => startsWith key (podPrefixOf ns)))

/-- **The counts are right.** -/
theorem counted_toNat (h : JobInv k job s) {ns : String} (hns : ns ∈ handlers s k) {j : Job}
    (hid : j.id = job.id) (now : DateTime) :
    (countedFrom s ns now j).status.active.toNat = activePods job.id s ∧
      (countedFrom s ns now j).status.succeeded.toNat = succeededPods job.id s := by
  have hlive := h.live_le
  have hlt := job.spec.completions.toNat_lt
  rw [activePods, succeededPods] at hlive
  simp only [countedFrom, Job.counted, hid]
  exact ⟨toNat_countPods h hns (by omega), toNat_countPods h hns (by omega)⟩

/-- No difference of the pass is taken of a smaller number. -/
def NoUnderflow (job : Job) : Prop :=
  job.status.active.toNat ≤ job.spec.parallelism.toNat ∧
    job.status.active.toNat + job.status.succeeded.toNat ≤ job.spec.completions.toNat

instance (job : Job) : Decidable (NoUnderflow job) :=
  inferInstanceAs (Decidable (_ ∧ _))

/-- **The budget**: what is created fits. -/
theorem toCreate_le {j : Job} (h : NoUnderflow j) :
    j.status.active.toNat + j.toCreate.toNat ≤ j.spec.parallelism.toNat ∧
      j.status.active.toNat + j.status.succeeded.toNat + j.toCreate.toNat ≤
        j.spec.completions.toNat := by
  obtain ⟨hactive, hlive⟩ := h
  have hcompletions := j.spec.completions.toNat_lt
  rw [Job.toCreate]
  split_ifs with hmissing
  · have hsum : (j.status.active + j.status.succeeded).toNat =
        j.status.active.toNat + j.status.succeeded.toNat := by
      rw [UInt32.toNat_add]
      exact Nat.mod_eq_of_lt (by omega)
    have hparallel : (j.spec.parallelism - j.status.active).toNat =
        j.spec.parallelism.toNat - j.status.active.toNat :=
      UInt32.toNat_sub_of_le _ _ (UInt32.le_iff_toNat_le.mpr hactive)
    have hleft : (j.spec.completions - j.status.active).toNat =
        j.spec.completions.toNat - j.status.active.toNat :=
      UInt32.toNat_sub_of_le _ _ (UInt32.le_iff_toNat_le.mpr (by omega))
    have hleft' : (j.spec.completions - j.status.active - j.status.succeeded).toNat =
        j.spec.completions.toNat - j.status.active.toNat - j.status.succeeded.toNat := by
      rw [UInt32.toNat_sub_of_le _ _ (UInt32.le_iff_toNat_le.mpr (by omega)), hleft]
    have hmin : ∀ a b : UInt32, (min a b).toNat = min a.toNat b.toNat := by
      intro a b
      rw [show min a b = if a ≤ b then a else b from rfl]
      split_ifs with hab
      · exact (min_eq_left (UInt32.le_iff_toNat_le.mp hab)).symm
      · exact (min_eq_right (not_le.mp fun hba => hab (UInt32.le_iff_toNat_le.mpr hba)).le).symm
    rw [hmin, hparallel, hleft']
    omega
  · rw [UInt32.toNat_zero]
    omega

end Counts

/-! ## Passes -/

section Pass

variable {k : String} {job : Job} {env : PassEnv} {ns : String} {nodes : List Node}
  {rest : List (String × Object)} {s₁ s : Registry}

/-- What is known when some listed jobs of a namespace remain; `s₁` is the store when the
namespaces were listed. -/
structure Listed (k : String) (job : Job) (s₁ : Registry) (ns : String) (rest : List (String × Object))
    (s : Registry) : Prop where
  inv : JobInv k job s
  namespaces : SameNamespaces s₁ s
  current : ∀ e ∈ rest, e.1 = k → s.lookup k = some e.2
  below : ∀ e ∈ rest, startsWith e.1 (jobPrefixOf ns) = true
  ids : ∀ e ∈ rest, ∀ j, e.2 = .job j → j.id = job.id → e.1 = k
  nodup : (rest.map Prod.fst).Nodup

theorem lasting_listed : Lasting k job (Listed k job s₁ ns rest) := by
  refine ⟨fun s h => h.inv, fun s s' hmoves h => ?_⟩
  refine ⟨h.inv.moves hmoves, h.namespaces.trans hmoves.sameNamespaces, ?_, h.below, h.ids,
    h.nodup⟩
  intro e he hk
  obtain ⟨j, hj, -⟩ := h.inv.stored
  have hcurrent := h.current e he hk
  rw [← hcurrent, hj]
  exact (hmoves.lookup_of_not_pod rfl).mpr hj

theorem Listed.tail {e : String × Object} (h : Listed k job s₁ ns (e :: rest) s) :
    Listed k job s₁ ns rest s where
  inv := h.inv
  namespaces := h.namespaces
  current e' he' := h.current e' (List.mem_cons_of_mem e he')
  below e' he' := h.below e' (List.mem_cons_of_mem e he')
  ids e' he' := h.ids e' (List.mem_cons_of_mem e he')
  nodup := (List.nodup_cons.mp h.nodup).2

/-- A write that keeps the invariant, under a key that remains for nobody. -/
theorem Listed.insert (h : Listed k job s₁ ns rest s) {key : String} {v : Object}
    (hinv : JobInv k job (s.insert key v)) (hkey : startsWith key "/registry/namespaces/" = false)
    (hrest : key = k → ∀ e ∈ rest, e.1 ≠ k) : Listed k job s₁ ns rest (s.insert key v) where
  inv := hinv
  namespaces := h.namespaces.trans (sameNamespaces_insert hkey)
  current e he hk := by
    have hne : k ≠ key := fun heq => hrest heq.symm e he hk
    rw [KeyValue.lookup_insert_of_ne hne]
    exact h.current e he hk
  below := h.below
  ids := h.ids
  nodup := h.nodup

theorem startsWith_jobs {key : String} (h : startsWith key (jobPrefixOf ns) = true) :
    startsWith key "/registry/jobs/" = true :=
  startsWith_trans h (startsWith_append_left (startsWith_append _ _) _)

theorem isActive_place (env : PassEnv) (nodes : List Node) {p : Pod} (h : p.status = .pending) :
    (p.place env nodes).status.isActive = true := by
  rw [Pod.place]
  cases env.schedule p nodes with
  | none => exact congrArg PodStatus.isActive h
  | some nodeName => rfl

/-! ### Another job -/

/-- What is put for another job. -/
theorem keeps_put_other {key : String} {j : Job} (hkey : startsWith key (jobPrefixOf ns) = true)
    (hne : key ≠ k) (hid : j.id ≠ job.id) (h : Listed k job s₁ ns rest s) :
    Keeps k job (Prog.put key (.job j)) (fun _ => Listed k job s₁ ns rest) s := by
  refine keeps_put lasting_listed lasting_listed (fun s h _ => ⟨h.insert ?_ ?_ ?_, ?_⟩) h
  · exact h.inv.insertJob (startsWith_jobs hkey) (fun heq => absurd heq hne) fun _ => hid
  · exact not_startsWith_of_startsWith (startsWith_jobs hkey) (by decide) (by decide)
  · exact fun heq => absurd heq hne
  · exact settled_insert (Ne.symm hne) fun p hp => nomatch hp

theorem keeps_advance_other {key : String} {j : Job}
    (hkey : startsWith key (jobPrefixOf ns) = true) (hne : key ≠ k) (hid : j.id ≠ job.id)
    (h : Listed k job s₁ ns rest s) :
    Keeps k job (advanceJob env ns key nodes j) (fun _ => Listed k job s₁ ns rest) s := by
  rw [advanceJob]
  split_ifs
  · exact keeps_put_other hkey hne hid h
  · exact keeps_put_other hkey hne hid h
  · refine keeps_bind (keeps_forEach (I := fun _ => Listed k job s₁ ns rest) (fun _ => lasting_listed)
      (fun i _ s h => ?_) h) fun _ s h => keeps_put_other hkey hne hid h
    -- A pod of another owner.
    refine keeps_put lasting_listed lasting_listed (fun s h hfresh => ?_) h
    have hnone := hfresh _ rfl
    have howner : ((newJobPod (env.uuid key i) (env.now key (i + 2)) ns j).place env nodes).ownerRef ≠
        some job.id := by
      rw [Pod.ownerRef_place]
      exact fun heq => hid (Option.some_inj.mp heq)
    refine ⟨h.insert ?_ ?_ fun heq => absurd heq (Ne.symm (h.inv.ne_of_lookup_none hnone)), ?_⟩
    · exact h.inv.insertPod hnone (isPodKey_key ns _) (isActive_place env nodes rfl)
        fun heq => absurd heq howner
    · exact not_startsWith_of_startsWith (isPodKey_key ns _) (by decide) (by decide)
    · refine settled_insert (h.inv.ne_of_lookup_none hnone) fun p hp => ?_
      obtain rfl := Object.pod.inj hp
      exact howner

/-! ### The job -/

/-- **The budget.**  The job is stored as the pass has read it, and `n` more pods have room. -/
structure Budget (k : String) (job : Job) (s₁ : Registry) (j : Job) (ns : String)
    (rest : List (String × Object)) (n : ℕ) (s : Registry) : Prop where
  listed : Listed k job s₁ ns rest s
  absent : ∀ e ∈ rest, e.1 ≠ k
  handles : ns ∈ handlers s k
  same : s.lookup k = some (.job j)
  active : activePods job.id s + n ≤ job.spec.parallelism.toNat
  live : activePods job.id s + succeededPods job.id s + n ≤ job.spec.completions.toNat

variable {j : Job} {n : ℕ}

theorem Budget.moves {s' : Registry} (hmoves : Moves s s') (h : Budget k job s₁ j ns rest n s) :
    Budget k job s₁ j ns rest n s' := by
  have hactive := hmoves.activePods_le job.id
  have hlive := hmoves.live_le job.id
  have := h.active
  have := h.live
  exact ⟨lasting_listed.moves s s' hmoves h.listed, h.absent,
    hmoves.sameNamespaces.handlers.mpr h.handles, (hmoves.lookup_of_not_pod rfl).mpr h.same,
    by omega, by omega⟩

theorem lasting_budget : Lasting k job (Budget k job s₁ j ns rest n) :=
  ⟨fun _ h => h.listed.inv, fun _ _ hmoves h => h.moves hmoves⟩

/-- The job is put back, at the end of its round. -/
theorem keeps_put_self {I : Registry → Prop} (hI : Lasting k job I)
    (hbudget : ∀ s, I s → Budget k job s₁ j ns rest 0 s) {j' : Job} (hover : j.isOver = false)
    (hid : j'.id = j.id) (hspec : j'.spec = j.spec)
    (hcomplete : ∀ s, I s → j'.status.condition = .complete →
      succeededPods job.id s = job.spec.completions.toNat) (h : I s) :
    Keeps k job (Prog.put k (.job j')) (fun _ => Listed k job s₁ ns rest) s := by
  refine keeps_put hI lasting_listed (fun s h _ => ?_) h
  have hs := hbudget s h
  obtain ⟨j₀, hj₀, hid₀, hspec₀⟩ := hs.listed.inv.stored
  obtain rfl := Object.job.inj (Option.some_inj.mp (hs.same.symm.trans hj₀))
  have hkey := startsWith_jobs (mem_handlers.mp hs.handles).2.2
  refine ⟨hs.listed.insert ?_ ?_ fun _ => hs.absent, settled_of_not_isOver hs.same hover⟩
  · exact hs.listed.inv.insertJob hkey
      (fun _ => ⟨hid.trans hid₀, hspec.trans hspec₀, hcomplete s h⟩) fun hne => absurd rfl hne
  · exact not_startsWith_of_startsWith hkey (by decide) (by decide)

/-- **One pod is created within the budget.** -/
theorem keeps_create {j' : Job} {i : ℕ} (hover : j.isOver = false) (hid : j'.id = job.id)
    (h : Budget k job s₁ j ns rest (n + 1) s) :
    Keeps k job (createJobPod env ns k j' nodes i) (fun _ => Budget k job s₁ j ns rest n) s := by
  refine keeps_put lasting_budget lasting_budget (fun s h hfresh => ?_) h
  have hnone := hfresh _ rfl
  have hactive := isActive_place (p := newJobPod (env.uuid k i) (env.now k (i + 2)) ns j') env nodes rfl
  have hpodKey := isPodKey_key ns
    ((newJobPod (env.uuid k i) (env.now k (i + 2)) ns j').place env nodes).name
  have hns := not_startsWith_of_startsWith hpodKey (by decide) (by decide) (b := "/registry/namespaces/")
  have howner : ((newJobPod (env.uuid k i) (env.now k (i + 2)) ns j').place env nodes).ownerRef =
      some job.id := by
    rw [Pod.ownerRef_place, ← hid]
    rfl
  have hbounds := h.active
  have hlive := h.live
  have hinv := h.listed.inv.insertPod hnone hpodKey hactive fun _ =>
    ⟨⟨ns, h.handles, startsWith_append _ _⟩, by omega, by omega⟩
  have hne := h.listed.inv.ne_of_lookup_none hnone
  refine ⟨⟨h.listed.insert hinv hns fun heq => absurd heq (Ne.symm hne), h.absent, ?_, ?_, ?_, ?_⟩,
    settled_of_not_isOver h.same hover⟩
  · exact (sameNamespaces_insert hns).handlers.mpr h.handles
  · rw [KeyValue.lookup_insert_of_ne hne]
    exact h.same
  · rw [activePods_insert hnone hactive howner]
    omega
  · rw [activePods_insert hnone hactive howner, succeededPods_insert hnone hactive]
    omega

/-- **A round of the job**, with the counts of a store from which pods have moved on. -/
theorem keeps_advance {s₀ : Registry} {now : DateTime} (hover : j.isOver = false)
    (h : Budget k job s₁ j ns rest 0 s₀) (hmoves : Moves s₀ s) :
    Keeps k job (advanceJob env ns k nodes (countedFrom s₀ ns now j))
      (fun _ => Listed k job s₁ ns rest) s := by
  obtain ⟨j₀, hj₀, hid, hspec⟩ := h.listed.inv.stored
  obtain rfl := Object.job.inj (Option.some_inj.mp (h.same.symm.trans hj₀))
  obtain ⟨hactive, hsucceeded⟩ := counted_toNat h.listed.inv h.handles hid now
  have hcspec : (countedFrom s₀ ns now j).spec = job.spec := hspec
  have hrunning : j.status.condition ≠ .complete := by
    intro heq
    simp [Job.isOver, heq] at hover
  rw [advanceJob]
  split_ifs with hdone hbackoff
  · -- As many have succeeded as the job asks for, then and now.
    have hall : job.spec.completions.toNat ≤ succeededPods job.id s₀ := by
      rw [hcspec, UInt32.le_iff_toNat_le, hsucceeded] at hdone
      exact hdone
    refine keeps_put_self
      (I := fun s => Budget k job s₁ j ns rest 0 s ∧ job.spec.completions.toNat ≤ succeededPods job.id s)
      ⟨fun _ h => h.1.listed.inv, fun s s' hm h => ⟨h.1.moves hm, ?_⟩⟩ (fun _ h => h.1) hover rfl rfl
      (fun s h _ => ?_) ⟨h.moves hmoves, hall.trans (hmoves.succeededPods_le job.id)⟩
    · exact h.2.trans (hm.succeededPods_le job.id)
    · have := h.1.live
      have := h.2
      omega
  · refine keeps_put_self lasting_budget (fun _ h => h) hover rfl rfl (fun s h hc => ?_)
      (h.moves hmoves)
    cases hc
  · -- The missing pods are within the budget.
    have hfits : NoUnderflow (countedFrom s₀ ns now j) := by
      rw [NoUnderflow, hactive, hsucceeded, hcspec]
      exact ⟨h.listed.inv.active_le, h.listed.inv.live_le⟩
    obtain ⟨hparallel, hlive⟩ := toCreate_le hfits
    rw [hactive, hcspec] at hparallel
    rw [hactive, hsucceeded, hcspec] at hlive
    have hbudget : Budget k job s₁ j ns rest
        (List.range (countedFrom s₀ ns now j).toCreate.toNat).length s₀ := by
      rw [List.length_range]
      exact { h with active := hparallel, live := hlive }
    refine keeps_bind (keeps_forEach (I := fun xs => Budget k job s₁ j ns rest xs.length)
      (fun _ => lasting_budget) (fun i xs s h => ?_) (hbudget.moves hmoves)) fun _ s h => ?_
    · exact keeps_create hover hid h
    · exact keeps_put_self lasting_budget (fun _ h => h) hover rfl rfl
        (fun s h hc => absurd hc hrunning) h

/-- **A round of a pass**, over one listed job. -/
theorem keeps_reconcileJob (hreg : Registers s₁ ns) (hns : ns.isEmpty = false) (e : String × Object)
    (h : Listed k job s₁ ns (e :: rest) s) :
    Keeps k job (reconcileJob env ns nodes e) (fun _ => Listed k job s₁ ns rest) s := by
  have hkey := h.below e List.mem_cons_self
  rw [reconcileJob]
  cases hjob : e.2.asJob with
  | none => exact keeps_pure lasting_listed h.tail
  | some j =>
      have he := Object.asJob_eq_some.mp hjob
      dsimp only
      cases hover : j.isOver with
      | true =>
          rw [if_pos rfl]
          exact keeps_pure lasting_listed h.tail
      | false =>
          rw [if_neg Bool.false_ne_true]
          by_cases hk : e.1 = k
          · -- The job itself: no other listed job has its key.
            have hsame : s.lookup k = some (.job j) := he ▸ h.current e List.mem_cons_self hk
            have habsent : ∀ e' ∈ rest, e'.1 ≠ k := by
              intro e' he' hk'
              refine (List.nodup_cons.mp h.nodup).1 ?_
              rw [hk, ← hk']
              exact List.mem_map_of_mem he'
            have hbudget : Budget k job s₁ j ns rest 0 s :=
              ⟨h.tail, habsent, mem_handlers.mpr ⟨h.namespaces.registers.mpr hreg, hns, hk ▸ hkey⟩, hsame,
                h.inv.active_le, h.inv.live_le⟩
            refine keeps_bind (keeps_list lasting_budget _ hbudget) fun entries s' hs' => ?_
            obtain ⟨s₀, hs₀, rfl, hmoves⟩ := hs'
            rw [hk]
            exact keeps_advance hover hs₀ hmoves
          · refine keeps_bind (keeps_list lasting_listed _ h.tail) fun entries s' hs' => ?_
            obtain ⟨s₀, hs₀, -, hmoves⟩ := hs'
            exact keeps_advance_other hkey hk (fun hid => hk (h.ids e List.mem_cons_self j he hid))
              (lasting_listed.moves s₀ s' hmoves hs₀)

/-- What is known between two namespaces of a pass. -/
def Between (k : String) (job : Job) (s₁ s : Registry) : Prop :=
  JobInv k job s ∧ SameNamespaces s₁ s

theorem lasting_between : Lasting k job (Between k job s₁) :=
  ⟨fun _ h => h.1, fun _ _ hmoves h => ⟨h.1.moves hmoves, h.2.trans hmoves.sameNamespaces⟩⟩

/-- What was listed is there until it is written. -/
theorem listed_scan (ns : String) (h : Between k job s₁ s) :
    Listed k job s₁ ns (s.scan fun key => startsWith key (jobPrefixOf ns)) s where
  inv := h.1
  namespaces := h.2
  current _ he hk := hk ▸ (KeyValue.mem_scan.mp he).1
  below _ he := (KeyValue.mem_scan.mp he).2
  ids e he j hj hid := h.1.unique e.1 j (hj ▸ (KeyValue.mem_scan.mp he).1) hid
  nodup := s.nodup_scan _

theorem keeps_reconcileJobNamespace (hreg : Registers s₁ ns) (hns : ns.isEmpty = false)
    (h : Between k job s₁ s) :
    Keeps k job (reconcileJobNamespace env ns) (fun _ => Between k job s₁) s := by
  refine keeps_bind (keeps_list lasting_between _ h) fun entries s' hs' => ?_
  obtain ⟨s₀, hs₀, rfl, hmoves⟩ := hs'
  refine keeps_bind (keeps_list lasting_listed _ (lasting_listed.moves _ _ hmoves (listed_scan ns hs₀)))
    fun nodeEntries s'' hs'' => ?_
  obtain ⟨s₂, hs₂, -, hmoves'⟩ := hs''
  refine (keeps_forEach (I := Listed k job s₁ ns) (fun _ => lasting_listed)
    (fun e rest s h => keeps_reconcileJob hreg hns e h)
    (lasting_listed.moves _ _ hmoves' hs₂)).mono fun r s h => ?_
  cases r with
  | ok u => exact ⟨h.inv, h.namespaces⟩
  | error e => exact h

/-- One namespace of a pass; the others are still to come. -/
def Ahead (k : String) (job : Job) (s₁ : Registry) (rest : List (String × Object)) (s : Registry) :
    Prop := Between k job s₁ s ∧ ∀ e ∈ rest, Registers s₁ (namespaceOf e.1)

theorem lasting_ahead : Lasting k job (Ahead k job s₁ rest) :=
  ⟨fun _ h => h.1.1, fun s s' hm h => ⟨lasting_between.moves s s' hm h.1, h.2⟩⟩

theorem keeps_namespace (env : PassEnv) (e : String × Object) (h : Ahead k job s₁ (e :: rest) s) :
    Keeps k job (if (namespaceOf e.1).isEmpty then pure ()
      else reconcileJobNamespace env (namespaceOf e.1)) (fun _ => Ahead k job s₁ rest) s := by
  have hrest : ∀ e' ∈ rest, Registers s₁ (namespaceOf e'.1) :=
    fun e' he' => h.2 e' (List.mem_cons_of_mem e he')
  cases hns : (namespaceOf e.1).isEmpty with
  | true =>
      rw [if_pos rfl]
      exact keeps_pure lasting_ahead ⟨h.1, hrest⟩
  | false =>
      rw [if_neg Bool.false_ne_true]
      refine (keeps_reconcileJobNamespace (h.2 e List.mem_cons_self) hns h.1).mono fun r s h => ?_
      cases r with
      | ok u => exact ⟨h, hrest⟩
      | error e => exact h

/-- **A pass keeps the invariant.** -/
theorem keeps_reconcileJobs (env : PassEnv) (h : JobInv k job s) :
    Keeps k job (reconcileJobs env) (fun _ => JobInv k job) s := by
  refine keeps_bind (keeps_list lasting_inv _ h) fun entries s' hs' => ?_
  obtain ⟨s₁, hs₁, rfl, hmoves⟩ := hs'
  refine (keeps_forEach (I := Ahead k job s₁) (fun _ => lasting_ahead)
    (fun e rest s h => keeps_namespace env e h)
    ⟨⟨hs₁.moves hmoves, hmoves.sameNamespaces⟩, fun e he => ?_⟩).mono fun r s h => ?_
  · obtain ⟨hlookup, hdir⟩ := KeyValue.mem_scan.mp he
    exact ⟨e.1, e.2, hlookup, hdir, rfl⟩
  · cases r with
    | ok u => exact h.1.1
    | error e => exact h

end Pass

/-! ## Every run -/

/-- **What is asked of a state**: the bounds, that no difference of a pass is taken of a smaller
number, and that a complete job has all its pods. -/
structure Accounts (k : String) (job : Job) (s : Registry) : Prop where
  active_le : activePods job.id s ≤ job.spec.parallelism.toNat
  live_le : activePods job.id s + succeededPods job.id s ≤ job.spec.completions.toNat
  noUnderflow : ∀ ns ∈ handlers s k, ∀ now, NoUnderflow (countedFrom s ns now job)
  complete : ∀ j, s.lookup k = some (.job j) → j.status.condition = .complete →
    succeededPods job.id s = job.spec.completions.toNat

theorem JobInv.accounts {k : String} {job : Job} {s : Registry} (h : JobInv k job s) :
    Accounts k job s where
  active_le := h.active_le
  live_le := h.live_le
  noUnderflow ns hns now := by
    obtain ⟨hactive, hsucceeded⟩ := counted_toNat h hns rfl now
    rw [NoUnderflow, hactive, hsucceeded]
    exact ⟨h.active_le, h.live_le⟩
  complete := h.complete

/-- A job that has just begun: it is running and has no pods, no other job has its id, and it lies
in one namespace only. -/
structure Starts (k : String) (job : Job) (s : Registry) : Prop where
  stored : s.lookup k = some (.job job)
  running : job.status.condition = .running
  noPods : ∀ e ∈ s.rows, ∀ p ∈ e.2.asPod, p.ownerRef ≠ some job.id
  unique : ∀ e ∈ s.rows, ∀ j ∈ e.2.asJob, j.id = job.id → e.1 = k
  single : ∀ ns ∈ handlers s k, ∀ ns' ∈ handlers s k, ns = ns'

theorem Starts.inv {k : String} {job : Job} {s : Registry} (h : Starts k job s) : JobInv k job s := by
  have hpods : ∀ key p, s.lookup key = some (.pod p) → p.ownerRef ≠ some job.id :=
    fun key p hp => h.noPods _ (KeyValue.lookup_eq_some.mp hp) p rfl
  have hcount : ∀ test, s.count (isPodOf job.id test) = 0 := by
    intro test
    refine KeyValue.total_eq_zero fun key v hv => ?_
    cases hpod : v.asPod with
    | none => simp [isPodOf, hpod]
    | some p =>
        obtain rfl := Object.asPod_eq_some.mp hpod
        simp [isPodOf, Object.asPod, hpods key p hv]
  have hactive : activePods job.id s = 0 := hcount _
  have hsucceeded : succeededPods job.id s = 0 := hcount _
  refine ⟨⟨job, h.stored, rfl, rfl⟩, ?_, h.single, ?_, ?_, ?_, ?_, ?_⟩
  · exact fun k' j hj => h.unique _ (KeyValue.lookup_eq_some.mp hj) j rfl
  · exact fun key p hp howner => absurd howner (hpods key p hp)
  · exact fun ns _ key p hp howner => absurd howner (hpods key p hp)
  · rw [hactive]
    exact Nat.zero_le _
  · rw [hactive, hsucceeded]
    exact Nat.zero_le _
  · intro j hj hcomplete
    obtain rfl := Object.job.inj (Option.some_inj.mp (h.stored.symm.trans hj))
    cases h.running.symm.trans hcomplete

namespace JobSession

/-- The rest of the pass under way keeps the invariant. -/
def Inv (k : String) (job : Job) (s : JobSession) : Prop :=
  s.prog.Under jobSetting (JobGuarantee k job) (fun _ s => JobInv k job s) s.store

variable {k : String} {job : Job} {s : JobSession}

theorem Inv.store (h : s.Inv k job) : JobInv k job s.store := by
  cases hprog : s.prog with
  | done result =>
      rw [Inv, hprog] at h
      exact h s.store (jobSetting.refl _)
  | op o cont => exact (Session.guarantee_next hprog h).1

theorem Inv.next (h : s.Inv k job) {i : SessionStep PassEnv (String × PodStatus)}
    (hi : s.Admits jobSetting i) : (s.next i).Inv k job := by
  refine Session.under_step (fun env store hstore => ?_) moves_movePod hi h
  refine (keeps_reconcileJobs env hstore).mono fun r s hr => ?_
  cases r with
  | ok u => exact hr
  | error e => exact hr

/-- **A step leaves a job that is over alone.** -/
theorem Inv.settled (h : s.Inv k job) {i : SessionStep PassEnv (String × PodStatus)}
    (hi : s.Admits jobSetting i) : Settled k job.id s.store (s.next i).store := by
  cases i with
  | start env =>
      cases hprog : s.prog with
      | done result =>
          simp only [JobSession.next, Session.step, hprog]
          exact settled_refl _ _ _
      | op o cont =>
          simp only [JobSession.next, Session.step, hprog]
          exact settled_refl _ _ _
  | advance outcome =>
      cases hprog : s.prog with
      | done result =>
          simp only [JobSession.next, Session.step, hprog]
          exact settled_refl _ _ _
      | op o cont =>
          simp only [Session.Admits, hprog] at hi
          simp only [JobSession.next, Session.step, hprog]
          exact (Session.guarantee_next hprog h).2 outcome hi
  | other m => exact (moves_movePod m s.store).settled k job.id

end JobSession

instance (s : Registry) (o : Op String Object) (outcome : Outcome) :
    Decidable (jobSetting.may s o outcome) := by
  unfold jobSetting
  have : Decidable (outcome = .ok ∨ ∃ e, outcome = .fail e) :=
    match outcome with
    | .ok => .isTrue (Or.inl rfl)
    | .fail e => .isTrue (Or.inr ⟨e, rfl⟩)
    | .cut _ => .isFalse (by rintro (h | ⟨e, h⟩) <;> exact nomatch h)
  have : Decidable (match o with | .put k (.pod _) => s.lookup k = none | _ => True) := by
    split <;> infer_instance
  infer_instance

open JobSession in
/-- **Job accounting.**  From every store in which a job has just begun, along every run of passes
and moves of pods with fresh names for new pods, the accounts of the job are right in every state,
and no step changes the condition of a job that is over or gives it a pod. -/
theorem job_accounting (k : String) (job : Job) (store : Registry) (hstart : Starts k job store)
    (steps : List (SessionStep PassEnv (String × PodStatus)))
    (h : Admitted next (fun s i => s.Admits jobSetting i) (Session.idle store) steps) :
    Along next (fun s => Accounts k job s.store) (Session.idle store) steps ∧
      Admitted next (fun s i => Settled k job.id s.store (s.next i).store) (Session.idle store)
        steps := by
  have hkeep : ∀ (s : JobSession) i, s.Admits jobSetting i → s.Inv k job → (s.next i).Inv k job :=
    fun _ _ hi hs => hs.next hi
  have hinv : Inv k job (Session.idle store) := fun _ hmoves => hstart.inv.moves hmoves
  refine ⟨(along_of_admitted (Inv k job) hkeep hinv h).mono fun s hs => hs.store.accounts, ?_⟩
  exact Admitted.mono (Inv k job) hkeep (fun s i hs hi => hs.settled hi) hinv h

/-! ## Small jobs -/

/-- A job with one completion and some parallelism. -/
def smallJob (name : String) (parallelism : UInt32) (condition : JobCondition) : Job where
  id := "j1"
  name := name
  ns := "default"
  spec := ⟨emptyTemplate, 1, parallelism, 3⟩
  status := ⟨0, 0, 0, condition, none, none⟩
  ownerRef := none
  createdAt := 0

/-- A store with the namespaces and one job. -/
def jobStore (namespaces : List String) (k : String) (job : Job) : Registry :=
  let store : Registry :=
    namespaces.foldl (fun s ns => KeyValue.insert s ("/registry/namespaces/" ++ ns) (.other "")) ∅
  store.insert k (.job job)

/-- A pass, for as many operations as are named. -/
def passOf (n : ℕ) : List (SessionStep PassEnv (String × PodStatus)) :=
  .start quietEnv :: List.replicate n (.advance .ok)

/-- A pass creates the pod of a job, which succeeds; the next pass finds the job complete. -/
def passSuccessPass : List (SessionStep PassEnv (String × PodStatus)) :=
  passOf 6 ++ .other (podKey "default" "x-rs1", .succeeded) :: passOf 6

/-- A running job. -/
def runningStore : Registry :=
  jobStore ["default"] "/registry/jobs/default/x" (smallJob "x" 1 .running)

open JobSession in
theorem job_accounting_passSuccessPass :
    Along next (fun s => Accounts "/registry/jobs/default/x" (smallJob "x" 1 .running) s.store)
        (Session.idle runningStore) passSuccessPass ∧
      Admitted next (fun s i => Settled "/registry/jobs/default/x" "j1" s.store (s.next i).store)
        (Session.idle runningStore) passSuccessPass :=
  job_accounting "/registry/jobs/default/x" (smallJob "x" 1 .running) runningStore
    ⟨by decide, rfl, by decide, by decide, by decide⟩ passSuccessPass
    (by decide)

/-- A job that is created as a complete one. -/
def completeStore : Registry :=
  jobStore ["default"] "/registry/jobs/default/x" (smallJob "x" 1 .complete)

/-- A job in the directories of two namespaces. -/
def nestedStore : Registry :=
  jobStore ["a", "a/b"] "/registry/jobs/a/b/x" (smallJob "x" 1 .running)

/-- Two jobs with one id. -/
def sharedStore : Registry :=
  runningStore.insert "/registry/jobs/default/y"
    (.job { smallJob "y" 2 .running with spec := ⟨emptyTemplate, 2, 2, 3⟩ })

/-- No pod of the store belongs to the owner. -/
def NoPods (id : String) (store : Registry) : Prop :=
  ∀ e ∈ store.rows, ∀ p ∈ e.2.asPod, p.ownerRef ≠ some id

instance (id : String) (store : Registry) : Decidable (NoPods id store) :=
  inferInstanceAs (Decidable (∀ e ∈ store.rows, ∀ p ∈ e.2.asPod, p.ownerRef ≠ some id))

open JobSession in
/-- A job that is created as a complete one has no pods; one that lies in two directories, or
shares its id, gets more pods than it may have. -/
theorem job_accounting_fails :
    (NoPods "j1" completeStore ∧
      ¬Along next (fun s => Accounts "/registry/jobs/default/x" (smallJob "x" 1 .complete) s.store)
        (Session.idle completeStore) []) ∧
    (NoPods "j1" nestedStore ∧
      Admitted next (fun s i => s.Admits jobSetting i) (Session.idle nestedStore) (passOf 11) ∧
      ¬Along next (fun s => Accounts "/registry/jobs/a/b/x" (smallJob "x" 1 .running) s.store)
        (Session.idle nestedStore) (passOf 11)) ∧
    (NoPods "j1" sharedStore ∧
      Admitted next (fun s i => s.Admits jobSetting i) (Session.idle sharedStore) (passOf 9) ∧
      ¬Along next (fun s => Accounts "/registry/jobs/default/x" (smallJob "x" 1 .running) s.store)
        (Session.idle sharedStore) (passOf 9)) := by
  refine ⟨⟨by decide, fun h => ?_⟩, ⟨by decide, by decide, fun h => ?_⟩,
    ⟨by decide, by decide, fun h => ?_⟩⟩
  · have hstored : completeStore.lookup "/registry/jobs/default/x" =
        some (.job (smallJob "x" 1 .complete)) := by decide
    exact absurd ((h [] (List.prefix_refl _)).complete _ hstored rfl) (by decide)
  · exact absurd (h _ (List.prefix_refl _)).active_le (by decide)
  · exact absurd (h _ (List.prefix_refl _)).active_le (by decide)

end K3rs
