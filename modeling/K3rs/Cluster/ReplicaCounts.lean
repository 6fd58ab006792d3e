import K3rs.Cluster.ReplicaPasses

/-!
# One pass is enough

What a lone pass of `ReplicaSetController` over a namespace leaves of its ReplicaSets, all of them
at once: the number of pods asked for, and a status that counts them.  The ids of the ReplicaSets
have to be distinct, so that no pod has two owners, and the pods few enough for a `u32`.

The pass lists the pods anew for each ReplicaSet.  `PassLeft` says what has become of the namespace
when some of the listed entries remain; the ReplicaSets that are done keep their pods because the
others only touch pods of their own (`Handles.samePods`).

A ReplicaSet with exactly its pods and the right status is put back as it was, so that a second
pass leaves the whole store as it is (`leaves_settled`).
-/

namespace K3rs

open Programs

/-! ## Removals and additions -/

/-- A ReplicaSet has been brought to its replicas: the pods before and after. -/
structure BroughtTo (rs : ReplicaSet) (pods pods' : List (String × Pod)) : Prop where
  exact : pods'.length = rs.spec.replicas.toNat
  /-- What is new belongs to the ReplicaSet, and is made from its template. -/
  added : ∀ e ∈ pods', e ∉ pods → e.2.ownerRef = some rs.id ∧ e.2.spec = rs.spec.template ∧
    e.2.labels = rs.spec.selector
  missing : (∃ e ∈ pods', e ∉ pods) → pods.length < rs.spec.replicas.toNat
  surplus : (∃ e ∈ pods, e ∉ pods') → rs.spec.replicas.toNat < pods.length
  /-- What is removed is not older than what is kept. -/
  newest : ∀ e ∈ pods, e ∉ pods' → ∀ e' ∈ pods, e' ∈ pods' → e'.2.createdAt ≤ e.2.createdAt

section Brought

variable {env : PassEnv} {ns k : String} {rs : ReplicaSet} {nodes : List Node}
  {pods pods' : List (String × Pod)}

theorem pairwise_newestFirst (pods : List (String × Pod)) :
    (newestFirst pods).Pairwise fun a b => b.2.createdAt ≤ a.2.createdAt := by
  refine (List.pairwise_mergeSort (fun a b c hab hbc => ?_) (fun a b => ?_) pods).imp fun h =>
    of_decide_eq_true h
  · exact decide_eq_true (le_trans (of_decide_eq_true hbc) (of_decide_eq_true hab))
  · rw [Bool.or_eq_true, decide_eq_true_eq, decide_eq_true_eq]
    exact le_total _ _

theorem mem_newestFirst {e : String × Pod} : e ∈ newestFirst pods ↔ e ∈ pods := List.mem_mergeSort

theorem mem_pods_of_kept {e : String × Pod} (he : e ∈ keptPods rs pods) : e ∈ pods :=
  mem_newestFirst.mp (List.mem_of_mem_drop he)

/-- The pods that are deleted come before those that are kept. -/
theorem newest_of_deleted {e e' : String × Pod} (he : e ∈ deletedPods rs pods)
    (he' : e' ∈ keptPods rs pods) : e'.2.createdAt ≤ e.2.createdAt := by
  have hpairwise := pairwise_newestFirst pods
  rw [← List.take_append_drop (counted pods - rs.spec.replicas.toNat) (newestFirst pods),
    List.pairwise_append] at hpairwise
  exact hpairwise.2.2 e he e' he'

theorem IsNewPod.made {p : Pod} (h : IsNewPod env ns k rs nodes p) :
    p.ownerRef = some rs.id ∧ p.spec = rs.spec.template ∧ p.labels = rs.spec.selector := by
  obtain ⟨i, rfl⟩ := h
  rw [Pod.place]
  cases env.schedule (newPod (env.uuid k i) (env.now k i) ns rs) nodes with
  | none => exact ⟨rfl, rfl, rfl⟩
  | some nodeName => exact ⟨rfl, rfl, rfl⟩

/-- **Rescaling brings a ReplicaSet to its replicas**, when the count does not wrap. -/
theorem Rescaled.brought (h : Rescaled env ns k rs nodes pods pods') (hfew : pods.length < 2 ^ 32) :
    BroughtTo rs pods pods' := by
  obtain ⟨new, hperm, hlength, hnew⟩ := h
  have hcounted : counted pods = pods.length := Nat.mod_eq_of_lt hfew
  have hkept : (keptPods rs pods).length =
      pods.length - (pods.length - rs.spec.replicas.toNat) := by
    rw [keptPods, List.length_drop, newestFirst, List.length_mergeSort, hcounted]
  rw [hcounted] at hlength
  have hmem : ∀ e, e ∈ pods' ↔ e ∈ new ∨ e ∈ keptPods rs pods := by
    intro e
    rw [hperm.mem_iff, List.mem_append]
  have hadded : ∀ e ∈ pods', e ∉ pods → e ∈ new := fun e he hnot =>
    ((hmem e).mp he).resolve_right fun hkeep => hnot (mem_pods_of_kept hkeep)
  have hsurplus : ∀ e ∈ pods, e ∉ pods' → e ∈ deletedPods rs pods := by
    intro e he hnot
    have hall := mem_newestFirst.mpr he
    rw [← List.take_append_drop (counted pods - rs.spec.replicas.toNat) (newestFirst pods),
      List.mem_append] at hall
    exact hall.resolve_right fun hkeep => hnot ((hmem e).mpr (Or.inr hkeep))
  have hmany : (∃ e ∈ pods, e ∉ pods') → rs.spec.replicas.toNat < pods.length := by
    rintro ⟨e, he, hnot⟩
    by_contra hle
    have hdeleted := hsurplus e he hnot
    rw [deletedPods, hcounted, Nat.sub_eq_zero_of_le (Nat.not_lt.mp hle),
      List.take_zero] at hdeleted
    exact List.not_mem_nil hdeleted
  refine ⟨?_, fun e he hnot => (hnew e (hadded e he hnot)).made, ?_, hmany,
    fun e he hnot e' he' hin => ?_⟩
  · rw [hperm.length_eq, List.length_append, hlength, hkept]
    omega
  · rintro ⟨e, he, hnot⟩
    have hpos := List.length_pos_of_mem (hadded e he hnot)
    omega
  · -- Nothing is created where something is removed.
    have hlt := hmany ⟨e, he, hnot⟩
    have hnone : new = [] := List.length_eq_zero_iff.mp (by omega)
    have hkeep : e' ∈ keptPods rs pods := by
      rcases (hmem e').mp hin with hmade | hkeep
      · rw [hnone] at hmade
        cases hmade
      · exact hkeep
    exact newest_of_deleted (hsurplus e he hnot) hkeep

end Brought

/-! ## Counting -/

/-- How many of the pods a status counts as ready. -/
def readyCount (pods : List (String × Pod)) : ℕ :=
  pods.countP fun e => decide (e.2.status = .running ∨ e.2.status = .scheduled)

/-- How many of the pods a status counts as available. -/
def availableCount (pods : List (String × Pod)) : ℕ :=
  pods.countP fun e => decide (e.2.status = .running)

/-- The counters of a status are those of the pods. -/
structure Counts (status : ReplicaSetStatus) (pods : List (String × Pod)) : Prop where
  replicas : status.replicas.toNat = pods.length
  ready : status.readyReplicas.toNat = readyCount pods
  available : status.availableReplicas.toNat = availableCount pods

section Counting

private theorem add_ofNat_succ (x : UInt32) (n : ℕ) :
    x + 1 + UInt32.ofNat n = x + UInt32.ofNat (n + 1) := by
  rw [UInt32.ofNat_add, UInt32.add_assoc, UInt32.add_comm 1]
  rfl

/-- One counter of a status. -/
private theorem foldl_count {α : Type} (p : α → Prop) [DecidablePred p] (xs : List α) :
    ∀ x : UInt32, xs.foldl (fun count a => if p a then count + 1 else count) x =
      x + UInt32.ofNat (xs.countP fun a => decide (p a)) := by
  induction xs with
  | nil =>
      intro x
      exact (UInt32.add_zero x).symm
  | cons a rest ih =>
      intro x
      rw [List.foldl_cons, List.countP_cons]
      by_cases ha : p a
      · rw [if_pos ha, ih, if_pos (decide_eq_true ha), add_ofNat_succ]
      · rw [if_neg ha, ih, if_neg (by simpa using ha)]
        rfl

/-- A status counts each of its numbers on its own. -/
private theorem foldl_status (pods : List (String × Pod)) :
    ∀ status : ReplicaSetStatus, pods.foldl (fun status e =>
      { replicas := status.replicas + 1
        readyReplicas :=
          if e.2.status = .running ∨ e.2.status = .scheduled then status.readyReplicas + 1
          else status.readyReplicas
        availableReplicas :=
          if e.2.status = .running then status.availableReplicas + 1
          else status.availableReplicas }) status =
      (⟨pods.foldl (fun count _ => if True then count + 1 else count) status.replicas,
        pods.foldl (fun count e => if e.2.status = .running ∨ e.2.status = .scheduled
          then count + 1 else count) status.readyReplicas,
        pods.foldl (fun count e => if e.2.status = .running then count + 1 else count)
          status.availableReplicas⟩ : ReplicaSetStatus) := by
  induction pods with
  | nil => exact fun _ => rfl
  | cons e rest ih =>
      intro status
      rw [List.foldl_cons, ih, List.foldl_cons, List.foldl_cons, List.foldl_cons, if_pos trivial]

/-- **The status is the recount**, as long as the pods are few enough. -/
theorem counts_replicaSetStatus {id ns : String} {s : Registry}
    (hfew : (podsIn id ns s).length < 2 ^ 32) :
    Counts (replicaSetStatus id (s.scan fun key => startsWith key (podPrefixOf ns)))
      (podsIn id ns s) := by
  have hcount : ∀ p : String × Pod → Bool, (podsIn id ns s).countP p < 2 ^ 32 :=
    fun p => lt_of_le_of_lt List.countP_le_length hfew
  have hzero : ∀ n : ℕ, n < 2 ^ 32 → ((0 : UInt32) + UInt32.ofNat n).toNat = n := fun n hn => by
    rw [UInt32.zero_add, UInt32.toNat_ofNat_of_lt' hn]
  rw [replicaSetStatus, ← podsIn, foldl_status]
  refine ⟨?_, ?_, ?_⟩
  · show UInt32.toNat (List.foldl _ 0 _) = _
    rw [foldl_count, hzero _ (hcount _), List.countP_eq_length]
    exact fun _ _ => decide_eq_true trivial
  · show UInt32.toNat (List.foldl _ 0 _) = _
    rw [foldl_count, hzero _ (hcount _)]
    rfl
  · show UInt32.toNat (List.foldl _ 0 _) = _
    rw [foldl_count, hzero _ (hcount _)]
    rfl

end Counting

/-! ## The pass -/

/-- A ReplicaSet that a pass over a namespace lists. -/
structure ListedIn (ns : String) (s : Registry) (k : String) (rs : ReplicaSet) : Prop where
  stored : s.lookup k = some (.replicaSet rs)
  below : startsWith k (replicaSetPrefixOf ns) = true

/-- No two ReplicaSets of the namespace have the same id. -/
def DistinctIds (ns : String) (s : Registry) : Prop :=
  ∀ k rs k' rs', ListedIn ns s k rs → ListedIn ns s k' rs' → rs.id = rs'.id → k = k'

instance (ns : String) (s : Registry) : Decidable (DistinctIds ns s) :=
  decidable_of_iff (∀ e ∈ s.scan fun key => startsWith key (replicaSetPrefixOf ns),
    ∀ e' ∈ s.scan fun key => startsWith key (replicaSetPrefixOf ns),
    ∀ rs ∈ e.2.asReplicaSet, ∀ rs' ∈ e'.2.asReplicaSet, rs.id = rs'.id → e.1 = e'.1) (by
  constructor
  · intro h k rs k' rs' hlisted hlisted' hid
    exact h (k, .replicaSet rs) (KeyValue.mem_scan.mpr ⟨hlisted.stored, hlisted.below⟩)
      (k', .replicaSet rs') (KeyValue.mem_scan.mpr ⟨hlisted'.stored, hlisted'.below⟩) rs rfl rs' rfl
      hid
  · intro h e he e' he' rs hrs rs' hrs' hid
    obtain ⟨hstored, hbelow⟩ := KeyValue.mem_scan.mp he
    obtain ⟨hstored', hbelow'⟩ := KeyValue.mem_scan.mp he'
    rw [Object.asReplicaSet_eq_some.mp hrs] at hstored
    rw [Object.asReplicaSet_eq_some.mp hrs'] at hstored'
    exact h _ rs _ rs' ⟨hstored, hbelow⟩ ⟨hstored', hbelow'⟩ hid)

/-- What a pass that began in `s` has made of the namespace when some entries remain. -/
structure PassLeft (env : PassEnv) (ns : String) (s : Registry) (rest : List (String × Object))
    (s₁ : Registry) : Prop where
  current : Current rest s₁
  nodup : (rest.map Prod.fst).Nodup
  listed : ∀ e ∈ rest, s.lookup e.1 = some e.2 ∧ startsWith e.1 (replicaSetPrefixOf ns) = true
  waiting : ∀ k rs, ListedIn ns s k rs → k ∈ rest.map Prod.fst → SamePods rs.id s s₁
  done : ∀ k rs, ListedIn ns s k rs → k ∉ rest.map Prod.fst → Recounted ns k rs s₁ ∧
    Rescaled env ns k rs (nodesIn s) (podsIn rs.id ns s) (podsIn rs.id ns s₁)
  foreign : ∀ key p, (∀ k rs, ListedIn ns s k rs → p.ownerRef ≠ some rs.id) →
    (s₁.lookup key = some (.pod p) ↔ s.lookup key = some (.pod p))
  others : ∀ key, ¬IsPodKey key → (∀ rs, ¬ListedIn ns s key rs) → s₁.lookup key = s.lookup key

section Pass

variable {env : PassEnv} {ns : String} {s s₁ s₂ : Registry} {rest : List (String × Object)}
  {k : String} {rs : ReplicaSet}

theorem ListedIn.not_isPodKey (h : ListedIn ns s k rs) : ¬IsPodKey k :=
  not_isPodKey_of_replicaSet h.below

theorem ListedIn.eq (h : ListedIn ns s k rs) {rs' : ReplicaSet} (h' : ListedIn ns s k rs') :
    rs = rs' :=
  Object.replicaSet.inj (Option.some_inj.mp (h.stored.symm.trans h'.stored))

/-- The status depends on the pods of the owner only. -/
theorem Recounted.congr (h : Recounted ns k rs s₁) (hlookup : s₂.lookup k = s₁.lookup k)
    (hpods : podsIn rs.id ns s₂ = podsIn rs.id ns s₁) : Recounted ns k rs s₂ := by
  have hstatus : replicaSetStatus rs.id (s₂.scan fun key => startsWith key (podPrefixOf ns)) =
      replicaSetStatus rs.id (s₁.scan fun key => startsWith key (podPrefixOf ns)) := by
    rw [replicaSetStatus, replicaSetStatus, ← podsIn, ← podsIn, hpods]
  rw [Recounted, hlookup, hstatus]
  exact h

/-- A pass begins. -/
theorem passLeft_start (env : PassEnv) (ns : String) (s : Registry) :
    PassLeft env ns s (s.scan fun key => startsWith key (replicaSetPrefixOf ns)) s where
  current _ he _ _ := (KeyValue.mem_scan.mp he).1
  nodup := s.nodup_scan _
  listed _ he := KeyValue.mem_scan.mp he
  waiting _ _ _ _ _ _ _ := Iff.rfl
  done k rs hlisted hnot := absurd
    (List.mem_map.mpr ⟨(k, .replicaSet rs),
      KeyValue.mem_scan.mpr ⟨hlisted.stored, hlisted.below⟩, rfl⟩)
    hnot
  foreign _ _ _ := Iff.rfl
  others _ _ _ := rfl

/-- An entry that is not a ReplicaSet is skipped. -/
theorem PassLeft.skip {e : String × Object} (h : PassLeft env ns s (e :: rest) s₁)
    (hnone : e.2.asReplicaSet = none) : PassLeft env ns s rest s₁ := by
  have hstored := (h.listed e List.mem_cons_self).1
  have hne : ∀ k rs, ListedIn ns s k rs → k ≠ e.1 := by
    rintro k rs hlisted rfl
    rw [Option.some_inj.mp (hstored.symm.trans hlisted.stored)] at hnone
    cases hnone
  refine ⟨h.current.tail, (List.nodup_cons.mp h.nodup).2,
    fun e' he' => h.listed e' (List.mem_cons_of_mem e he'), fun k rs hlisted hin => ?_,
    fun k rs hlisted hnot => ?_, h.foreign, h.others⟩
  · exact h.waiting k rs hlisted (List.mem_cons_of_mem _ hin)
  · refine h.done k rs hlisted fun hin => ?_
    rcases List.mem_cons.mp hin with heq | hin
    · exact hne k rs hlisted heq
    · exact hnot hin

/-- **One more ReplicaSet is done.** -/
theorem PassLeft.next (h : PassLeft env ns s ((k, .replicaSet rs) :: rest) s₁)
    (hids : DistinctIds ns s) (hhandles : Handles rs k s₁ s₂)
    (hrescaled : Rescaled env ns k rs (nodesIn s) (podsIn rs.id ns s₁) (podsIn rs.id ns s₂))
    (hrecounted : Recounted ns k rs s₂) : PassLeft env ns s rest s₂ := by
  have hself : ListedIn ns s k rs := by
    obtain ⟨hstored, hbelow⟩ := h.listed _ List.mem_cons_self
    exact ⟨hstored, hbelow⟩
  have hstored : s₁.lookup k = some (.replicaSet rs) :=
    h.current _ List.mem_cons_self rs rfl
  obtain ⟨hnot, hnodup⟩ := List.nodup_cons.mp h.nodup
  have hrest : ∀ e ∈ rest, s.lookup e.1 = some e.2 ∧
      startsWith e.1 (replicaSetPrefixOf ns) = true :=
    fun e he => h.listed e (List.mem_cons_of_mem _ he)
  -- The other ReplicaSets have other ids, so their pods stay.
  have hsame : ∀ k' rs', ListedIn ns s k' rs' → k' ≠ k → SamePods rs'.id s₁ s₂ :=
    fun k' rs' hlisted hne => hhandles.samePods hstored fun hid =>
      hne (hids k' rs' k rs hlisted hself hid)
  refine ⟨h.current.tail.handles hhandles
      (fun e he => isReplicaSetKey_of_listed (hrest e he).2) hnot,
    hnodup, hrest, fun k' rs' hlisted hin => ?_, fun k' rs' hlisted hout => ?_,
    fun key p hforeign => ?_, fun key hkey hother => ?_⟩
  · have hne : k' ≠ k := by
      rintro rfl
      exact hnot hin
    exact (h.waiting k' rs' hlisted (List.mem_cons_of_mem _ hin)).trans (hsame k' rs' hlisted hne)
  · by_cases hkey : k' = k
    · subst hkey
      obtain rfl := hlisted.eq hself
      have hpods : podsIn rs'.id ns s₁ = podsIn rs'.id ns s :=
        (h.waiting k' rs' hlisted List.mem_cons_self).podsIn_eq
      exact ⟨hrecounted, hpods ▸ hrescaled⟩
    · have hbefore : k' ∉ ((k, Object.replicaSet rs) :: rest).map Prod.fst := by
        rw [List.map_cons, List.mem_cons, not_or]
        exact ⟨hkey, hout⟩
      obtain ⟨hdone, hpods⟩ := h.done k' rs' hlisted hbefore
      have heq : podsIn rs'.id ns s₂ = podsIn rs'.id ns s₁ :=
        (hsame k' rs' hlisted hkey).podsIn_eq
      refine ⟨hdone.congr (hhandles.lookup_of_not_podKey hlisted.not_isPodKey hkey) heq, ?_⟩
      rw [heq]
      exact hpods
  · exact (hhandles.pod_iff hstored (hforeign k rs hself)).trans (h.foreign key p hforeign)
  · rw [hhandles.lookup_of_not_podKey hkey ?_]
    · exact h.others key hkey hother
    · rintro rfl
      exact hother rs hself

/-- **The loop of a pass.** -/
theorem runs_pass (hids : DistinctIds ns s) :
    (reconcileReplicaSetNamespace env ns).Runs FreshPods (fun _ _ => True)
      (fun _ s' => PassLeft env ns s [] s') s := by
  refine Prog.Runs.bind (Prog.Runs.list trivial (Prog.Runs.bind (Prog.Runs.list trivial ?_)))
  refine Prog.Runs.forEach (PassLeft env ns s) (fun e rest s₁ h => ?_) (passLeft_start env ns s)
  obtain ⟨k, v⟩ := e
  cases hrs : v.asReplicaSet with
  | none =>
      rw [reconcileReplicaSet, hrs]
      exact h.skip hrs
  | some rs =>
      obtain rfl := Object.asReplicaSet_eq_some.mp hrs
      have hk : IsReplicaSetKey k :=
        isReplicaSetKey_of_listed (h.listed _ List.mem_cons_self).2
      refine (runs_reconcileReplicaSet hk (fun _ _ _ => trivial) (fun _ _ _ _ => trivial)
        fun _ _ _ => trivial).mono fun _ s₂ hs₂ => ?_
      exact h.next hids hs₂.1 hs₂.2.1 hs₂.2.2

/-- What is listed afterwards was listed before. -/
theorem PassLeft.listed_back (h : PassLeft env ns s [] s₁) {rs' : ReplicaSet}
    (hlisted : ListedIn ns s₁ k rs') : ∃ rs, ListedIn ns s k rs ∧ rs' = { rs with
      status := replicaSetStatus rs.id (s₁.scan fun key => startsWith key (podPrefixOf ns)) } := by
  by_cases hbefore : ∃ rs, ListedIn ns s k rs
  · obtain ⟨rs, hrs⟩ := hbefore
    have hdone := (h.done k rs hrs List.not_mem_nil).1
    exact ⟨rs, hrs, Object.replicaSet.inj (Option.some_inj.mp (hlisted.stored.symm.trans hdone))⟩
  · refine absurd ⟨rs', ?_, hlisted.below⟩ hbefore
    rw [← h.others k hlisted.not_isPodKey fun rs hrs => hbefore ⟨rs, hrs⟩]
    exact hlisted.stored

end Pass

/-! ## A second pass -/

/-- The ReplicaSet has its pods, and its status counts them. -/
structure Replicated (ns : String) (rs : ReplicaSet) (s : Registry) : Prop where
  count : (podsIn rs.id ns s).length = rs.spec.replicas.toNat
  status : rs.status =
    replicaSetStatus rs.id (s.scan fun key => startsWith key (podPrefixOf ns))

section Second

variable {env : PassEnv} {ns : String} {s : Registry} {k : String} {rs : ReplicaSet}

/-- **A settled ReplicaSet is put back as it was.** -/
theorem leaves_settled (nodes : List Node) (hstored : s.lookup k = some (.replicaSet rs))
    (h : Replicated ns rs s) :
    (reconcileReplicaSet env ns nodes (k, .replicaSet rs)).Leaves (fun _ s' => s' = s) s := by
  have hcount : currentCount rs (s.scan fun key => startsWith key (podPrefixOf ns)) =
      rs.spec.replicas := by
    rw [currentCount, ← podsIn, h.count, UInt32.ofNat_toNat]
  have hscale : scalePods env ns k rs nodes (s.scan fun key => startsWith key (podPrefixOf ns)) =
      pure () := by
    simp only [scalePods, hcount, UInt32.lt_irrefl, if_false]
  have hput : (Prog.put k (Object.replicaSet { rs with
      status := replicaSetStatus rs.id (s.scan fun key => startsWith key (podPrefixOf ns)) })).Leaves
        (fun _ s' => s' = s) s := by
    refine Prog.Runs.put (fun _ => trivial) fun _ => KeyValue.ext_lookup fun key => ?_
    rw [← h.status, KeyValue.lookup_insert]
    split_ifs with hkey
    · rw [hkey, hstored]
    · rfl
  refine Prog.Runs.bind (Prog.Runs.list trivial ?_)
  have hskip : ∀ f : Unit → Program Unit, (pure () >>= f) = f () := fun _ => rfl
  rw [hscale, hskip]
  exact Prog.Runs.bind (Prog.Runs.list trivial hput)

/-- **Nothing is left to do.** -/
theorem leaves_same (hall : ∀ k rs, ListedIn ns s k rs → Replicated ns rs s) :
    (reconcileReplicaSetNamespace env ns).Leaves (fun _ s' => s' = s) s := by
  refine Prog.Runs.bind (Prog.Runs.list trivial (Prog.Runs.bind (Prog.Runs.list trivial ?_)))
  refine (Prog.Runs.forEach (fun rest s' => s' = s ∧ ∀ e ∈ rest, s.lookup e.1 = some e.2 ∧
    startsWith e.1 (replicaSetPrefixOf ns) = true) (fun e rest s' hs' => ?_)
    ⟨rfl, fun e he => KeyValue.mem_scan.mp he⟩).mono fun _ s' hs' => hs'.1
  obtain ⟨rfl, hlisted⟩ := hs'
  have hrest : ∀ e' ∈ rest, s'.lookup e'.1 = some e'.2 ∧
      startsWith e'.1 (replicaSetPrefixOf ns) = true :=
    fun e' he' => hlisted e' (List.mem_cons_of_mem e he')
  obtain ⟨k, v⟩ := e
  cases hrs : v.asReplicaSet with
  | none =>
      rw [reconcileReplicaSet, hrs]
      exact ⟨rfl, hrest⟩
  | some rs =>
      obtain rfl := Object.asReplicaSet_eq_some.mp hrs
      obtain ⟨hstored, hbelow⟩ := hlisted _ List.mem_cons_self
      exact (leaves_settled _ hstored (hall k rs ⟨hstored, hbelow⟩)).mono
        fun _ s'' hs'' => ⟨hs'', hrest⟩

end Second

/-! ## Exact and idempotent -/

/-- The store after a pass over a namespace that runs alone. -/
def afterNamespace (env : PassEnv) (ns : String) (s : Registry) : Registry :=
  (reconcileReplicaSetNamespace env ns).after s

/-- What a pass leaves of one ReplicaSet. -/
structure MadeExact (ns k : String) (rs : ReplicaSet) (s s' : Registry) : Prop where
  pods : BroughtTo rs (podsIn rs.id ns s) (podsIn rs.id ns s')
  status : ∃ status, s'.lookup k = some (.replicaSet { rs with status := status }) ∧
    Counts status (podsIn rs.id ns s')

/-- **A ReplicaSet pass is exact and idempotent.**  If the ids of the ReplicaSets of a namespace are
distinct, its pods fewer than 2³² and the names of new pods fresh, then a pass that runs alone ends
without an error and brings every ReplicaSet to its replicas, with a status that counts its pods.
Pods of other owners, or of none, stay as they are, and a second pass leaves the whole store as it
is. -/
theorem replicaSet_pass_exact (env env' : PassEnv) (ns : String) (s : Registry)
    (hids : DistinctIds ns s)
    (hfew : (s.scan fun key => startsWith key (podPrefixOf ns)).length < 2 ^ 32)
    (hfresh : (reconcileReplicaSetNamespace env ns).Each FreshPods s) :
    ((reconcileReplicaSetNamespace env ns).exec [] s).1 = .ok () ∧
      (∀ k rs, ListedIn ns s k rs → MadeExact ns k rs s (afterNamespace env ns s)) ∧
      (∀ key p, (∀ k rs, ListedIn ns s k rs → p.ownerRef ≠ some rs.id) →
        ((afterNamespace env ns s).lookup key = some (.pod p) ↔ s.lookup key = some (.pod p))) ∧
      afterNamespace env' ns (afterNamespace env ns s) = afterNamespace env ns s := by
  obtain ⟨u, hok, hleft⟩ := ((runs_pass hids).discharge hfresh).exec
  have hshort : ∀ id, (podsIn id ns s).length < 2 ^ 32 :=
    fun id => lt_of_le_of_lt (List.length_filterMap_le _ _) hfew
  have hbrought : ∀ k rs, ListedIn ns s k rs →
      BroughtTo rs (podsIn rs.id ns s) (podsIn rs.id ns (afterNamespace env ns s)) :=
    fun k rs hlisted => (hleft.done k rs hlisted List.not_mem_nil).2.brought (hshort rs.id)
  refine ⟨hok, fun k rs hlisted => ⟨hbrought k rs hlisted, _,
    (hleft.done k rs hlisted List.not_mem_nil).1, counts_replicaSetStatus ?_⟩, hleft.foreign, ?_⟩
  · rw [← afterNamespace, (hbrought k rs hlisted).exact]
    exact rs.spec.replicas.toNat_lt
  · refine (leaves_same fun k rs' hlisted' => ?_).after
    obtain ⟨rs, hlisted, rfl⟩ := hleft.listed_back hlisted'
    exact ⟨(hbrought k rs hlisted).exact, rfl⟩

/-! ## Two ReplicaSets -/

/-- A ReplicaSet without pods. -/
def bareReplicaSet (id name : String) (replicas : UInt32) : ReplicaSet where
  id := id
  name := name
  ns := "default"
  spec := ⟨replicas, [("app", name)], emptyTemplate⟩
  status := ReplicaSetStatus.default
  ownerRef := none
  templateHash := ""
  createdAt := 0

/-- One of them lacks a pod, the other one asks for none. -/
def twoReplicaSets : Registry :=
  ((∅ : Registry).insert (replicaSetKey "default" "api")
    (.replicaSet (bareReplicaSet "rs1" "api" 1))).insert
    (replicaSetKey "default" "web") (.replicaSet (bareReplicaSet "rs2" "web" 0))

/-- Both are brought to their replicas, and stay there. -/
theorem replicaSet_pass_exact_two :
    MadeExact "default" (replicaSetKey "default" "api") (bareReplicaSet "rs1" "api" 1) twoReplicaSets
        (afterNamespace quietEnv "default" twoReplicaSets) ∧
      afterNamespace quietEnv "default" (afterNamespace quietEnv "default" twoReplicaSets) =
        afterNamespace quietEnv "default" twoReplicaSets := by
  have h := replicaSet_pass_exact quietEnv quietEnv "default" twoReplicaSets (by decide)
    (by decide) (by decide)
  exact ⟨h.2.1 _ _ ⟨by decide, by decide⟩, h.2.2.2⟩

end K3rs
