import K3rs.Cluster.Convergence
import K3rs.Cluster.ReplicaSets

/-!
# Lone passes of the ReplicaSet controller

What one pass of `ReplicaSetController` does to the pods when nobody else writes to the store and
the names of new pods are fresh.

For one ReplicaSet it is this: the newest pods are deleted if there are too many, and new ones are
created if there are too few (`Rescaled`).  It touches no pod of another owner.
-/

namespace K3rs

open Programs

/-! ## Pods of an owner -/

/-- The pods of a namespace that an owner has. -/
def podsIn (id ns : String) (s : Registry) : List (String × Pod) :=
  ownedPods id (s.scan fun key => startsWith key (podPrefixOf ns))

section Pods

variable {id ns : String} {s s' : Registry}

theorem mem_podsIn {e : String × Pod} : e ∈ podsIn id ns s ↔
    s.lookup e.1 = some (.pod e.2) ∧ startsWith e.1 (podPrefixOf ns) = true ∧
      e.2.ownerRef = some id := by
  rw [podsIn, mem_ownedPods, KeyValue.mem_scan, and_assoc]

theorem nodup_podsIn (id ns : String) (s : Registry) : (podsIn id ns s).Nodup := by
  refine List.Nodup.of_map Prod.fst (KeyValue.nodup_filterMap (fun e e' he => ?_) (s.nodup_scan _))
  obtain ⟨p, -, hif⟩ := Option.bind_eq_some_iff.mp he
  split_ifs at hif
  rw [← Option.some_inj.mp hif]

theorem sorted_podsIn (id ns : String) (s : Registry) :
    (podsIn id ns s).Pairwise fun a b => a.1 < b.1 := by
  rw [podsIn, ownedPods, List.pairwise_filterMap]
  refine (s.sorted.sublist List.filter_sublist).imp fun hlt a ha b hb => ?_
  obtain ⟨p, -, hif⟩ := Option.bind_eq_some_iff.mp ha
  obtain ⟨p', -, hif'⟩ := Option.bind_eq_some_iff.mp hb
  split_ifs at hif hif'
  rw [← Option.some_inj.mp hif, ← Option.some_inj.mp hif']
  exact hlt

/-- Both stores have the same pods of an owner. -/
def SamePods (id : String) (s s' : Registry) : Prop :=
  ∀ key p, p.ownerRef = some id →
    (s'.lookup key = some (.pod p) ↔ s.lookup key = some (.pod p))

theorem SamePods.podsIn_eq (h : SamePods id s s') : podsIn id ns s' = podsIn id ns s := by
  refine KeyValue.eq_of_sorted (sorted_podsIn id ns s') (sorted_podsIn id ns s) fun e => ?_
  rw [mem_podsIn, mem_podsIn]
  constructor
  · rintro ⟨hlookup, hbelow, howner⟩
    exact ⟨(h e.1 e.2 howner).mp hlookup, hbelow, howner⟩
  · rintro ⟨hlookup, hbelow, howner⟩
    exact ⟨(h e.1 e.2 howner).mpr hlookup, hbelow, howner⟩

theorem SamePods.trans {s'' : Registry} (h : SamePods id s s') (h' : SamePods id s' s'') :
    SamePods id s s'' := fun key p howner => (h' key p howner).trans (h key p howner)

/-- A pod is created. -/
theorem podsIn_insert {key : String} {p : Pod} (hnone : s.lookup key = none)
    (hbelow : startsWith key (podPrefixOf ns) = true) (howner : p.ownerRef = some id) :
    (podsIn id ns (s.insert key (.pod p))).Perm ((key, p) :: podsIn id ns s) := by
  have hnot : (key, p) ∉ podsIn id ns s :=
    fun hmem => nomatch hnone.symm.trans (mem_podsIn.mp hmem).1
  refine (List.perm_ext_iff_of_nodup (nodup_podsIn _ _ _)
    (List.nodup_cons.mpr ⟨hnot, nodup_podsIn _ _ _⟩)).mpr fun e => ?_
  rw [List.mem_cons, mem_podsIn, mem_podsIn, KeyValue.lookup_insert]
  by_cases hkey : e.1 = key
  · rw [if_pos hkey]
    constructor
    · rintro ⟨hlookup, -, -⟩
      exact Or.inl (Prod.ext hkey (Object.pod.inj (Option.some_inj.mp hlookup)).symm)
    · rintro (rfl | ⟨hlookup, -⟩)
      · exact ⟨rfl, hbelow, howner⟩
      · rw [hkey, hnone] at hlookup
        exact nomatch hlookup
  · rw [if_neg hkey]
    refine ⟨Or.inr, fun h => h.resolve_left ?_⟩
    rintro rfl
    exact hkey rfl

/-- A pod is deleted. -/
theorem podsIn_erase {e : String × Pod} (he : e ∈ podsIn id ns s) :
    (podsIn id ns s).Perm (e :: podsIn id ns (s.erase e.1)) := by
  have hnot : e ∉ podsIn id ns (s.erase e.1) := by
    intro hmem
    have hlookup := (mem_podsIn.mp hmem).1
    rw [KeyValue.lookup_erase_self] at hlookup
    exact nomatch hlookup
  refine (List.perm_ext_iff_of_nodup (nodup_podsIn _ _ _)
    (List.nodup_cons.mpr ⟨hnot, nodup_podsIn _ _ _⟩)).mpr fun e' => ?_
  rw [List.mem_cons, mem_podsIn, mem_podsIn, KeyValue.lookup_erase]
  by_cases hkey : e'.1 = e.1
  · rw [if_pos hkey]
    constructor
    · rintro ⟨hlookup, -, -⟩
      rw [hkey, (mem_podsIn.mp he).1] at hlookup
      exact Or.inl (Prod.ext hkey (Object.pod.inj (Option.some_inj.mp hlookup)).symm)
    · rintro (rfl | ⟨hlookup, -⟩)
      · exact mem_podsIn.mp he
      · exact nomatch hlookup
  · rw [if_neg hkey]
    refine ⟨Or.inr, fun h => h.resolve_left ?_⟩
    rintro rfl
    exact hkey rfl

end Pods

/-! ## What a ReplicaSet leaves alone -/

/-- Nothing, or a pod of the owner. -/
def PodOf (id : String) (v : Option Object) : Prop := ∀ w, v = some w → ∃ p, w = .pod p ∧ p.ownerRef = some id

/-- All that a pass over the ReplicaSet under `k` does: it creates and deletes pods that it owns,
and puts back its status. -/
def Handles (rs : ReplicaSet) (k : String) (s s' : Registry) : Prop :=
  ∀ key, s'.lookup key = s.lookup key ∨
    (IsPodKey key ∧ PodOf rs.id (s.lookup key) ∧ PodOf rs.id (s'.lookup key)) ∨
    (key = k ∧ ∃ status, s'.lookup key = some (.replicaSet { rs with status := status }))

section Handling

variable {rs : ReplicaSet} {k : String} {s s₁ s' : Registry}

theorem handles_refl (rs : ReplicaSet) (k : String) (s : Registry) : Handles rs k s s :=
  fun _ => Or.inl rfl

/-- One more pod is written or removed. -/
theorem Handles.pod {key : String} (h : Handles rs k s s₁) (hkey : IsPodKey key) (hne : key ≠ k)
    (hold : PodOf rs.id (s₁.lookup key)) (hnew : PodOf rs.id (s'.lookup key))
    (hsame : ∀ key', key' ≠ key → s'.lookup key' = s₁.lookup key') : Handles rs k s s' := by
  intro key'
  by_cases heq : key' = key
  · subst heq
    rcases h key' with hkeep | ⟨-, hbefore, -⟩ | ⟨hk, -⟩
    · exact Or.inr (Or.inl ⟨hkey, hkeep ▸ hold, hnew⟩)
    · exact Or.inr (Or.inl ⟨hkey, hbefore, hnew⟩)
    · exact absurd hk hne
  · rw [hsame key' heq]
    exact h key'

theorem ne_of_isPodKey {key : String} (hkey : IsPodKey key) (hk : IsReplicaSetKey k) : key ≠ k := by
  rintro rfl
  exact nomatch (not_startsWith_of_startsWith hkey (by decide) (by decide)).symm.trans hk

/-- One of its pods is removed. -/
theorem Handles.erase {key : String} {p : Pod} (h : Handles rs k s s₁)
    (hlookup : s₁.lookup key = some (.pod p)) (hkey : IsPodKey key) (howner : p.ownerRef = some rs.id)
    (hk : IsReplicaSetKey k) : Handles rs k s (s₁.erase key) := by
  refine h.pod hkey (ne_of_isPodKey hkey hk) ?_ ?_ fun key' hne => KeyValue.lookup_erase_of_ne hne
  · rw [hlookup]
    rintro w hw
    obtain rfl := Option.some_inj.mp hw
    exact ⟨p, rfl, howner⟩
  · rw [KeyValue.lookup_erase_self]
    exact fun w hw => nomatch hw

/-- The status is put back. -/
theorem Handles.status (h : Handles rs k s s₁) (status : ReplicaSetStatus) :
    Handles rs k s (s₁.insert k (.replicaSet { rs with status := status })) := by
  intro key
  rw [KeyValue.lookup_insert]
  split_ifs with hkey
  · exact Or.inr (Or.inr ⟨hkey, status, rfl⟩)
  · exact h key

/-- Pods that it does not own are not touched. -/
theorem Handles.pod_iff (h : Handles rs k s s') (hk : s.lookup k = some (.replicaSet rs))
    {key : String} {p : Pod} (hne : p.ownerRef ≠ some rs.id) :
    s'.lookup key = some (.pod p) ↔ s.lookup key = some (.pod p) := by
  have hnot : ∀ {v}, PodOf rs.id v → v ≠ some (.pod p) := by
    rintro v hv rfl
    obtain ⟨p', hp', howner'⟩ := hv _ rfl
    obtain rfl := Object.pod.inj hp'
    exact hne howner'
  rcases h key with hsame | ⟨-, hbefore, hafter⟩ | ⟨rfl, status, hstatus⟩
  · rw [hsame]
  · exact iff_of_false (hnot hafter) (hnot hbefore)
  · rw [hstatus, hk]
    exact iff_of_false (fun heq => nomatch heq) fun heq => nomatch heq

/-- Pods of other owners are not touched. -/
theorem Handles.samePods (h : Handles rs k s s') (hk : s.lookup k = some (.replicaSet rs)) {id : String}
    (hne : id ≠ rs.id) : SamePods id s s' := by
  intro key p howner
  refine h.pod_iff hk fun howner' => hne ?_
  exact Option.some_inj.mp (howner.symm.trans howner')

/-- What is not a pod stays, but for the status of the ReplicaSet. -/
theorem Handles.lookup_of_not_podKey (h : Handles rs k s s') {key : String} (hkey : ¬IsPodKey key)
    (hne : key ≠ k) : s'.lookup key = s.lookup key := by
  rcases h key with hsame | ⟨hpod, -⟩ | ⟨hk, -⟩
  · exact hsame
  · exact absurd hpod hkey
  · exact absurd hk hne

end Handling

/-! ## Scaling pods -/

/-- The number of pods as a pass counts them. -/
def counted (pods : List (String × Pod)) : ℕ := pods.length % 2 ^ 32

/-- The pods that a pass keeps: all but the newest of those that are too many. -/
def keptPods (rs : ReplicaSet) (pods : List (String × Pod)) : List (String × Pod) :=
  (newestFirst pods).drop (counted pods - rs.spec.replicas.toNat)

/-- The pods that a pass deletes. -/
def deletedPods (rs : ReplicaSet) (pods : List (String × Pod)) : List (String × Pod) :=
  (newestFirst pods).take (counted pods - rs.spec.replicas.toNat)

/-- A pod that a pass creates. -/
def IsNewPod (env : PassEnv) (ns k : String) (rs : ReplicaSet) (nodes : List Node) (p : Pod) : Prop :=
  ∃ i, p = (newPod (env.uuid k i) (env.now k i) ns rs).place env nodes

/-- **The pods of a ReplicaSet before and after a pass.** -/
def Rescaled (env : PassEnv) (ns k : String) (rs : ReplicaSet) (nodes : List Node)
    (pods pods' : List (String × Pod)) : Prop :=
  ∃ new : List (String × Pod), pods'.Perm (new ++ keptPods rs pods) ∧
    new.length = rs.spec.replicas.toNat - counted pods ∧ ∀ e ∈ new, IsNewPod env ns k rs nodes e.2

/-- The names of new pods are fresh. -/
def FreshPods (s : Registry) (o : Op String Object) : Prop :=
  match o with
  | .put key (.pod _) => s.lookup key = none
  | _ => True

instance (s : Registry) (o : Op String Object) : Decidable (FreshPods s o) :=
  match o with
  | .put key (.pod _) => inferInstanceAs (Decidable (s.lookup key = none))
  | .put _ (.deployment _) | .put _ (.replicaSet _) | .put _ (.hpa _) | .put _ (.node _)
  | .put _ (.job _) | .put _ (.daemonSet _) | .put _ (.vpc _) | .put _ (.other _)
  | .get _ | .list _ | .delete _ => inferInstanceAs (Decidable True)

/-- A pod is about to be created for a ReplicaSet that was listed in `s`. -/
structure CreatesAt (env : PassEnv) (ns k : String) (rs : ReplicaSet) (nodes : List Node)
    (s s₁ : Registry) (key : String) (p : Pod) : Prop where
  handles : Handles rs k s s₁
  fresh : s₁.lookup key = none
  isNew : IsNewPod env ns k rs nodes p
  few : ∃ new : List (String × Pod), (podsIn rs.id ns s₁).Perm (new ++ podsIn rs.id ns s) ∧
    (∀ e ∈ new, IsNewPod env ns k rs nodes e.2) ∧
    new.length < rs.spec.replicas.toNat - counted (podsIn rs.id ns s)

/-- A pod is about to be deleted for a ReplicaSet that was listed in `s`. -/
structure DeletesAt (ns k : String) (rs : ReplicaSet) (s s₁ : Registry) (key : String) : Prop where
  handles : Handles rs k s s₁
  excess : rs.spec.replicas.toNat < counted (podsIn rs.id ns s)
  many : ∃ e rest, key = e.1 ∧
    (podsIn rs.id ns s₁).Perm (e :: (rest ++ keptPods rs (podsIn rs.id ns s)))

section Scaling

variable {env : PassEnv} {ns k : String} {rs : ReplicaSet} {nodes : List Node} {s : Registry}
  {G : Registry → Op String Object → Prop}

theorem IsNewPod.ownerRef {p : Pod} (h : IsNewPod env ns k rs nodes p) : p.ownerRef = some rs.id := by
  obtain ⟨i, rfl⟩ := h
  exact Pod.ownerRef_place env nodes _

/-- **Pods are created**, one after the other. -/
theorem runs_createPods (hk : IsReplicaSetKey k)
    (hput : ∀ s₁ key p, CreatesAt env ns k rs nodes s s₁ key p → G s₁ (.put key (.pod p))) {n : ℕ}
    (hn : n = rs.spec.replicas.toNat - counted (podsIn rs.id ns s)) :
    (Prog.forEach (createPod env ns k rs nodes) (List.range n)).Runs FreshPods G (fun _ s' =>
      Handles rs k s s' ∧ ∃ new : List (String × Pod),
        (podsIn rs.id ns s').Perm (new ++ podsIn rs.id ns s) ∧
        (∀ e ∈ new, IsNewPod env ns k rs nodes e.2) ∧ new.length = n) s := by
  refine (Prog.Runs.forEach (fun rest s₁ => Handles rs k s s₁ ∧ ∃ new : List (String × Pod),
    (podsIn rs.id ns s₁).Perm (new ++ podsIn rs.id ns s) ∧
    (∀ e ∈ new, IsNewPod env ns k rs nodes e.2) ∧ new.length + rest.length = n)
    (fun i rest s₁ hs₁ => ?_) ⟨handles_refl rs k s, [], List.Perm.refl _, ?_, ?_⟩).mono
    fun _ s' hs' => hs'
  · obtain ⟨hhandles, new, hperm, hnew, hlength⟩ := hs₁
    obtain ⟨p, hp⟩ : ∃ p, p = (newPod (env.uuid k i) (env.now k i) ns rs).place env nodes := ⟨_, rfl⟩
    have hpod : IsNewPod env ns k rs nodes p := ⟨i, hp⟩
    have hprog : createPod env ns k rs nodes i = Prog.put (podKey ns p.name) (.pod p) := hp ▸ rfl
    have hkey := isPodKey_key ns p.name
    rw [List.length_cons] at hlength
    rw [hprog]
    refine Prog.Runs.put (fun hfresh => ?_) fun hfresh => ⟨?_, (podKey ns p.name, p) :: new, ?_, ?_, ?_⟩
    · exact hput s₁ _ _ ⟨hhandles, hfresh, hpod, new, hperm, hnew, by omega⟩
    · refine hhandles.pod hkey (ne_of_isPodKey hkey hk) ?_ ?_
        fun key' hne => KeyValue.lookup_insert_of_ne hne
      · exact fun w hw => nomatch hw.symm.trans hfresh
      · rw [KeyValue.lookup_insert_self]
        rintro w hw
        obtain rfl := Option.some_inj.mp hw
        exact ⟨_, rfl, hpod.ownerRef⟩
    · exact (podsIn_insert hfresh (startsWith_append _ _) hpod.ownerRef).trans (hperm.cons _)
    · intro e he
      rcases List.mem_cons.mp he with rfl | he
      · exact hpod
      · exact hnew e he
    · rw [List.length_cons]
      omega
  · exact fun e he => absurd he List.not_mem_nil
  · rw [List.length_range, List.length_nil, Nat.zero_add]

/-- **Pods are deleted**, one after the other. -/
theorem runs_deletePods (hk : IsReplicaSetKey k)
    (hexcess : rs.spec.replicas.toNat < counted (podsIn rs.id ns s))
    (hdelete : ∀ s₁ key, DeletesAt ns k rs s s₁ key → G s₁ (.delete key)) :
    (Prog.forEach (fun e => Prog.delete e.1) (deletedPods rs (podsIn rs.id ns s))).Runs FreshPods G
      (fun _ s' => Handles rs k s s' ∧
        (podsIn rs.id ns s').Perm (keptPods rs (podsIn rs.id ns s))) s := by
  refine (Prog.Runs.forEach (fun rest s₁ => Handles rs k s s₁ ∧
    (podsIn rs.id ns s₁).Perm (rest ++ keptPods rs (podsIn rs.id ns s)))
    (fun e rest s₁ hs₁ => ?_) ⟨handles_refl rs k s, ?_⟩).mono fun _ s' hs' => hs'
  · obtain ⟨hhandles, hperm⟩ := hs₁
    have he : e ∈ podsIn rs.id ns s₁ := hperm.mem_iff.mpr List.mem_cons_self
    obtain ⟨hlookup, hbelow, howner⟩ := mem_podsIn.mp he
    refine Prog.Runs.delete (fun _ => hdelete s₁ e.1 ⟨hhandles, hexcess, e, rest, rfl, hperm⟩)
      fun _ => ⟨hhandles.erase hlookup (isPodKey_of_listed hbelow) howner hk, ?_⟩
    exact ((podsIn_erase he).symm.trans hperm).cons_inv
  · rw [deletedPods, keptPods, List.take_append_drop]
    exact (List.mergeSort_perm _ _).symm

/-- **The pods of a ReplicaSet are brought in line with its replicas.** -/
theorem runs_scalePods (hk : IsReplicaSetKey k)
    (hput : ∀ s₁ key p, CreatesAt env ns k rs nodes s s₁ key p → G s₁ (.put key (.pod p)))
    (hdelete : ∀ s₁ key, DeletesAt ns k rs s s₁ key → G s₁ (.delete key)) :
    (scalePods env ns k rs nodes (s.scan fun key => startsWith key (podPrefixOf ns))).Runs FreshPods G
      (fun _ s' => Handles rs k s s' ∧
        Rescaled env ns k rs nodes (podsIn rs.id ns s) (podsIn rs.id ns s')) s := by
  have hcount : (currentCount rs (s.scan fun key => startsWith key (podPrefixOf ns))).toNat =
      counted (podsIn rs.id ns s) := by
    rw [currentCount, UInt32.toNat_ofNat']
    rfl
  have hall : (newestFirst (podsIn rs.id ns s)).Perm (podsIn rs.id ns s) := List.mergeSort_perm _ _
  simp only [scalePods]
  split_ifs with hfew hmany
  · rw [UInt32.lt_iff_toNat_lt, hcount] at hfew
    have hn : (rs.spec.replicas - currentCount rs (s.scan fun key =>
        startsWith key (podPrefixOf ns))).toNat =
          rs.spec.replicas.toNat - counted (podsIn rs.id ns s) := by
      rw [UInt32.toNat_sub_of_le _ _ (UInt32.le_iff_toNat_le.mpr (hcount ▸ hfew.le)), hcount]
    refine (runs_createPods hk hput hn).mono fun _ s' hs' => ⟨hs'.1, ?_⟩
    obtain ⟨new, hperm, hnew, hlength⟩ := hs'.2
    refine ⟨new, hperm.trans (List.Perm.append_left new ?_), hlength.trans hn, hnew⟩
    rw [keptPods, Nat.sub_eq_zero_of_le hfew.le, List.drop_zero]
    exact hall.symm
  · rw [UInt32.lt_iff_toNat_lt, hcount] at hmany
    have hn : (currentCount rs (s.scan fun key => startsWith key (podPrefixOf ns)) -
        rs.spec.replicas).toNat = counted (podsIn rs.id ns s) - rs.spec.replicas.toNat := by
      rw [UInt32.toNat_sub_of_le _ _ (UInt32.le_iff_toNat_le.mpr (hcount ▸ hmany.le)), hcount]
    rw [hn]
    refine (runs_deletePods hk hmany hdelete).mono fun _ s' hs' => ⟨hs'.1, [], hs'.2, ?_, ?_⟩
    · rw [Nat.sub_eq_zero_of_le hmany.le, List.length_nil]
    · exact fun e he => absurd he List.not_mem_nil
  · rw [UInt32.lt_iff_toNat_lt, hcount] at hfew hmany
    refine ⟨handles_refl rs k s, [], ?_, ?_, fun e he => absurd he List.not_mem_nil⟩
    · rw [keptPods, Nat.sub_eq_zero_of_le (Nat.not_lt.mp hmany), List.drop_zero]
      exact hall.symm
    · rw [Nat.sub_eq_zero_of_le (Nat.not_lt.mp hfew), List.length_nil]

end Scaling

/-- The operation neither writes nor removes a pod. -/
def SparesPods : Op String Object → Prop
  | .put _ (.pod _) => False
  | .delete _ => False
  | _ => True

/-- The ReplicaSet is as it was, but for the status, which is that of its pods. -/
def Recounted (ns k : String) (rs : ReplicaSet) (s : Registry) : Prop :=
  s.lookup k = some (.replicaSet { rs with
    status := replicaSetStatus rs.id (s.scan fun key => startsWith key (podPrefixOf ns)) })

/-- **A pass over one ReplicaSet.** -/
theorem runs_reconcileReplicaSet {env : PassEnv} {ns k : String} {rs : ReplicaSet} {nodes : List Node}
    {s : Registry} {G : Registry → Op String Object → Prop} (hk : IsReplicaSetKey k)
    (hspares : ∀ s o, SparesPods o → G s o)
    (hput : ∀ s₁ key p, CreatesAt env ns k rs nodes s s₁ key p → G s₁ (.put key (.pod p)))
    (hdelete : ∀ s₁ key, DeletesAt ns k rs s s₁ key → G s₁ (.delete key)) :
    (reconcileReplicaSet env ns nodes (k, .replicaSet rs)).Runs FreshPods G (fun _ s' =>
      Handles rs k s s' ∧
        Rescaled env ns k rs nodes (podsIn rs.id ns s) (podsIn rs.id ns s') ∧
          Recounted ns k rs s') s := by
  refine Prog.Runs.bind (Prog.Runs.list (hspares _ _ trivial) (Prog.Runs.bind
    ((runs_scalePods hk hput hdelete).mono fun _ s₁ hs₁ => ?_)))
  refine Prog.Runs.bind (Prog.Runs.list (hspares _ _ trivial)
    (Prog.Runs.put (fun _ => hspares _ _ trivial) fun _ => ⟨hs₁.1.status _, ?_⟩))
  -- The status is not among the pods.
  have hscan : ∀ v, (s₁.insert k v).scan (fun key => startsWith key (podPrefixOf ns)) =
      s₁.scan fun key => startsWith key (podPrefixOf ns) := fun v =>
    KeyValue.scan_congr fun key hkey =>
      KeyValue.lookup_insert_of_ne (ne_of_isPodKey (isPodKey_of_listed hkey) hk)
  refine ⟨?_, ?_⟩
  · rw [podsIn, podsIn, hscan]
    exact hs₁.2
  · rw [Recounted, hscan]
    exact KeyValue.lookup_insert_self _ _ _

/-! ## Whole passes -/

/-- The nodes of a store, as a pass lists them. -/
def nodesIn (s : Registry) : List Node :=
  (s.scan fun key => startsWith key "/registry/nodes/").filterMap fun e => e.2.asNode

/-- ReplicaSets of a namespace that are reconciled nowhere else, and whose ids are their own. -/
structure Tracked (ns : String) (sets : List (String × ReplicaSet)) (s : Registry) : Prop where
  stored : ∀ e ∈ sets, s.lookup e.1 = some (.replicaSet e.2)
  below : ∀ e ∈ sets, startsWith e.1 (replicaSetPrefixOf ns) = true
  single : ∀ e ∈ sets, ∀ ns', Registers s ns' → ns'.isEmpty = false →
    startsWith e.1 (replicaSetPrefixOf ns') = true → ns' = ns
  unique : ∀ e ∈ sets, ∀ key rs, s.lookup key = some (.replicaSet rs) → rs.id = e.2.id → key = e.1

/-- What has become of the ReplicaSets during a pass that began in `s₀`: those that are done have
been rescaled, the others are as they were. -/
structure Progress (env : PassEnv) (ns : String) (sets : List (String × ReplicaSet)) (s₀ : Registry)
    (done : String → Prop) (s : Registry) : Prop where
  namespaces : SameNamespaces s₀ s
  nodes : ∀ key, startsWith key "/registry/nodes/" = true → s.lookup key = s₀.lookup key
  ids : ∀ key rs, s.lookup key = some (.replicaSet rs) →
    ∃ rs₀, s₀.lookup key = some (.replicaSet rs₀) ∧ rs.id = rs₀.id
  waiting : ∀ e ∈ sets, ¬done e.1 → s.lookup e.1 = some (.replicaSet e.2) ∧ SamePods e.2.id s₀ s
  finished : ∀ e ∈ sets, done e.1 → Rescaled env ns e.1 e.2 (nodesIn s₀) (podsIn e.2.id ns s₀)
    (podsIn e.2.id ns s)

section Pass

variable {env : PassEnv} {ns : String} {sets : List (String × ReplicaSet)} {s₀ s s' : Registry}
  {done : String → Prop} {k : String} {rs : ReplicaSet}

/-- Under a key there is one ReplicaSet of the list. -/
theorem Tracked.eq_of_key (h : Tracked ns sets s₀) {e e' : String × ReplicaSet} (he : e ∈ sets)
    (he' : e' ∈ sets) (hkey : e.1 = e'.1) : e = e' := by
  have hboth := (h.stored e he).symm.trans (hkey ▸ h.stored e' he')
  exact Prod.ext hkey (Object.replicaSet.inj (Option.some_inj.mp hboth))

/-- The part of the invariant that no ReplicaSet touches. -/
theorem Progress.handles_common (h : Progress env ns sets s₀ done s)
    (hhandles : Handles rs k s s') (hk : IsReplicaSetKey k)
    (hstored : s.lookup k = some (.replicaSet rs)) :
    SameNamespaces s₀ s' ∧
      (∀ key, startsWith key "/registry/nodes/" = true → s'.lookup key = s₀.lookup key) ∧
      ∀ key rs', s'.lookup key = some (.replicaSet rs') →
        ∃ rs₀, s₀.lookup key = some (.replicaSet rs₀) ∧ rs'.id = rs₀.id := by
  have hsame : ∀ {dir : String}, startsWith dir "/registry/replicasets/" = false →
      startsWith "/registry/replicasets/" dir = false → startsWith dir "/registry/pods/" = false →
      startsWith "/registry/pods/" dir = false → ∀ {key}, startsWith key dir = true →
      s'.lookup key = s.lookup key := by
    intro dir hrs hrs' hpods hpods' key hkey
    refine hhandles.lookup_of_not_podKey (fun hpod => ?_) ?_
    · exact nomatch (not_startsWith_of_startsWith hkey hpods hpods').symm.trans hpod
    · rintro rfl
      exact nomatch (not_startsWith_of_startsWith hkey hrs hrs').symm.trans hk
  refine ⟨fun key hkey => ?_, fun key hkey => ?_, fun key rs' hrs' => ?_⟩
  · rw [hsame (by decide) (by decide) (by decide) (by decide) hkey]
    exact h.namespaces key hkey
  · rw [hsame (by decide) (by decide) (by decide) (by decide) hkey]
    exact h.nodes key hkey
  · rcases hhandles key with hkeep | ⟨-, -, hpod⟩ | ⟨rfl, status, hstatus⟩
    · exact h.ids key rs' (hkeep ▸ hrs')
    · obtain ⟨p, hp, -⟩ := hpod _ hrs'
      exact nomatch hp
    · obtain ⟨rs₀, hrs₀, hid⟩ := h.ids key rs hstored
      obtain rfl := Object.replicaSet.inj (Option.some_inj.mp (hstatus.symm.trans hrs'))
      exact ⟨rs₀, hrs₀, hid⟩

/-- Whose id it is. -/
theorem Progress.key_eq (h : Progress env ns sets s₀ done s) (htracked : Tracked ns sets s₀)
    (hstored : s.lookup k = some (.replicaSet rs)) {e : String × ReplicaSet} (he : e ∈ sets)
    (hid : rs.id = e.2.id) : k = e.1 := by
  obtain ⟨rs₀, hrs₀, hid₀⟩ := h.ids k rs hstored
  exact htracked.unique e he k rs₀ hrs₀ (hid₀.symm.trans hid)

/-- **Another ReplicaSet** does not concern those of the list. -/
theorem Progress.other (h : Progress env ns sets s₀ done s) (htracked : Tracked ns sets s₀)
    (hhandles : Handles rs k s s') (hk : IsReplicaSetKey k)
    (hstored : s.lookup k = some (.replicaSet rs)) (hnot : ∀ e ∈ sets, e.1 ≠ k) :
    Progress env ns sets s₀ done s' := by
  obtain ⟨hnamespaces, hnodes, hids⟩ := h.handles_common hhandles hk hstored
  have hne : ∀ e ∈ sets, e.2.id ≠ rs.id :=
    fun e he hid => hnot e he (h.key_eq htracked hstored he hid.symm).symm
  refine ⟨hnamespaces, hnodes, hids, fun e he hwait => ?_, fun e he hdone => ?_⟩
  · obtain ⟨hlookup, hpods⟩ := h.waiting e he hwait
    refine ⟨?_, hpods.trans (hhandles.samePods hstored (hne e he))⟩
    rw [hhandles.lookup_of_not_podKey ?_ (hnot e he), hlookup]
    exact not_isPodKey_of_replicaSet (htracked.below e he)
  · rw [(hhandles.samePods hstored (hne e he)).podsIn_eq]
    exact h.finished e he hdone

/-- **One of the list** is done. -/
theorem Progress.one (h : Progress env ns sets s₀ done s) (htracked : Tracked ns sets s₀)
    {e : String × ReplicaSet} (he : e ∈ sets) (hwait : ¬done e.1)
    (hhandles : Handles e.2 e.1 s s')
    (hrescaled : Rescaled env ns e.1 e.2 (nodesIn s₀) (podsIn e.2.id ns s) (podsIn e.2.id ns s')) :
    Progress env ns sets s₀ (fun key => done key ∨ key = e.1) s' := by
  obtain ⟨hstored, hpods⟩ := h.waiting e he hwait
  have hk := isReplicaSetKey_of_listed (htracked.below e he)
  obtain ⟨hnamespaces, hnodes, hids⟩ := h.handles_common hhandles hk hstored
  have hne : ∀ e' ∈ sets, e'.1 ≠ e.1 → e'.2.id ≠ e.2.id :=
    fun e' he' hkey hid => hkey (h.key_eq htracked hstored he' hid.symm).symm
  refine ⟨hnamespaces, hnodes, hids, fun e' he' hwait' => ?_, fun e' he' hdone => ?_⟩
  · rw [not_or] at hwait'
    obtain ⟨hlookup, hpods'⟩ := h.waiting e' he' hwait'.1
    refine ⟨?_, hpods'.trans (hhandles.samePods hstored (hne e' he' hwait'.2))⟩
    rw [hhandles.lookup_of_not_podKey ?_ hwait'.2, hlookup]
    exact not_isPodKey_of_replicaSet (htracked.below e' he')
  · by_cases hkey : e'.1 = e.1
    · rw [htracked.eq_of_key he' he hkey, ← hpods.podsIn_eq]
      exact hrescaled
    · rw [(hhandles.samePods hstored (hne e' he' hkey)).podsIn_eq]
      exact h.finished e' he' (hdone.resolve_right hkey)

theorem Progress.congr {done' : String → Prop} (h : Progress env ns sets s₀ done s)
    (hdone : ∀ e ∈ sets, done e.1 ↔ done' e.1) : Progress env ns sets s₀ done' s :=
  ⟨h.namespaces, h.nodes, h.ids, fun e he hwait => h.waiting e he fun hd => hwait ((hdone e he).mp hd),
    fun e he hd => h.finished e he ((hdone e he).mpr hd)⟩

/-- A pass begins. -/
theorem progress_start (htracked : Tracked ns sets s₀) :
    Progress env ns sets s₀ (fun _ => False) s₀ :=
  ⟨fun _ _ => rfl, fun _ _ => rfl, fun _ rs hrs => ⟨rs, hrs, rfl⟩,
    fun e he _ => ⟨htracked.stored e he, fun _ _ _ => Iff.rfl⟩, fun _ _ hdone => hdone.elim⟩

/-- The nodes are listed as they were at the beginning. -/
theorem Progress.nodesIn_eq (h : Progress env ns sets s₀ done s) : nodesIn s = nodesIn s₀ := by
  rw [nodesIn, nodesIn, KeyValue.scan_congr h.nodes]

end Pass

/-- What a pass guarantees of the writes and removals of pods: those of the ReplicaSets of a list,
in the state in which they are made, and those of others. -/
structure Guarantees (env : PassEnv) (ns : String) (sets : List (String × ReplicaSet))
    (s₀ : Registry) (G : Registry → Op String Object → Prop) : Prop where
  spares : ∀ s o, SparesPods o → G s o
  foreignPut : ∀ s key p, (∀ e ∈ sets, p.ownerRef ≠ some e.2.id) → G s (.put key (.pod p))
  foreignDelete : ∀ s key, (∀ p, s.lookup key = some (.pod p) → ∀ e ∈ sets,
    p.ownerRef ≠ some e.2.id) → G s (.delete key)
  put : ∀ e ∈ sets, ∀ s s₁ key p, Progress env ns sets s₀ (fun key => key < e.1) s →
    CreatesAt env ns e.1 e.2 (nodesIn s₀) s s₁ key p → G s₁ (.put key (.pod p))
  delete : ∀ e ∈ sets, ∀ s s₁ key, Progress env ns sets s₀ (fun key => key < e.1) s →
    DeletesAt ns e.1 e.2 s s₁ key → G s₁ (.delete key)

/-- Every listed ReplicaSet is as it was listed. -/
def Current (entries : List (String × Object)) (s : Registry) : Prop :=
  ∀ e ∈ entries, ∀ rs, e.2 = .replicaSet rs → s.lookup e.1 = some e.2

section Rule

variable {env : PassEnv} {ns : String} {sets : List (String × ReplicaSet)} {s₀ s : Registry}
  {done : String → Prop} {G : Registry → Op String Object → Prop}
  (htracked : Tracked ns sets s₀) (hG : Guarantees env ns sets s₀ G)

theorem Current.tail {e : String × Object} {rest : List (String × Object)} (h : Current (e :: rest) s) :
    Current rest s := fun e' he' => h e' (List.mem_cons_of_mem e he')

/-- The ReplicaSets that remain are not touched. -/
theorem Current.handles {k : String} {rs : ReplicaSet} {rest : List (String × Object)} {s' : Registry}
    (h : Current rest s) (hhandles : Handles rs k s s')
    (hkeys : ∀ e ∈ rest, IsReplicaSetKey e.1) (hnot : k ∉ rest.map Prod.fst) : Current rest s' := by
  intro e he rs' hrs'
  rw [hhandles.lookup_of_not_podKey (fun hpod => ne_of_isPodKey hpod (hkeys e he) rfl) ?_]
  · exact h e he rs' hrs'
  · rintro rfl
    exact hnot (List.mem_map_of_mem he)

include htracked hG

/-- A ReplicaSet that is not on the list. -/
theorem runs_other {ns' k : String} {rs : ReplicaSet} {nodes : List Node} (hk : IsReplicaSetKey k)
    (hstored : s.lookup k = some (.replicaSet rs)) (hnot : ∀ e ∈ sets, e.1 ≠ k)
    (h : Progress env ns sets s₀ done s) :
    (reconcileReplicaSet env ns' nodes (k, .replicaSet rs)).Runs FreshPods G (fun _ s' =>
      Handles rs k s s' ∧ Progress env ns sets s₀ done s') s := by
  have hforeign : ∀ {p : Pod}, p.ownerRef = some rs.id → ∀ e ∈ sets, p.ownerRef ≠ some e.2.id := by
    intro p howner e he howner'
    have hid : rs.id = e.2.id := Option.some_inj.mp (howner.symm.trans howner')
    exact hnot e he (h.key_eq htracked hstored he hid).symm
  refine (runs_reconcileReplicaSet hk hG.spares (fun s₁ key p hcreates => ?_)
    fun s₁ key hdeletes => ?_).mono fun _ s' hs' => ⟨hs'.1, h.other htracked hs'.1 hk hstored hnot⟩
  · exact hG.foreignPut s₁ key p (hforeign hcreates.isNew.ownerRef)
  · obtain ⟨e, rest, rfl, hperm⟩ := hdeletes.many
    obtain ⟨hlookup, -, howner⟩ := mem_podsIn.mp (hperm.mem_iff.mpr List.mem_cons_self)
    refine hG.foreignDelete s₁ e.1 fun p hp => ?_
    obtain rfl := Object.pod.inj (Option.some_inj.mp (hlookup.symm.trans hp))
    exact hforeign howner

/-- A ReplicaSet of the list. -/
theorem runs_one {e : String × ReplicaSet} (he : e ∈ sets)
    (h : Progress env ns sets s₀ (fun key => key < e.1) s) :
    (reconcileReplicaSet env ns (nodesIn s₀) (e.1, .replicaSet e.2)).Runs FreshPods G (fun _ s' =>
      Handles e.2 e.1 s s' ∧ Progress env ns sets s₀ (fun key => key < e.1 ∨ key = e.1) s') s := by
  have hk := isReplicaSetKey_of_listed (htracked.below e he)
  exact (runs_reconcileReplicaSet hk hG.spares (fun s₁ key p => hG.put e he s s₁ key p h)
    fun s₁ key => hG.delete e he s s₁ key h).mono
    fun _ s' hs' => ⟨hs'.1, h.one htracked he (lt_irrefl _) hs'.1 hs'.2.1⟩

/-- **A namespace other than that of the list.** -/
theorem runs_otherNamespace {ns' : String} {P : Prop} (hreg : Registers s ns')
    (hns' : ns'.isEmpty = false) (hne : ns' ≠ ns) (h : Progress env ns sets s₀ (fun _ => P) s) :
    (reconcileReplicaSetNamespace env ns').Runs FreshPods G (fun _ s' =>
      Progress env ns sets s₀ (fun _ => P) s') s := by
  refine Prog.Runs.bind (Prog.Runs.list (hG.spares _ _ trivial)
    (Prog.Runs.bind (Prog.Runs.list (hG.spares _ _ trivial) ?_)))
  refine (Prog.Runs.forEach (fun rest s' => Progress env ns sets s₀ (fun _ => P) s' ∧ Current rest s' ∧
    (rest.map Prod.fst).Nodup ∧ ∀ e ∈ rest, startsWith e.1 (replicaSetPrefixOf ns') = true)
    (fun e rest s' hs' => ?_) ⟨h, fun e he rs _ => (KeyValue.mem_scan.mp he).1, s.nodup_scan _,
      fun e he => (KeyValue.mem_scan.mp he).2⟩).mono fun _ s' hs' => hs'.1
  obtain ⟨hprogress, hcurrent, hnodup, hbelow⟩ := hs'
  obtain ⟨hnot, hrest⟩ := List.nodup_cons.mp hnodup
  have hbelow' : ∀ e' ∈ rest, startsWith e'.1 (replicaSetPrefixOf ns') = true :=
    fun e' he' => hbelow e' (List.mem_cons_of_mem e he')
  cases hrs : e.2.asReplicaSet with
  | none =>
      rw [reconcileReplicaSet, hrs]
      exact ⟨hprogress, hcurrent.tail, hrest, hbelow'⟩
  | some rs =>
      obtain ⟨k, v⟩ := e
      obtain rfl := Object.asReplicaSet_eq_some.mp hrs
      have hstart : startsWith k (replicaSetPrefixOf ns') = true := hbelow _ List.mem_cons_self
      refine (runs_other htracked hG (isReplicaSetKey_of_listed hstart)
        (hcurrent _ List.mem_cons_self rs rfl) (fun e he heq => hne ?_) hprogress).mono
        fun _ s'' hs'' => ⟨hs''.2, hcurrent.tail.handles hs''.1
          (fun e he => isReplicaSetKey_of_listed (hbelow' e he)) hnot, hrest, hbelow'⟩
      exact htracked.single e he ns' (h.namespaces.registers.mp hreg) hns' (heq ▸ hstart)

/-- What is known when some entries of the namespace of the list remain: of the ReplicaSets of the
list those before all of them are done. -/
structure SetsLeft (env : PassEnv) (ns : String) (sets : List (String × ReplicaSet)) (s₀ : Registry)
    (rest : List (String × Object)) (s : Registry) : Prop where
  progress : Progress env ns sets s₀ (fun key => ∀ x ∈ rest, key < x.1) s
  current : Current rest s
  sorted : rest.Pairwise fun x y => x.1 < y.1
  below : ∀ x ∈ rest, startsWith x.1 (replicaSetPrefixOf ns) = true
  covered : ∀ e ∈ sets, (e.1, .replicaSet e.2) ∈ rest ∨ ∀ x ∈ rest, e.1 < x.1

omit htracked hG in
/-- The next entry of the namespace has been dealt with. -/
theorem SetsLeft.tail {x : String × Object} {rest : List (String × Object)} {s' : Registry}
    (h : SetsLeft env ns sets s₀ (x :: rest) s)
    (hprogress : Progress env ns sets s₀ (fun key => key < x.1 ∨ key = x.1) s')
    (hcurrent : Current rest s') : SetsLeft env ns sets s₀ rest s' := by
  obtain ⟨hlt, hsorted⟩ := List.pairwise_cons.mp h.sorted
  have hcovered : ∀ e ∈ sets, (e.1, .replicaSet e.2) ∈ rest ∨ e.1 < x.1 ∨ e.1 = x.1 := by
    intro e he
    rcases h.covered e he with hmem | hbefore
    · rcases List.mem_cons.mp hmem with heq | hmem
      · exact Or.inr (Or.inr (congrArg Prod.fst heq))
      · exact Or.inl hmem
    · exact Or.inr (Or.inl (hbefore x List.mem_cons_self))
  have hbefore : ∀ {key}, key < x.1 ∨ key = x.1 → ∀ y ∈ rest, key < y.1 := by
    rintro key (hkey | rfl) y hy
    · exact lt_trans hkey (hlt y hy)
    · exact hlt y hy
  refine ⟨hprogress.congr fun e he => ⟨hbefore, fun hall => ?_⟩, hcurrent, hsorted,
    fun y hy => h.below y (List.mem_cons_of_mem x hy), fun e he => (hcovered e he).imp_right hbefore⟩
  rcases hcovered e he with hmem | hkey
  · exact absurd (hall _ hmem) (lt_irrefl _)
  · exact hkey

omit htracked hG in
theorem SetsLeft.progress_lt {x : String × Object} {rest : List (String × Object)}
    (h : SetsLeft env ns sets s₀ (x :: rest) s) :
    Progress env ns sets s₀ (fun key => key < x.1) s := by
  refine h.progress.congr fun e _ => ⟨fun hall => hall x List.mem_cons_self, fun hkey y hy => ?_⟩
  rcases List.mem_cons.mp hy with rfl | hy
  · exact hkey
  · exact lt_trans hkey ((List.pairwise_cons.mp h.sorted).1 y hy)

/-- **One entry of the namespace of the list.** -/
theorem runs_entry {x : String × Object} {rest : List (String × Object)}
    (h : SetsLeft env ns sets s₀ (x :: rest) s) :
    (reconcileReplicaSet env ns (nodesIn s₀) x).Runs FreshPods G
      (fun _ => SetsLeft env ns sets s₀ rest) s := by
  obtain ⟨hlt, -⟩ := List.pairwise_cons.mp h.sorted
  have hnot : x.1 ∉ rest.map Prod.fst := by
    intro hmem
    obtain ⟨y, hy, heq⟩ := List.mem_map.mp hmem
    exact absurd (heq ▸ hlt y hy) (lt_irrefl _)
  have hkeys : ∀ y ∈ rest, IsReplicaSetKey y.1 :=
    fun y hy => isReplicaSetKey_of_listed (h.below y (List.mem_cons_of_mem x hy))
  -- A ReplicaSet of the list is found as it is on the list.
  have hlisted : ∀ e ∈ sets, e.1 = x.1 → x = (e.1, .replicaSet e.2) := by
    intro e he heq
    rcases h.covered e he with hmem | hbefore
    · rcases List.mem_cons.mp hmem with hx | hmem
      · exact hx.symm
      · exact absurd (List.mem_map.mpr ⟨_, hmem, heq⟩) hnot
    · exact absurd (heq ▸ hbefore x List.mem_cons_self) (lt_irrefl _)
  by_cases hset : ∃ e ∈ sets, e.1 = x.1
  · obtain ⟨e, he, heq⟩ := hset
    obtain rfl := hlisted e he heq
    exact (runs_one htracked hG he h.progress_lt).mono fun _ s' hs' =>
      h.tail hs'.2 (h.current.tail.handles hs'.1 hkeys hnot)
  · have hne : ∀ e ∈ sets, e.1 ≠ x.1 := fun e he heq => hset ⟨e, he, heq⟩
    have hprogress : ∀ {s'}, Progress env ns sets s₀ (fun key => key < x.1) s' →
        Progress env ns sets s₀ (fun key => key < x.1 ∨ key = x.1) s' :=
      fun hs' => hs'.congr fun e he => ⟨Or.inl, fun hor => hor.resolve_right (hne e he)⟩
    cases hrs : x.2.asReplicaSet with
    | none =>
        rw [reconcileReplicaSet, hrs]
        exact h.tail (hprogress h.progress_lt) h.current.tail
    | some rs =>
        obtain ⟨k, v⟩ := x
        obtain rfl := Object.asReplicaSet_eq_some.mp hrs
        have hk := isReplicaSetKey_of_listed (h.below _ List.mem_cons_self)
        have hstored := h.current _ List.mem_cons_self rs rfl
        exact (runs_other htracked hG hk hstored hne h.progress_lt).mono fun _ s' hs' =>
          h.tail (hprogress hs'.2) (h.current.tail.handles hs'.1 hkeys hnot)

/-- **The namespace of the list.** -/
theorem runs_ownNamespace (h : Progress env ns sets s₀ (fun _ => False) s) :
    (reconcileReplicaSetNamespace env ns).Runs FreshPods G (fun _ s' =>
      Progress env ns sets s₀ (fun _ => True) s') s := by
  refine Prog.Runs.bind (Prog.Runs.list (hG.spares _ _ trivial)
    (Prog.Runs.bind (Prog.Runs.list (hG.spares _ _ trivial) ?_)))
  have hlisted : ∀ e ∈ sets,
      (e.1, .replicaSet e.2) ∈ s.scan fun key => startsWith key (replicaSetPrefixOf ns) :=
    fun e he => KeyValue.mem_scan.mpr ⟨(h.waiting e he id).1, htracked.below e he⟩
  have hstart : SetsLeft env ns sets s₀ (s.scan fun key => startsWith key (replicaSetPrefixOf ns)) s := by
    refine ⟨h.congr fun e he => ⟨False.elim, fun hall => ?_⟩, fun x hx _ _ => (KeyValue.mem_scan.mp hx).1,
      s.sorted.sublist List.filter_sublist, fun x hx => (KeyValue.mem_scan.mp hx).2,
      fun e he => Or.inl (hlisted e he)⟩
    exact absurd (hall _ (hlisted e he)) (lt_irrefl _)
  have hnodes : ((s.scan fun key => startsWith key "/registry/nodes/").filterMap fun e => e.2.asNode) =
      nodesIn s₀ := h.nodesIn_eq
  rw [hnodes]
  refine (Prog.Runs.forEach (SetsLeft env ns sets s₀)
    (fun x rest s' hs' => runs_entry htracked hG hs') hstart).mono fun _ s' hs' => ?_
  exact hs'.progress.congr fun e _ => ⟨fun _ => trivial, fun _ x hx => absurd hx List.not_mem_nil⟩

/-- **The rule for a pass**: all ReplicaSets of the list are rescaled, if their namespace is
registered. -/
theorem runs_reconcileReplicaSets : (reconcileReplicaSets env).Runs FreshPods G
    (fun _ s' => Progress env ns sets s₀ (fun _ => ns ∈ namespacesIn s₀) s') s₀ := by
  refine Prog.Runs.bind (Prog.Runs.list (hG.spares _ _ trivial) ?_)
  refine (Prog.Runs.forEach (fun rest s' =>
    Progress env ns sets s₀
      (fun _ => ns ∈ namespacesIn s₀ ∧ ns ∉ rest.map fun e => namespaceOf e.1) s' ∧
    (rest.map fun e => namespaceOf e.1).Nodup ∧ ∀ e ∈ rest, Registers s₀ (namespaceOf e.1))
    (fun e rest s' hs' => ?_) ⟨?_, ?_, fun e he => ?_⟩).mono fun _ s' hs' => ?_
  · obtain ⟨hprogress, hnodup, hreg⟩ := hs'
    rw [List.map_cons] at hprogress hnodup
    obtain ⟨hnot, hrest⟩ := List.nodup_cons.mp hnodup
    have hreg' : ∀ e' ∈ rest, Registers s₀ (namespaceOf e'.1) :=
      fun e' he' => hreg e' (List.mem_cons_of_mem e he')
    cases hempty : (namespaceOf e.1).isEmpty with
    | true =>
        rw [if_pos rfl]
        refine ⟨hprogress.congr fun _ _ => and_congr_right fun hns => ?_, hrest, hreg'⟩
        rw [List.mem_cons, not_or]
        refine and_iff_right fun heq => ?_
        rw [← heq, (mem_namespacesIn.mp hns).2] at hempty
        exact nomatch hempty
    | false =>
        rw [if_neg Bool.false_ne_true]
        by_cases heq : namespaceOf e.1 = ns
        · have hns : ns ∈ namespacesIn s₀ :=
            mem_namespacesIn.mpr (heq ▸ ⟨hreg e List.mem_cons_self, hempty⟩)
          rw [heq]
          refine (runs_ownNamespace htracked hG (hprogress.congr fun _ _ => ?_)).mono
            fun _ s'' hs'' => ⟨hs''.congr fun _ _ => ?_, hrest, hreg'⟩
          · exact iff_of_false (fun h => h.2 (List.mem_cons.mpr (Or.inl heq.symm))) id
          · exact iff_of_true trivial ⟨hns, heq ▸ hnot⟩
        · have hsame : Progress env ns sets s₀
              (fun _ => ns ∈ namespacesIn s₀ ∧ ns ∉ rest.map fun e => namespaceOf e.1) s' := by
            refine hprogress.congr fun _ _ => and_congr_right fun _ => ?_
            rw [List.mem_cons, not_or]
            exact and_iff_right (Ne.symm heq)
          refine (runs_otherNamespace htracked hG ?_ hempty heq hsame).mono
            fun _ s'' hs'' => ⟨hs'', hrest, hreg'⟩
          exact hprogress.namespaces.registers.mpr (hreg e List.mem_cons_self)
  · refine (progress_start htracked).congr fun _ _ => iff_of_false id fun h => h.2 ?_
    obtain ⟨key, v, hlookup, hdir, heq⟩ := (mem_namespacesIn.mp h.1).1
    exact List.mem_map.mpr ⟨(key, v), KeyValue.mem_scan.mpr ⟨hlookup, hdir⟩, heq⟩
  · exact nodup_namespaces s₀
  · obtain ⟨hlookup, hdir⟩ := KeyValue.mem_scan.mp he
    exact ⟨e.1, e.2, hlookup, hdir, rfl⟩
  · exact hs'.1.congr fun _ _ => and_iff_left List.not_mem_nil

end Rule

/-! ## Stores after a pass -/

/-- The store after a pass of the ReplicaSet controller that runs alone. -/
def afterReplicaSets (env : PassEnv) (s : Registry) : Registry := (reconcileReplicaSets env).after s

/-- The names of the pods that a pass creates are fresh. -/
def FreshPass (env : PassEnv) (s : Registry) : Prop := (reconcileReplicaSets env).Each FreshPods s

instance (env : PassEnv) (s : Registry) : Decidable (FreshPass env s) :=
  inferInstanceAs (Decidable ((reconcileReplicaSets env).Each FreshPods s))

instance (ns : String) (sets : List (String × ReplicaSet)) (s : Registry) :
    Decidable (Tracked ns sets s) :=
  decidable_of_iff (∀ e ∈ sets, s.lookup e.1 = some (.replicaSet e.2) ∧
    startsWith e.1 (replicaSetPrefixOf ns) = true ∧
    (∀ ns' ∈ namespacesIn s, startsWith e.1 (replicaSetPrefixOf ns') = true → ns' = ns) ∧
    ∀ row ∈ s.rows, ∀ rs ∈ row.2.asReplicaSet, rs.id = e.2.id → row.1 = e.1) (by
  constructor
  · intro h
    refine ⟨fun e he => (h e he).1, fun e he => (h e he).2.1, fun e he ns' hreg hnamed => ?_,
      fun e he key rs hrs => ?_⟩
    · exact (h e he).2.2.1 ns' (mem_namespacesIn.mpr ⟨hreg, hnamed⟩)
    · exact (h e he).2.2.2 _ (KeyValue.lookup_eq_some.mp hrs) rs rfl
  · intro h e he
    refine ⟨h.stored e he, h.below e he, fun ns' hns' => ?_, fun row hrow rs hrs => ?_⟩
    · exact h.single e he ns' (mem_namespacesIn.mp hns').1 (mem_namespacesIn.mp hns').2
    · obtain ⟨key, v⟩ := row
      obtain rfl := Object.asReplicaSet_eq_some.mp hrs
      exact h.unique e he key rs (KeyValue.lookup_eq_some.mpr hrow))

/-- **What a pass leaves of the ReplicaSets of a list.** -/
theorem progress_afterReplicaSets {env : PassEnv} {ns : String} {sets : List (String × ReplicaSet)}
    {s : Registry} (htracked : Tracked ns sets s) (hfresh : FreshPass env s) :
    Progress env ns sets s (fun _ => ns ∈ namespacesIn s) (afterReplicaSets env s) :=
  ((runs_reconcileReplicaSets htracked (G := fun _ _ => True)
    ⟨fun _ _ _ => trivial, fun _ _ _ _ => trivial, fun _ _ _ => trivial,
      fun _ _ _ _ _ _ _ _ => trivial, fun _ _ _ _ _ _ _ => trivial⟩).discharge hfresh).after

end K3rs
