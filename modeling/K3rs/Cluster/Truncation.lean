import K3rs.Cluster.ReplicaSets
import K3rs.Server.Backup

/-!
# Listings that break off

An error of the scan iterator ends a listing that is then taken for complete.  What follows from
that is said here for the listing itself, for a backup, and for the ReplicaSet controller.

* `listing_complete_iff`: each of them is right exactly if the error comes late enough.
-/

namespace K3rs

open Programs

/-! ## The ReplicaSet controller -/

/-- The operation creates a pod. -/
def createsPod : Op String Object → Bool
  | .put _ (.pod _) => true
  | _ => false

/-- The number of pods that a pass over a ReplicaSet creates. -/
def podsCreated (env : PassEnv) (ns key : String) (rs : ReplicaSet) (nodes : List Node)
    (outcomes : List Outcome) (store : Registry) : ℕ :=
  ((reconcileReplicaSet env ns nodes (key, .replicaSet rs)).trace outcomes store).countP createsPod

/-- The operations on pods, and how many of them create one. -/
theorem scalePods_trace (env : PassEnv) (ns key : String) (rs : ReplicaSet) (nodes : List Node)
    (podEntries : List (String × Object)) (store : Registry) :
    ((scalePods env ns key rs nodes podEntries).trace [] store).countP createsPod =
        rs.spec.replicas.toNat - (currentCount rs podEntries).toNat ∧
      ∃ store', (scalePods env ns key rs nodes podEntries).exec [] store = (.ok (), [], store') := by
  simp only [scalePods]
  split_ifs with hcreate hdelete
  · obtain ⟨htrace, hexec⟩ := Prog.trace_forEach
      (f := createPod env ns key rs nodes) (fun i store => ⟨rfl, _, rfl⟩)
      (List.range (rs.spec.replicas - currentCount rs podEntries).toNat) store
    refine ⟨?_, hexec⟩
    rw [htrace, List.countP_map]
    refine (List.countP_eq_length.mpr fun _ _ => rfl).trans ?_
    rw [List.length_range, UInt32.toNat_sub_of_le _ _ (UInt32.le_of_lt hcreate)]
  · obtain ⟨htrace, hexec⟩ := Prog.trace_forEach
      (f := fun e : String × Pod => Prog.delete e.1) (fun e store => ⟨rfl, _, rfl⟩)
      ((newestFirst (ownedPods rs.id podEntries)).take
        (currentCount rs podEntries - rs.spec.replicas).toNat) store
    refine ⟨?_, hexec⟩
    rw [htrace, List.countP_map, Nat.sub_eq_zero_of_le (UInt32.lt_iff_toNat_lt.mp hdelete).le]
    exact List.countP_eq_zero.mpr fun _ _ => Bool.false_ne_true
  · refine ⟨?_, store, rfl⟩
    rw [Nat.sub_eq_zero_of_le (Nat.not_lt.mp fun h => hcreate (UInt32.lt_iff_toNat_lt.mpr h))]
    rfl

/-- A pass creates what is missing in the first listing. -/
theorem podsCreated_eq (env : PassEnv) (ns key : String) (rs : ReplicaSet) (nodes : List Node)
    (outcomes : List Outcome) (store : Registry) (listed : List (String × Object))
    (hlist : (listPrefix (podPrefixOf ns)).exec outcomes store = (.ok listed, [], store)) :
    podsCreated env ns key rs nodes outcomes store =
      rs.spec.replicas.toNat - (currentCount rs listed).toNat := by
  obtain ⟨hcount, store', hexec⟩ := scalePods_trace env ns key rs nodes listed store
  have hlisting : ∀ outcomes store, ((listPrefix (podPrefixOf ns)).trace outcomes store).countP
      createsPod = 0 := fun _ _ => rfl
  have hstatus : ∀ entries : List (String × Object), ((Prog.put key (.replicaSet
      { rs with status := replicaSetStatus rs.id entries }) : Program Unit).trace [] store').countP
        createsPod = 0 := fun _ => rfl
  have hrecount : (listPrefix (podPrefixOf ns)).exec [] store' =
      (.ok (store'.scan fun k => startsWith k (podPrefixOf ns)), [], store') := exec_list_ok _ [] _ rfl
  change List.countP createsPod (Prog.trace (listPrefix (podPrefixOf ns) >>= _) _ _) = _
  rw [Prog.trace_bind_ok _ _ hlist, List.countP_append, hlisting, Prog.trace_bind_ok _ _ hexec,
    List.countP_append, hcount, Prog.trace_bind_ok _ _ hrecount, List.countP_append, hstatus,
    hlisting, Nat.zero_add, Nat.add_zero]

/-! ## Backups -/

/-- A backup of part of the registry has every key that holds JSON exactly if they are all in
that part. -/
theorem backup_complete_iff {J : Type} (codec : Codec J) (store : Database)
    (part : List (String × Bytes))
    (hpart : ∀ e ∈ part, e ∈ store.scan fun k => startsWith k "/registry/") :
    (∀ e ∈ snapshotOf store, ∀ v, codec.fromSlice e.2 = some v →
        ⟨e.1, v⟩ ∈ entriesOf codec (part.filter fun e => backedUp e.1)) ↔
      ∀ e ∈ snapshotOf store, (codec.fromSlice e.2).isSome = true → e ∈ part := by
  constructor
  · intro h e he hsome
    obtain ⟨v, hv⟩ := Option.isSome_iff_exists.mp hsome
    obtain ⟨value, hmem, -⟩ := (mem_entriesOf codec).mp (h e he v hv)
    have hin := (List.mem_filter.mp hmem).1
    -- The key has one value.
    have hlookup := (KeyValue.mem_scan.mp (hpart _ hin)).1
    have hvalue : e.2 = value :=
      Option.some_inj.mp ((mem_snapshotOf.mp he).1.symm.trans hlookup)
    rw [← hvalue] at hin
    exact hin
  · intro h e he v hv
    have hin := h e he (by rw [hv]; rfl)
    exact (mem_entriesOf codec).mpr
      ⟨e.2, List.mem_filter.mpr ⟨hin, (mem_snapshotOf.mp he).2.2⟩, hv⟩

/-! ## All listings -/

/-- **When listings are complete.**  The iterator of a scan fails after `n` entries.

* A listing returns all that matches exactly if no more than `n` entries do.
* A backup has every key of the registry that holds JSON exactly if these are among the first
  `n`.
* A pass over a ReplicaSet creates no pod because some were missing in the listing exactly if it
  counts as many of its pods among the first `n` as there are, or as many as it wants. -/
theorem listing_complete_iff (n : ℕ) :
    (∀ (store : Database) (start : String),
      ∃ listed, (listPrefix start).exec [.cut n] store = (.ok listed, [], store) ∧
        (listed = store.scan (fun k => startsWith k start) ↔
          (store.scan fun k => startsWith k start).length ≤ n)) ∧
    (∀ {J : Type} (codec : Codec J) (createdAt caCert : String) (store : Database),
      ∃ backup data, (createBackupBytes codec createdAt caCert).exec [.cut n] store =
          (.ok (backup, data), [], store) ∧
        ((∀ e ∈ snapshotOf store, ∀ v, codec.fromSlice e.2 = some v → ⟨e.1, v⟩ ∈ backup.entries) ↔
          ∀ e ∈ snapshotOf store, (codec.fromSlice e.2).isSome = true →
            e ∈ (store.scan fun k => startsWith k "/registry/").take n)) ∧
    ∀ (env : PassEnv) (ns key : String) (rs : ReplicaSet) (nodes : List Node) (store : Registry),
      podsCreated env ns key rs nodes [.cut n] store ≤ podsCreated env ns key rs nodes [] store ↔
        currentCount rs (store.scan fun k => startsWith k (podPrefixOf ns)) ≤
            currentCount rs ((store.scan fun k => startsWith k (podPrefixOf ns)).take n) ∨
          rs.spec.replicas ≤
            currentCount rs ((store.scan fun k => startsWith k (podPrefixOf ns)).take n) := by
  refine ⟨fun store start => ⟨_, rfl, ?_⟩, fun codec createdAt caCert store => ?_, ?_⟩
  · exact List.take_eq_self_iff _
  · have hsnapshot : (snapshot).exec [.cut n] store =
        (.ok (((store.scan fun k => startsWith k "/registry/").take n).filter fun e => backedUp e.1),
          [], store) := rfl
    refine ⟨_, _, by rw [createBackupBytes, Prog.exec_bind_ok hsnapshot]; rfl, ?_⟩
    exact backup_complete_iff codec store _ fun e he => List.mem_of_mem_take he
  · intro env ns key rs nodes store
    rw [podsCreated_eq env ns key rs nodes [.cut n] store _ rfl,
      podsCreated_eq env ns key rs nodes [] store _ (exec_list_ok _ [] _ rfl), UInt32.le_iff_toNat_le,
      UInt32.le_iff_toNat_le]
    omega

/-- Two keys. -/
def twoKeys : Database :=
  (KeyValue.insert ∅ "/registry/pods/default/a" [1]).insert "/registry/pods/default/b" [2]

/-- A listing of two keys whose iterator fails after the first returns the first alone. -/
theorem listing_complete_fails_first :
    (listPrefix "/registry/pods/").exec [.cut 1] twoKeys =
        (.ok [("/registry/pods/default/a", [1])], [], twoKeys) ∧
      twoKeys.scan (fun k => startsWith k "/registry/pods/") =
        [("/registry/pods/default/a", [1]), ("/registry/pods/default/b", [2])] := by
  have hscan : twoKeys.scan (fun k => startsWith k "/registry/pods/") =
      [("/registry/pods/default/a", [1]), ("/registry/pods/default/b", [2])] := by decide
  refine ⟨?_, hscan⟩
  rw [exec_list_cut "/registry/pods/" 1 [] twoKeys "i/o error", drain_breaksAt, hscan]
  rfl

end K3rs
