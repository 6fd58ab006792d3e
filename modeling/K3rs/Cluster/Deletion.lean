import K3rs.Cluster.DeleteResource

/-!
# Deletion

A request removes a deployment or a ReplicaSet with what it owns.  Passes of the controllers may
be under way at the same time, and put back what they have listed.  A pass disturbs the request
if it puts something that the request would have had to remove at a time when the request does
not come by any more.

* `deletion_final`: where no pass disturbs the request, nothing of the object remains after it,
  whatever the passes do that begin later.
-/

namespace K3rs

open Programs Transition

/-! ## Requests among passes -/

/-- Passes of the controllers. -/
inductive PassTask where
  | deployments (env : PassEnv)
  | replicaSets (env : PassEnv)

namespace PassTask

/-- What a pass does. -/
def code : PassTask → Program Unit
  | deployments env => reconcileDeployments env
  | replicaSets env => reconcileReplicaSets env

/-- The operations of a pass, given what it has seen. -/
def Writes : PassTask → Seen String Object → Op String Object → Prop
  | deployments _ => DeploymentWrite
  | replicaSets _ => ReplicaSetWrite

theorem code_meets (task : PassTask) :
    task.code.Meets task.Writes (fun _ _ => True) Seen.empty := by
  cases task with
  | deployments env => exact reconcileDeployments_meets env _
  | replicaSets env => exact reconcileReplicaSets_meets env _

end PassTask

/-- A ReplicaSet that the store has held: its key, its id and its owner. -/
structure Record where
  key : String
  id : String
  owner : Option String
  deriving DecidableEq, Repr

/-- The record of a ReplicaSet. -/
def recordOf (k : String) (rs : ReplicaSet) : Record := ⟨k, rs.id, rs.ownerRef⟩

/-- The ReplicaSets of a store. -/
def recordsOf (store : Registry) : List Record :=
  store.rows.filterMap fun e => e.2.asReplicaSet.map (recordOf e.1)

/-- The store, the passes, and one request.  The request and the passes are what runs; the rest
records what has happened. -/
structure Deletion where
  pool : Pool String Object PassTask Unit
  /-- What remains of the request. -/
  prog : Program StatusCode
  /-- Where the request is. -/
  stage : Stage
  /-- What the request has read under the key of the object. -/
  read : Option Object
  /-- The ReplicaSets that the store has held. -/
  held : List Record
  /-- The passes that have begun before the request returned. -/
  early : List ℕ

/-- Steps. -/
inductive DeletionStep where
  | request (outcome : Outcome)
  | pass (s : PoolStep PassTask)

namespace Deletion

/-- Before the request. -/
def start (t : Target) (store : Registry) : Deletion where
  pool := Pool.idle store
  prog := t.request
  stage := .reading
  read := none
  held := recordsOf store
  early := []

/-- What is read is recorded. -/
def noteRead (read : Option Object) : (o : Op String Object) → o.Answer → Option Object
  | .get _, .ok data => data
  | _, _ => read

/-- The request has returned. -/
def Returned (s : Deletion) : Prop :=
  match s.stage with
  | .returned _ => True
  | _ => False

instance (s : Deletion) : Decidable s.Returned := by
  unfold Returned
  split <;> infer_instance

/-- A pass that begins is recorded. -/
def noteBegun (s : Deletion) : PoolStep PassTask → List ℕ
  | .spawn tid _ => if s.Returned then s.early else tid :: s.early
  | .advance _ _ => s.early

/-- One step. -/
def step (t : Target) (s : Deletion) : DeletionStep → Deletion
  | .request outcome =>
      match s.prog with
      | .done _ => s
      | .op o next =>
          let answer := o.answer s.pool.store outcome
          { s with
            pool := { s.pool with store := o.apply s.pool.store outcome }
            prog := next answer
            stage := s.stage.observe t o answer
            read := noteRead s.read o answer }
  | .pass p =>
      { s with
        pool := s.pool.step PassTask.code p
        held := recordsOf (s.pool.step PassTask.code p).store ++ s.held
        early := s.noteBegun p }

end Deletion

/-! ## What is asked for -/

namespace Target

variable (t : Target) (id : String)

/-- This is the object with the id. -/
def Is (v : Object) : Prop :=
  match t.kind with
  | .deployment => ∃ deploy ∈ v.asDeployment, deploy.id = id
  | .replicaSet => ∃ rs ∈ v.asReplicaSet, rs.id = id

/-- The object owns a ReplicaSet. -/
def Owns (rs : ReplicaSet) : Prop := t.kind = .deployment ∧ rs.ownerRef = some id

/-- The pods with this owner are pods of the object. -/
def Through (held : List Record) (owner : String) : Prop :=
  match t.kind with
  | .deployment => ∃ a ∈ held, a.owner = some id ∧ a.id = owner
  | .replicaSet => owner = id

/-- The object itself, or a ReplicaSet that it owns. -/
def Kin (k : String) (v : Object) : Prop :=
  k = t.key ∧ t.Is id v ∨ ∃ rs ∈ v.asReplicaSet, t.Owns id rs

/-- A pod of the object. -/
def OwnsPod (held : List Record) (v : Object) : Prop :=
  ∃ p ∈ v.asPod, ∃ owner ∈ p.ownerRef, t.Through id held owner

/-- The object, or something that it owns, directly or through a ReplicaSet. -/
def Family (held : List Record) (k : String) (v : Object) : Prop :=
  t.Kin id k v ∨ t.OwnsPod id held v

instance (v : Object) : Decidable (t.Is id v) := by
  unfold Is
  split <;> infer_instance

instance (rs : ReplicaSet) : Decidable (t.Owns id rs) :=
  inferInstanceAs (Decidable (t.kind = .deployment ∧ rs.ownerRef = some id))

instance (held : List Record) (owner : String) : Decidable (t.Through id held owner) := by
  unfold Through
  split <;> infer_instance

instance (held : List Record) (k : String) (v : Object) : Decidable (t.Family id held k v) := by
  unfold Family Kin OwnsPod
  infer_instance

variable {t id} {held : List Record} {k : String}

theorem kin_deployment {deploy : Deployment} : t.Kin id k (.deployment deploy) ↔
    t.kind = .deployment ∧ k = t.key ∧ deploy.id = id := by
  cases hkind : t.kind <;> simp [Kin, Is, hkind, Object.asDeployment, Object.asReplicaSet]

theorem kin_replicaSet {rs : ReplicaSet} : t.Kin id k (.replicaSet rs) ↔
    t.kind = .replicaSet ∧ k = t.key ∧ rs.id = id ∨ t.Owns id rs := by
  cases hkind : t.kind <;> simp [Kin, Is, Owns, hkind, Object.asDeployment, Object.asReplicaSet]

theorem not_kin_pod {p : Pod} : ¬t.Kin id k (.pod p) := by
  cases hkind : t.kind <;> simp [Kin, Is, hkind, Object.asDeployment, Object.asReplicaSet]

theorem family_deployment {deploy : Deployment} :
    t.Family id held k (.deployment deploy) ↔ t.Kin id k (.deployment deploy) := by
  simp [Family, OwnsPod, Object.asPod]

theorem family_replicaSet {rs : ReplicaSet} :
    t.Family id held k (.replicaSet rs) ↔ t.Kin id k (.replicaSet rs) := by
  simp [Family, OwnsPod, Object.asPod]

theorem family_pod {p : Pod} : t.Family id held k (.pod p) ↔
    ∃ owner, p.ownerRef = some owner ∧ t.Through id held owner := by
  simp [Family, not_kin_pod, OwnsPod, Object.asPod]

end Target

namespace Deletion

variable (t : Target) (id : String) (s : Deletion)

/-- The request has read the object with the id. -/
def Read : Prop := ∃ v ∈ s.read, t.Is id v

/-- Nothing of the object is in the store. -/
def Clean : Prop := ∀ k v, s.pool.store.lookup k = some v → ¬t.Family id s.held k v

/-- **What is asked of a state**: after the request has returned, and the passes that were
under way have ended, nothing of the object that it has read is in the store. -/
def Final : Prop :=
  (∃ code, s.prog.result = some (.ok code)) →
    (∀ tid ∈ s.early, ∀ th ∈ s.pool.threads tid, th.prog.result.isSome) →
    s.Read t id → s.Clean t id

/-! ## The condition -/

/-- The ids are those of the objects: an id stands for one deployment, and for one ReplicaSet;
and what the object owns is where the request looks for it. -/
structure Starts (store : Registry) : Prop where
  one : t.kind = .deployment →
    ∀ e ∈ store.rows, ∀ deploy ∈ e.2.asDeployment, deploy.id = id → e.1 = t.key
  unique : ∀ a ∈ recordsOf store, ∀ b ∈ recordsOf store, a.id = b.id → a = b
  replicaSets : ∀ e ∈ store.rows, ∀ rs ∈ e.2.asReplicaSet, t.Owns id rs →
    startsWith e.1 (replicaSetPrefixOf t.ns) = true
  pods : ∀ e ∈ store.rows, ∀ p ∈ e.2.asPod, ∀ owner ∈ p.ownerRef,
    t.Through id (recordsOf store) owner → startsWith e.1 (podPrefixOf t.ns) = true

/-- A pass puts a ReplicaSet that it has seen, or one with an id that nobody has. -/
def FreshId (seen : Seen String Object) (k : String) (v : Object) : Prop :=
  ∀ rs ∈ v.asReplicaSet,
    (∃ w ∈ seen k, ∃ old ∈ w.bind Object.asReplicaSet,
      old.id = rs.id ∧ old.ownerRef = rs.ownerRef) ∨
    (∀ a ∈ s.held, a.id ≠ rs.id) ∧
      ∀ e ∈ s.pool.store.rows, ∀ p ∈ e.2.asPod, p.ownerRef ≠ some rs.id

/-- The request, which has listed nothing yet, will find it; and it does not take the place of
a ReplicaSet of the object. -/
def Findable (k : String) (v : Object) : Prop :=
  (∀ rs ∈ v.asReplicaSet, t.Owns id rs → startsWith k (replicaSetPrefixOf t.ns) = true) ∧
  (∀ p ∈ v.asPod, ∀ owner ∈ p.ownerRef, t.Through id s.held owner →
    startsWith k (podPrefixOf t.ns) = true) ∧
  ∀ old ∈ (s.pool.store.lookup k).bind Object.asReplicaSet, t.Owns id old →
    ∃ rs ∈ v.asReplicaSet, rs.id = old.id ∧ rs.ownerRef = old.ownerRef

/-- What the request has still to do leads to it. -/
def Reached (keys : List String) (left : List (Option String × String)) (k : String)
    (v : Object) : Prop :=
  (∀ rs ∈ v.asReplicaSet, t.Owns id rs → k ∈ keys ∨ (some k, rs.id) ∈ left) ∧
  ∀ p ∈ v.asPod, ∀ owner ∈ p.ownerRef, t.Through id s.held owner →
    k ∈ keys ∨ owner ∈ left.map Prod.snd ∧ startsWith k (podPrefixOf t.ns) = true

/-- The request still comes by. -/
def OnTime (k : String) (v : Object) : Prop :=
  match s.stage with
  | .reading => s.Findable t id k v
  | .listing _ => s.Findable t id k v
  | .cascading keys left => s.Reached t id keys left k v
  | .returned _ => ¬t.Family id s.held k v

/-- The condition on a step.  Nothing but fresh ids is asked of the passes that begin after the
request has returned. -/
def Undisturbed : DeletionStep → Prop
  | .request outcome => outcome = .ok
  | .pass (.spawn _ _) => True
  | .pass (.advance tid _) =>
      match s.pool.threads tid with
      | some ⟨_, .op (.put k v) _, seen⟩ =>
          s.FreshId seen k v ∧ (tid ∈ s.early → s.OnTime t id k v)
      | _ => True

instance (seen : Seen String Object) (k : String) (v : Object) :
    Decidable (s.FreshId seen k v) := by
  unfold FreshId
  infer_instance

instance (k : String) (v : Object) : Decidable (s.OnTime t id k v) := by
  unfold OnTime Findable Reached
  split <;> infer_instance

instance (a : DeletionStep) : Decidable (s.Undisturbed t id a) := by
  unfold Undisturbed
  split
  · infer_instance
  · infer_instance
  · split <;> infer_instance

end Deletion

/-! ## Steps of the passes -/

theorem mem_recordsOf {store : Registry} {a : Record} : a ∈ recordsOf store ↔
    ∃ k rs, store.lookup k = some (.replicaSet rs) ∧ a = recordOf k rs := by
  rw [recordsOf, List.mem_filterMap]
  constructor
  · rintro ⟨⟨k, v⟩, hmem, ha⟩
    obtain ⟨rs, hrs, rfl⟩ := Option.map_eq_some_iff.mp ha
    obtain rfl := Object.asReplicaSet_eq_some.mp hrs
    exact ⟨k, rs, KeyValue.lookup_eq_some.mpr hmem, rfl⟩
  · rintro ⟨k, rs, hlookup, rfl⟩
    exact ⟨(k, .replicaSet rs), KeyValue.lookup_eq_some.mp hlookup, rfl⟩

namespace Deletion

variable {t : Target} {id : String} {s : Deletion}

/-- A pass puts something under a key. -/
structure Puts (s : Deletion) (p : PoolStep PassTask) (tid : ℕ) (task : PassTask)
    (seen : Seen String Object) (k : String) (v : Object) : Prop where
  advances : ∃ outcome, p = .advance tid outcome
  thread : ∃ next, s.pool.threads tid = some ⟨task, .op (.put k v) next, seen⟩

/-- What a pass leaves under a key was there before, or it is put there. -/
theorem lookup_pass {p : PoolStep PassTask} {k : String} {v : Object}
    (h : (s.pool.step PassTask.code p).store.lookup k = some v) :
    s.pool.store.lookup k = some v ∨ ∃ tid task seen, s.Puts p tid task seen k v := by
  rcases Pool.lookup_step h with hold | ⟨tid, outcome, task, next, seen, hp, hthread⟩
  · exact Or.inl hold
  · exact Or.inr ⟨tid, task, seen, ⟨outcome, hp⟩, ⟨next, hthread⟩⟩

namespace Puts

variable {p : PoolStep PassTask} {tid tid' : ℕ} {task task' : PassTask}
  {seen seen' : Seen String Object} {k k' : String} {v v' : Object}

/-- There is one operation in a step. -/
theorem same (h : s.Puts p tid task seen k v) (h' : s.Puts p tid' task' seen' k' v') :
    k = k' ∧ v = v' := by
  obtain ⟨⟨outcome, rfl⟩, next, hthread⟩ := h
  obtain ⟨⟨outcome', hp⟩, next', hthread'⟩ := h'
  obtain ⟨rfl, -⟩ := PoolStep.advance.inj hp
  have hprog := congrArg Thread.prog (Option.some_inj.mp (hthread.symm.trans hthread'))
  obtain ⟨ho, -⟩ := Prog.op.inj hprog
  exact Op.put.inj ho

theorem writes (h : s.Puts p tid task seen k v)
    (hdisciplined : s.pool.Disciplined PassTask.Writes fun _ _ _ => True) :
    task.Writes seen (.put k v) := by
  obtain ⟨-, next, hthread⟩ := h
  exact hdisciplined.next hthread

theorem condition (h : s.Puts p tid task seen k v) (hs : s.Undisturbed t id (.pass p)) :
    s.FreshId seen k v ∧ (tid ∈ s.early → s.OnTime t id k v) := by
  obtain ⟨⟨outcome, rfl⟩, next, hthread⟩ := h
  simp only [Undisturbed, hthread] at hs
  exact hs

end Puts

/-- What holds in every state of an undisturbed run, wherever the request is. -/
structure Base (t : Target) (id : String) (s : Deletion) : Prop where
  follows : s.prog = s.stage.prog t
  disciplined : s.pool.Disciplined PassTask.Writes fun _ _ _ => True
  holds : ∀ k rs, s.pool.store.lookup k = some (.replicaSet rs) → recordOf k rs ∈ s.held
  saw : ∀ tid th k rs, s.pool.threads tid = some th → th.seen.Ever k (.replicaSet rs) →
    recordOf k rs ∈ s.held
  unique : ∀ a ∈ s.held, ∀ b ∈ s.held, a.id = b.id → a = b
  one : t.kind = .deployment → ∀ k deploy, s.pool.store.lookup k = some (.deployment deploy) →
    deploy.id = id → k = t.key
  oneSeen : t.kind = .deployment → ∀ tid th k deploy, s.pool.threads tid = some th →
    th.seen.Ever k (.deployment deploy) → deploy.id = id → k = t.key
  begun : ¬s.Returned → ∀ tid th, s.pool.threads tid = some th → tid ∈ s.early
  readHeld : t.kind = .replicaSet → s.Read t id → ∃ a ∈ s.held, a.key = t.key ∧ a.id = id

variable {p : PoolStep PassTask}

/-- What a fresh id is. -/
theorem FreshId.cases {seen : Seen String Object} {k : String} {rs : ReplicaSet}
    (h : s.FreshId seen k (.replicaSet rs)) :
    (∃ old, seen.Ever k (.replicaSet old) ∧ old.id = rs.id ∧ old.ownerRef = rs.ownerRef) ∨
    (∀ a ∈ s.held, a.id ≠ rs.id) ∧
      ∀ k' pod, s.pool.store.lookup k' = some (.pod pod) → pod.ownerRef ≠ some rs.id := by
  rcases h rs rfl with ⟨w, hw, old, hold, hsame⟩ | ⟨hheld, hpods⟩
  · obtain ⟨v, rfl, hv⟩ := Option.bind_eq_some_iff.mp hold
    obtain rfl := Object.asReplicaSet_eq_some.mp hv
    exact Or.inl ⟨old, hw, hsame⟩
  · refine Or.inr ⟨hheld, fun k' pod hlookup => ?_⟩
    exact hpods _ (KeyValue.lookup_eq_some.mp hlookup) pod rfl

/-- A ReplicaSet that a pass puts is one that has been there, or its id is fresh. -/
theorem Base.put_record (h : s.Base t id) (hs : s.Undisturbed t id (.pass p)) {tid : ℕ}
    {task : PassTask} {seen : Seen String Object} {k : String} {rs : ReplicaSet}
    (hput : s.Puts p tid task seen k (.replicaSet rs)) :
    recordOf k rs ∈ s.held ∨ (∀ a ∈ s.held, a.id ≠ rs.id) ∧
      ∀ k' pod, s.pool.store.lookup k' = some (.pod pod) → pod.ownerRef ≠ some rs.id := by
  rcases (hput.condition hs).1.cases with ⟨old, hseen, hid, howner⟩ | hfresh
  · obtain ⟨next, hthread⟩ := hput.thread
    have hmem := h.saw tid _ k old hthread hseen
    rw [recordOf, hid, howner] at hmem
    exact Or.inl hmem
  · exact Or.inr hfresh

/-- The records after a step of a pass. -/
theorem Base.record_cases (h : s.Base t id) (hs : s.Undisturbed t id (.pass p)) {a : Record}
    (ha : a ∈ recordsOf (s.pool.step PassTask.code p).store ++ s.held) :
    a ∈ s.held ∨ ∃ tid task seen rs, s.Puts p tid task seen a.key (.replicaSet rs) ∧
      a = recordOf a.key rs ∧ (∀ b ∈ s.held, b.id ≠ a.id) ∧
      ∀ k' pod, s.pool.store.lookup k' = some (.pod pod) → pod.ownerRef ≠ some a.id := by
  rcases List.mem_append.mp ha with hnew | hheld
  · obtain ⟨k, rs, hlookup, rfl⟩ := mem_recordsOf.mp hnew
    rcases lookup_pass hlookup with hold | ⟨tid, task, seen, hput⟩
    · exact Or.inl (h.holds k rs hold)
    · rcases h.put_record hs hput with hmem | ⟨hfresh, hpods⟩
      · exact Or.inl hmem
      · exact Or.inr ⟨tid, task, seen, rs, hput, rfl, hfresh, hpods⟩
  · exact Or.inl hheld

/-- A step of a pass makes no pod one of the object that is there already. -/
theorem Base.through_of_step (h : s.Base t id) (hs : s.Undisturbed t id (.pass p)) {k : String}
    {pod : Pod} {owner : String}
    (hpod : (s.pool.step PassTask.code p).store.lookup k = some (.pod pod))
    (howner : pod.ownerRef = some owner)
    (hthrough : t.Through id (recordsOf (s.pool.step PassTask.code p).store ++ s.held) owner) :
    t.Through id s.held owner := by
  unfold Target.Through at hthrough ⊢
  split at hthrough
  · obtain ⟨a, ha, hid, rfl⟩ := hthrough
    rcases h.record_cases hs ha with hmem | ⟨tid, task, seen, rs, hput, -, -, hpods⟩
    · exact ⟨a, hmem, hid, rfl⟩
    · rcases lookup_pass hpod with hold | ⟨tid', task', seen', hput'⟩
      · exact absurd howner (hpods k pod hold)
      · exact nomatch (hput.same hput').2
  · exact hthrough

/-- What is not of the object before is not after a step. -/
theorem Base.family_of_step (h : s.Base t id) (hs : s.Undisturbed t id (.pass p)) {k : String}
    {v : Object} (hv : (s.pool.step PassTask.code p).store.lookup k = some v)
    (hfamily : t.Family id (s.step t (.pass p)).held k v) : t.Family id s.held k v := by
  rcases hfamily with hkin | ⟨pod, hpod, owner, howner, hthrough⟩
  · exact Or.inl hkin
  · obtain rfl := Object.asPod_eq_some.mp hpod
    exact Or.inr ⟨pod, rfl, owner, howner, h.through_of_step hs hv howner hthrough⟩

/-- No pass gives the id of the deployment to another one. -/
theorem Base.one_of_step (h : s.Base t id) (hkind : t.kind = .deployment) {k : String}
    {deploy : Deployment}
    (hlookup : (s.pool.step PassTask.code p).store.lookup k = some (.deployment deploy))
    (hid : deploy.id = id) : k = t.key := by
  rcases lookup_pass hlookup with hold | ⟨tid, task, seen, hput⟩
  · exact h.one hkind k deploy hold hid
  · have hwrites := hput.writes h.disciplined
    obtain ⟨-, next, hthread⟩ := hput
    cases task with
    | deployments env =>
        cases hwrites with
        | status _ old status hseen =>
            exact h.oneSeen hkind tid _ k old hthread (Seen.Ever.of_last hseen) hid
    | replicaSets env => cases hwrites

theorem mem_noteBegun (s : Deletion) {tid : ℕ} (h : tid ∈ s.early) : tid ∈ s.noteBegun p := by
  cases p with
  | advance tid' outcome => exact h
  | spawn tid' task =>
      unfold noteBegun
      split_ifs
      · exact h
      · exact List.mem_cons_of_mem _ h

/-- A step of a pass keeps what holds everywhere. -/
theorem Base.pass (h : s.Base t id) (hs : s.Undisturbed t id (.pass p)) :
    (s.step t (.pass p)).Base t id where
  follows := h.follows
  disciplined := h.disciplined.step PassTask.code_meets p
  holds k rs hlookup := List.mem_append_left _ (mem_recordsOf.mpr ⟨k, rs, hlookup, rfl⟩)
  saw tid th k rs hth hrs := by
    rcases Pool.ever_step hth hrs with ⟨th', hth', hseen⟩ | hbefore | hafter
    · exact List.mem_append_right _ (h.saw tid th' k rs hth' hseen)
    · exact List.mem_append_right _ (h.holds k rs hbefore)
    · exact List.mem_append_left _ (mem_recordsOf.mpr ⟨k, rs, hafter, rfl⟩)
  unique a ha b hb hid := by
    rcases h.record_cases hs ha with ha | ⟨_, _, _, rs, hput, ha', hfresh, -⟩
    · rcases h.record_cases hs hb with hb | ⟨_, _, _, _, _, -, hfresh', -⟩
      · exact h.unique a ha b hb hid
      · exact absurd hid (hfresh' a ha)
    · rcases h.record_cases hs hb with hb | ⟨_, _, _, rs', hput', hb', -, -⟩
      · exact absurd hid.symm (hfresh b hb)
      · obtain ⟨hkey, hrs⟩ := hput.same hput'
        rw [ha', hb', hkey, Object.replicaSet.inj hrs]
  one hkind k deploy hlookup hid := h.one_of_step hkind hlookup hid
  oneSeen hkind tid th k deploy hth hdeploy hid := by
    rcases Pool.ever_step hth hdeploy with ⟨th', hth', hseen⟩ | hbefore | hafter
    · exact h.oneSeen hkind tid th' k deploy hth' hseen hid
    · exact h.one hkind k deploy hbefore hid
    · exact h.one_of_step hkind hafter hid
  begun hreturned tid th hth := by
    rcases Pool.thread_step hth with ⟨th', hth'⟩ | ⟨task, rfl⟩
    · exact s.mem_noteBegun (h.begun hreturned tid th' hth')
    · have hbegun : s.noteBegun (.spawn tid task) = tid :: s.early := if_neg hreturned
      change tid ∈ s.noteBegun (.spawn tid task)
      rw [hbegun]
      exact List.mem_cons_self
  readHeld hkind hread := by
    obtain ⟨a, ha, hrest⟩ := h.readHeld hkind hread
    exact ⟨a, List.mem_append_right _ ha, hrest⟩

/-! ## What the request has still to do -/

/-- Before anything is listed: what the object owns is where it will be looked for, and no
ReplicaSet of the object has gone. -/
structure Located (t : Target) (id : String) (s : Deletion) : Prop where
  replicaSets : ∀ k rs, s.pool.store.lookup k = some (.replicaSet rs) → t.Owns id rs →
    startsWith k (replicaSetPrefixOf t.ns) = true
  there : t.kind = .deployment → ∀ a ∈ s.held, a.owner = some id →
    ∃ rs, s.pool.store.lookup a.key = some (.replicaSet rs) ∧ rs.id = a.id ∧ rs.ownerRef = some id
  pods : ∀ k pod owner, s.pool.store.lookup k = some (.pod pod) → pod.ownerRef = some owner →
    t.Through id s.held owner → startsWith k (podPrefixOf t.ns) = true

/-- While the request removes: what the object owns is among the keys, or what is still to come
leads to it. -/
structure Covered (t : Target) (id : String) (s : Deletion) (keys : List String)
    (left : List (Option String × String)) : Prop where
  replicaSets : ∀ k rs, s.pool.store.lookup k = some (.replicaSet rs) → t.Owns id rs →
    k ∈ keys ∨ (some k, rs.id) ∈ left
  pods : ∀ k pod owner, s.pool.store.lookup k = some (.pod pod) → pod.ownerRef = some owner →
    t.Through id s.held owner →
    k ∈ keys ∨ owner ∈ left.map Prod.snd ∧ startsWith k (podPrefixOf t.ns) = true

/-- Afterwards: nothing is there, and the passes that have begun since have not seen the object
or a ReplicaSet of it. -/
structure Over (t : Target) (id : String) (s : Deletion) : Prop where
  clean : s.Clean t id
  unseen : ∀ tid th, s.pool.threads tid = some th → tid ∉ s.early →
    ∀ k v, th.seen.Ever k v → ¬t.Kin id k v

/-- What holds at each stage. -/
def Progress (t : Target) (id : String) (s : Deletion) : Prop :=
  match s.stage with
  | .reading => s.read = none ∧ s.Located t id
  | .listing id' => s.Located t id ∧ t.kind = .deployment ∧ (s.Read t id → id' = id)
  | .cascading keys left => s.Read t id → s.Covered t id keys left
  | .returned _ => s.Read t id → s.Over t id

/-- A pass before anything is listed. -/
theorem Located.pass (h : s.Located t id) (hbase : s.Base t id)
    (hs : s.Undisturbed t id (.pass p)) (hreturned : ¬s.Returned)
    (htime : ∀ k v, s.OnTime t id k v → s.Findable t id k v) :
    (s.step t (.pass p)).Located t id := by
  have honTime : ∀ {tid task seen k v}, s.Puts p tid task seen k v → s.OnTime t id k v := by
    intro tid task seen k v hput
    obtain ⟨next, hthread⟩ := hput.thread
    exact (hput.condition hs).2 (hbase.begun hreturned tid _ hthread)
  constructor
  · intro k rs hlookup howns
    rcases lookup_pass hlookup with hold | ⟨tid, task, seen, hput⟩
    · exact h.replicaSets k rs hold howns
    · exact (htime _ _ (honTime hput)).1 rs rfl howns
  · intro hkind a ha howner
    rcases List.mem_append.mp ha with hnew | hheld
    · obtain ⟨k, rs, hlookup, rfl⟩ := mem_recordsOf.mp hnew
      exact ⟨rs, hlookup, rfl, howner⟩
    · obtain ⟨rs, hlookup, hid, hrs⟩ := h.there hkind a hheld howner
      rcases @Pool.lookup_step_cases _ _ _ _ _ PassTask.code s.pool p a.key with hkeep |
        ⟨tid, outcome, task, v, next, seen, hp, hthread, hput⟩ |
        ⟨tid, outcome, task, next, seen, hp, hthread, hgone⟩
      · exact ⟨rs, hkeep.trans hlookup, hid, hrs⟩
      · obtain ⟨rs', hv, hid', howner'⟩ := (htime _ _ (honTime ⟨⟨outcome, hp⟩, next, hthread⟩)).2.2
          rs (by rw [hlookup]; rfl) ⟨hkind, hrs⟩
        obtain rfl := Object.asReplicaSet_eq_some.mp hv
        exact ⟨rs', hput, hid'.trans hid, howner'.trans hrs⟩
      · -- Passes remove nothing but pods.
        have hwrites := hbase.disciplined.next hthread
        cases task with
        | deployments env => cases hwrites
        | replicaSets env =>
            cases hwrites with
            | delete _ key rs' pod hkey =>
                exact absurd hkey
                  (not_isPodKey_of_replicaSet (h.replicaSets _ rs hlookup ⟨hkind, hrs⟩))
  · intro k pod owner hlookup howner hthrough
    have hthrough' := hbase.through_of_step hs hlookup howner hthrough
    rcases lookup_pass hlookup with hold | ⟨tid, task, seen, hput⟩
    · exact h.pods k pod owner hold howner hthrough'
    · exact (htime _ _ (honTime hput)).2.1 pod rfl owner howner hthrough'

/-- A pass while the request removes. -/
theorem Covered.pass {keys : List String} {left : List (Option String × String)}
    (h : s.Covered t id keys left) (hbase : s.Base t id) (hs : s.Undisturbed t id (.pass p))
    (hstage : s.stage = .cascading keys left) : (s.step t (.pass p)).Covered t id keys left := by
  have hreturned : ¬s.Returned := by
    unfold Returned
    rw [hstage]
    exact not_false
  have hreached : ∀ {tid task seen k v}, s.Puts p tid task seen k v →
      s.Reached t id keys left k v := by
    intro tid task seen k v hput
    obtain ⟨next, hthread⟩ := hput.thread
    have htime := (hput.condition hs).2 (hbase.begun hreturned tid _ hthread)
    unfold OnTime at htime
    rwa [hstage] at htime
  constructor
  · intro k rs hlookup howns
    rcases lookup_pass hlookup with hold | ⟨tid, task, seen, hput⟩
    · exact h.replicaSets k rs hold howns
    · exact (hreached hput).1 rs rfl howns
  · intro k pod owner hlookup howner hthrough
    have hthrough' := hbase.through_of_step hs hlookup howner hthrough
    rcases lookup_pass hlookup with hold | ⟨tid, task, seen, hput⟩
    · exact h.pods k pod owner hold howner hthrough'
    · exact (hreached hput).2 pod rfl owner howner hthrough'

/-- If the pods of a ReplicaSet are pods of the object, it is the object or a ReplicaSet of it. -/
theorem Base.kin_of_through (h : s.Base t id) (hread : s.Read t id) {k : String} {rs : ReplicaSet}
    (hheld : recordOf k rs ∈ s.held) (hthrough : t.Through id s.held rs.id) :
    t.Kin id k (.replicaSet rs) := by
  rw [Target.kin_replicaSet]
  cases hkind : t.kind with
  | deployment =>
      unfold Target.Through at hthrough
      simp only [hkind] at hthrough
      obtain ⟨a, ha, howner, hid⟩ := hthrough
      obtain rfl := h.unique a ha _ hheld hid
      exact Or.inr ⟨hkind, howner⟩
  | replicaSet =>
      unfold Target.Through at hthrough
      simp only [hkind] at hthrough
      obtain ⟨a, ha, hkey, hid⟩ := h.readHeld hkind hread
      obtain rfl := h.unique a ha _ hheld (hid.trans hthrough.symm)
      exact Or.inl ⟨rfl, hkey, hthrough⟩

/-- **Late passes.**  A pass that has not seen the object or a ReplicaSet of it puts nothing of
the object. -/
theorem Base.not_family_of_unseen (h : s.Base t id) (hread : s.Read t id)
    (hs : s.Undisturbed t id (.pass p)) {tid : ℕ} {task : PassTask} {seen : Seen String Object}
    {k : String} {v : Object} (hput : s.Puts p tid task seen k v)
    (hunseen : ∀ k v, seen.Ever k v → ¬t.Kin id k v) : ¬t.Family id s.held k v := by
  have hwrites := hput.writes h.disciplined
  obtain ⟨next, hthread⟩ := hput.thread
  cases task with
  | deployments env =>
      cases hwrites with
      | status _ deploy status hseen =>
          rw [Target.family_deployment, Target.kin_deployment]
          exact fun hkin => hunseen k _ (Seen.Ever.of_last hseen) (Target.kin_deployment.mpr hkin)
      | scale _ key rs replicas deploy hseen =>
          rw [Target.family_replicaSet, Target.kin_replicaSet]
          exact fun hkin => hunseen k _ hseen (Target.kin_replicaSet.mpr hkin)
      | create key newId now ns deploy hash replicas howner =>
          rw [Target.family_replicaSet, Target.kin_replicaSet]
          rintro (⟨hkind, hkey, hid⟩ | ⟨hkind, howns⟩)
          · -- The object is a ReplicaSet, and the new one would have its id.
            rcases (hput.condition hs).1.cases with ⟨old, hseen, hold, -⟩ | ⟨hfresh, -⟩
            · refine hunseen _ _ hseen (Target.kin_replicaSet.mpr (Or.inl ⟨hkind, hkey, ?_⟩))
              exact hold.trans hid
            · obtain ⟨a, ha, -, haid⟩ := h.readHeld hkind hread
              exact hfresh a ha (haid.trans hid.symm)
          · have hid : deploy.id = id := Option.some_inj.mp howns
            have hkey := h.oneSeen hkind tid _ key deploy hthread howner hid
            exact hunseen key _ howner (Target.kin_deployment.mpr ⟨hkind, hkey, hid⟩)
  | replicaSets env =>
      cases hwrites with
      | status _ rs status hseen =>
          rw [Target.family_replicaSet, Target.kin_replicaSet]
          exact fun hkin => hunseen k _ (Seen.Ever.of_last hseen) (Target.kin_replicaSet.mpr hkin)
      | create _ key rs pod hseen howner =>
          rw [Target.family_pod]
          rintro ⟨owner, howner', hthrough⟩
          obtain rfl : owner = rs.id := Option.some_inj.mp (howner'.symm.trans howner)
          exact hunseen key _ hseen
            (h.kin_of_through hread (h.saw tid _ key rs hthread hseen) hthrough)

/-- A pass after the request has returned. -/
theorem Over.pass (h : s.Over t id) (hbase : s.Base t id) (hread : s.Read t id)
    (hs : s.Undisturbed t id (.pass p)) {code : StatusCode} (hstage : s.stage = .returned code) :
    (s.step t (.pass p)).Over t id := by
  have hreturned : s.Returned := by
    unfold Returned
    rw [hstage]
    trivial
  have hearly : s.noteBegun p = s.early := by
    cases p with
    | spawn tid task => exact if_pos hreturned
    | advance tid outcome => rfl
  have hclean : (s.step t (.pass p)).Clean t id := by
    intro k v hlookup hfamily
    have hfamily' := hbase.family_of_step hs hlookup hfamily
    rcases lookup_pass hlookup with hold | ⟨tid, task, seen, hput⟩
    · exact h.clean k v hold hfamily'
    · obtain ⟨next, hthread⟩ := hput.thread
      by_cases htid : tid ∈ s.early
      · have htime := (hput.condition hs).2 htid
        unfold OnTime at htime
        rw [hstage] at htime
        exact htime hfamily'
      · exact hbase.not_family_of_unseen hread hs hput (h.unseen tid _ hthread htid) hfamily'
  refine ⟨hclean, fun tid th hth htid k v hv => ?_⟩
  rcases Pool.ever_step hth hv with ⟨th', hth', hseen⟩ | hbefore | hafter
  · exact h.unseen tid th' hth' (hearly ▸ htid) k v hseen
  · exact fun hkin => h.clean k v hbefore (Or.inl hkin)
  · exact fun hkin => hclean k v hafter (Or.inl hkin)

/-- **A pass keeps what holds at each stage.** -/
theorem Progress.pass (h : s.Progress t id) (hbase : s.Base t id)
    (hs : s.Undisturbed t id (.pass p)) : (s.step t (.pass p)).Progress t id := by
  have hstage : (s.step t (.pass p)).stage = s.stage := rfl
  unfold Progress at h ⊢
  rw [hstage]
  cases hcase : s.stage with
  | reading =>
      simp only [hcase] at h
      refine ⟨h.1, h.2.pass hbase hs ?_ fun k v htime => ?_⟩
      · unfold Returned
        rw [hcase]
        exact not_false
      · unfold OnTime at htime
        rwa [hcase] at htime
  | listing id' =>
      simp only [hcase] at h
      refine ⟨h.1.pass hbase hs ?_ fun k v htime => ?_, h.2⟩
      · unfold Returned
        rw [hcase]
        exact not_false
      · unfold OnTime at htime
        rwa [hcase] at htime
  | cascading keys left =>
      simp only [hcase] at h
      exact fun hread => (h hread).pass hbase hs hcase
  | returned code =>
      simp only [hcase] at h
      exact fun hread => (h hread).pass hbase hread hs hcase

/-! ## Steps of the request -/

/-- The state after an operation of the request that succeeds. -/
def advance (t : Target) (s : Deletion) (o : Op String Object) : Deletion :=
  { s with
    pool := { s.pool with store := o.apply s.pool.store .ok }
    prog := (s.stage.observe t o (o.answer s.pool.store .ok)).prog t
    stage := s.stage.observe t o (o.answer s.pool.store .ok)
    read := noteRead s.read o (o.answer s.pool.store .ok) }

theorem step_request {o : Op String Object} (h : s.Base t id) (hnext : s.stage.next t = some o) :
    s.step t (.request .ok) = s.advance t o := by
  simp only [step, h.follows, Stage.prog_eq t hnext, advance]

theorem step_request_returned {code : StatusCode} (h : s.Base t id)
    (hstage : s.stage = .returned code) (outcome : Outcome) :
    s.step t (.request outcome) = s := by
  have hprog : s.prog = .done (.ok code) := by
    rw [h.follows, hstage]
    rfl
  simp only [step, hprog]

/-- The request puts nothing. -/
theorem lookup_advance {o : Op String Object} (hnext : s.stage.next t = some o) {k : String}
    {v : Object} (h : (s.advance t o).pool.store.lookup k = some v) :
    s.pool.store.lookup k = some v := by
  rcases o.lookup_apply s.pool.store .ok k with hkeep | ⟨w, rfl, -⟩ | ⟨-, hgone⟩
  · exact hkeep ▸ h
  · exact absurd hnext Stage.next_ne_put
  · exact nomatch hgone.symm.trans h

theorem not_returned_of_next {o : Op String Object} (hnext : s.stage.next t = some o) :
    ¬s.Returned := by
  intro h
  unfold Returned at h
  split at h
  · rename_i hstage
    rw [hstage] at hnext
    exact nomatch hnext
  · exact h

/-- A step of the request keeps what holds everywhere. -/
theorem Base.advance (h : s.Base t id) {o : Op String Object} (hnext : s.stage.next t = some o)
    (hread : t.kind = .replicaSet → (s.advance t o).Read t id →
      ∃ a ∈ s.held, a.key = t.key ∧ a.id = id) : (s.advance t o).Base t id where
  follows := rfl
  disciplined := h.disciplined
  holds k rs hlookup := h.holds k rs (lookup_advance hnext hlookup)
  saw := h.saw
  unique := h.unique
  one hkind k deploy hlookup := h.one hkind k deploy (lookup_advance hnext hlookup)
  oneSeen := h.oneSeen
  begun _ := h.begun (not_returned_of_next hnext)
  readHeld := hread

theorem idField_of_is {v : Object} (h : t.Is id v) : v.idField = some id := by
  unfold Target.Is at h
  split at h
  · obtain ⟨deploy, hv, hid⟩ := h
    rw [Object.asDeployment_eq_some.mp hv, Object.idField, hid]
  · obtain ⟨rs, hv, hid⟩ := h
    rw [Object.asReplicaSet_eq_some.mp hv, Object.idField, hid]

/-- The id of the object that has been read. -/
theorem bind_idField_of_read (h : s.Read t id) : s.read.bind Object.idField = some id := by
  obtain ⟨v, hv, his⟩ := h
  rw [Option.mem_def.mp hv]
  exact idField_of_is his

/-- The object is read. -/
theorem Progress.read (h : s.Located t id) (hstage : s.stage = .reading) :
    (s.advance t (.get t.key)).Progress t id := by
  have hread : (s.advance t (.get t.key)).read = s.pool.store.lookup t.key := rfl
  unfold Progress
  cases hid : (s.pool.store.lookup t.key).bind Object.idField with
  | none =>
      have hnext : (s.advance t (.get t.key)).stage = .cascading [] [] := by
        simp only [advance, hstage, Op.answer, Stage.observe, hid]
      rw [hnext]
      intro hr
      have := bind_idField_of_read hr
      rw [hread, hid] at this
      cases this
  | some id' =>
      have hsame : (s.advance t (.get t.key)).Read t id → id' = id := by
        intro hr
        have := bind_idField_of_read hr
        rw [hread, hid] at this
        exact Option.some_inj.mp this
      have hnext : (s.advance t (.get t.key)).stage = Stage.first t id' := by
        simp only [advance, hstage, Op.answer, Stage.observe, hid]
      rw [hnext, Stage.first]
      cases hkind : t.kind with
      | deployment => exact ⟨⟨h.replicaSets, h.there, h.pods⟩, rfl, hsame⟩
      | replicaSet =>
          intro hr
          obtain rfl := hsame hr
          refine ⟨fun k rs _ howns => ?_, fun k pod owner hpod howner hthrough => ?_⟩
          · cases hkind.symm.trans howns.1
          · refine Or.inr ⟨?_, h.pods k pod owner hpod howner hthrough⟩
            unfold Target.Through at hthrough
            simp only [hkind] at hthrough
            exact List.mem_singleton.mpr hthrough

/-- The ReplicaSets of the deployment are listed. -/
theorem Progress.list (h : s.Located t id) (hkind : t.kind = .deployment) {id' : String}
    (hid : s.Read t id → id' = id) (hstage : s.stage = .listing id') :
    (s.advance t (.list fun k => startsWith k (replicaSetPrefixOf t.ns))).Progress t id := by
  have hnext : (s.advance t (.list fun k => startsWith k (replicaSetPrefixOf t.ns))).stage =
      .cascading [] ((ownedReplicaSets id' (s.pool.store.scan fun k =>
        startsWith k (replicaSetPrefixOf t.ns))).map fun e => (some e.1, e.2.id)) := by
    simp only [advance, hstage, Op.answer, Stage.observe]
  unfold Progress
  rw [hnext]
  intro hr
  obtain rfl := hid hr
  have hlisted : ∀ k rs, s.pool.store.lookup k = some (.replicaSet rs) → t.Owns id' rs →
      (some k, rs.id) ∈ (ownedReplicaSets id' (s.pool.store.scan fun k =>
        startsWith k (replicaSetPrefixOf t.ns))).map fun e => (some e.1, e.2.id) := by
    intro k rs hlookup howns
    refine List.mem_map.mpr ⟨(k, rs), mem_ownedReplicaSets.mpr ⟨?_, howns.2⟩, rfl⟩
    exact KeyValue.mem_scan.mpr ⟨hlookup, h.replicaSets k rs hlookup howns⟩
  refine ⟨fun k rs hlookup howns => Or.inr (hlisted k rs hlookup howns), ?_⟩
  intro k pod owner hpod howner hthrough
  refine Or.inr ⟨?_, h.pods k pod owner hpod howner hthrough⟩
  -- The ReplicaSet through which the pod is owned is there, and has been listed.
  unfold Target.Through at hthrough
  simp only [hkind] at hthrough
  obtain ⟨a, ha, haowner, rfl⟩ := hthrough
  obtain ⟨rs, hlookup, hrs, howns⟩ := h.there hkind a ha haowner
  exact List.mem_map.mpr ⟨_, hlisted a.key rs hlookup ⟨hkind, howns⟩, hrs⟩

/-- A key is removed. -/
theorem Progress.remove {k : String} {keys : List String} {left : List (Option String × String)}
    (h : s.Read t id → s.Covered t id (k :: keys) left)
    (hstage : s.stage = .cascading (k :: keys) left) :
    (s.advance t (.delete k)).Progress t id := by
  have hnext : (s.advance t (.delete k)).stage = .cascading keys left := by
    simp only [advance, hstage, Op.answer, Stage.observe]
  unfold Progress
  rw [hnext]
  intro hr
  have hcovered := h hr
  have hrest : ∀ k' v, (s.pool.store.erase k).lookup k' = some v →
      s.pool.store.lookup k' = some v ∧ k' ≠ k := by
    intro k' v hlookup
    rw [KeyValue.lookup_erase] at hlookup
    split_ifs at hlookup with hk
    exact ⟨hlookup, hk⟩
  constructor
  · intro k' rs hlookup howns
    obtain ⟨hold, hne⟩ := hrest k' _ hlookup
    rcases hcovered.replicaSets k' rs hold howns with hmem | hleft
    · exact Or.inl ((List.mem_cons.mp hmem).resolve_left hne)
    · exact Or.inr hleft
  · intro k' pod owner hlookup howner hthrough
    obtain ⟨hold, hne⟩ := hrest k' _ hlookup
    rcases hcovered.pods k' pod owner hold howner hthrough with hmem | hleft
    · exact Or.inl ((List.mem_cons.mp hmem).resolve_left hne)
    · exact Or.inr hleft

/-- The pods of an owner are listed. -/
theorem Progress.sweep {owner : Option String × String} {left : List (Option String × String)}
    (h : s.Read t id → s.Covered t id [] (owner :: left))
    (hstage : s.stage = .cascading [] (owner :: left)) :
    (s.advance t (.list fun k => startsWith k (podPrefixOf t.ns))).Progress t id := by
  have hnext : (s.advance t (.list fun k => startsWith k (podPrefixOf t.ns))).stage =
      .cascading ((ownedPods owner.2 (s.pool.store.scan fun k =>
        startsWith k (podPrefixOf t.ns))).map Prod.fst ++ owner.1.toList) left := by
    simp only [advance, hstage, Op.answer, Stage.observe]
  unfold Progress
  rw [hnext]
  intro hr
  have hcovered := h hr
  constructor
  · intro k rs hlookup howns
    rcases hcovered.replicaSets k rs hlookup howns with hnone | hleft
    · cases hnone
    · rcases List.mem_cons.mp hleft with rfl | hmem
      · exact Or.inl (List.mem_append_right _ (List.mem_singleton_self k))
      · exact Or.inr hmem
  · intro k pod podOwner hlookup howner hthrough
    rcases hcovered.pods k pod podOwner hlookup howner hthrough with hnone | ⟨hleft, hprefix⟩
    · cases hnone
    · rcases List.mem_cons.mp hleft with rfl | hmem
      · refine Or.inl (List.mem_append_left _ (List.mem_map.mpr ⟨(k, pod), ?_, rfl⟩))
        exact mem_ownedPods.mpr ⟨KeyValue.mem_scan.mpr ⟨hlookup, hprefix⟩, howner⟩
      · exact Or.inr ⟨hmem, hprefix⟩

/-- The object itself is removed. -/
theorem Progress.finish (hbase : s.Base t id) (h : s.Read t id → s.Covered t id [] [])
    (hstage : s.stage = .cascading [] []) : (s.advance t (.delete t.key)).Progress t id := by
  have hnext : (s.advance t (.delete t.key)).stage = .returned .noContent := by
    simp only [advance, hstage, Op.answer, Stage.observe]
  unfold Progress
  rw [hnext]
  intro hr
  have hcovered := h hr
  constructor
  · intro k v hlookup hfamily
    change (s.pool.store.erase t.key).lookup k = some v at hlookup
    rw [KeyValue.lookup_erase] at hlookup
    split_ifs at hlookup with hk
    rcases hfamily with (⟨hkey, -⟩ | ⟨rs, hrs, howns⟩) | ⟨pod, hpod, owner, howner, hthrough⟩
    · exact hk hkey
    · obtain rfl := Object.asReplicaSet_eq_some.mp hrs
      rcases hcovered.replicaSets k rs hlookup howns with hnone | hnone <;> cases hnone
    · obtain rfl := Object.asPod_eq_some.mp hpod
      rcases hcovered.pods k pod owner hlookup howner hthrough with hnone | ⟨hnone, -⟩ <;>
        cases hnone
  · intro tid th hth htid
    refine absurd (hbase.begun ?_ tid th hth) htid
    unfold Returned
    rw [hstage]
    exact not_false

/-- What holds in every state of an undisturbed run. -/
structure Inv (t : Target) (id : String) (s : Deletion) : Prop where
  base : s.Base t id
  progress : s.Progress t id

/-- **The step.** -/
theorem Inv.step (h : s.Inv t id) (a : DeletionStep) (ha : s.Undisturbed t id a) :
    (s.step t a).Inv t id := by
  cases a with
  | pass p => exact ⟨h.base.pass ha, h.progress.pass h.base ha⟩
  | request outcome =>
      obtain rfl : outcome = .ok := ha
      have hprogress := h.progress
      unfold Progress at hprogress
      cases hstage : s.stage with
      | reading =>
          have hnext : s.stage.next t = some (.get t.key) := by
            rw [hstage]
            rfl
          simp only [hstage] at hprogress
          rw [step_request h.base hnext]
          refine ⟨h.base.advance hnext fun hkind hr => ?_, Progress.read hprogress.2 hstage⟩
          -- What has been read is in the store.
          obtain ⟨v, hv, his⟩ := hr
          simp only [Target.Is, hkind] at his
          obtain ⟨rs, hrs, hid⟩ := his
          obtain rfl := Object.asReplicaSet_eq_some.mp hrs
          exact ⟨_, h.base.holds t.key rs hv, rfl, hid⟩
      | listing id' =>
          have hnext : s.stage.next t =
              some (.list fun k => startsWith k (replicaSetPrefixOf t.ns)) := by
            rw [hstage]
            rfl
          simp only [hstage] at hprogress
          rw [step_request h.base hnext]
          exact ⟨h.base.advance hnext h.base.readHeld,
            Progress.list hprogress.1 hprogress.2.1 hprogress.2.2 hstage⟩
      | cascading keys left =>
          simp only [hstage] at hprogress
          cases keys with
          | cons k keys =>
              have hnext : s.stage.next t = some (.delete k) := by
                rw [hstage]
                rfl
              rw [step_request h.base hnext]
              exact ⟨h.base.advance hnext h.base.readHeld, Progress.remove hprogress hstage⟩
          | nil =>
              cases left with
              | cons owner left =>
                  have hnext : s.stage.next t =
                      some (.list fun k => startsWith k (podPrefixOf t.ns)) := by
                    rw [hstage]
                    rfl
                  rw [step_request h.base hnext]
                  exact ⟨h.base.advance hnext h.base.readHeld, Progress.sweep hprogress hstage⟩
              | nil =>
                  have hnext : s.stage.next t = some (.delete t.key) := by
                    rw [hstage]
                    rfl
                  rw [step_request h.base hnext]
                  exact ⟨h.base.advance hnext h.base.readHeld,
                    Progress.finish h.base hprogress hstage⟩
      | returned code =>
          rw [step_request_returned h.base hstage]
          exact h

/-! ## Every run -/

theorem inv_start {store : Registry} (h : Starts t id store) : (start t store).Inv t id := by
  have hstore : ∀ {k v}, store.lookup k = some v → (k, v) ∈ store.rows :=
    fun hlookup => KeyValue.lookup_eq_some.mp hlookup
  constructor
  · exact {
      follows := rfl
      disciplined := Pool.disciplined_idle _ _ store
      holds := fun k rs hlookup => mem_recordsOf.mpr ⟨k, rs, hlookup, rfl⟩
      saw := fun tid th k rs hth => nomatch hth
      unique := h.unique
      one := fun hkind k deploy hlookup => h.one hkind _ (hstore hlookup) deploy rfl
      oneSeen := fun hkind tid th k deploy hth => nomatch hth
      begun := fun _ tid th hth => nomatch hth
      readHeld := fun _ hread => by
        obtain ⟨v, hv, -⟩ := hread
        exact nomatch hv }
  · refine ⟨rfl, fun k rs hlookup => h.replicaSets _ (hstore hlookup) rs rfl, ?_,
      fun k pod owner hlookup => h.pods _ (hstore hlookup) pod rfl owner⟩
    intro hkind a ha howner
    obtain ⟨k, rs, hlookup, rfl⟩ := mem_recordsOf.mp ha
    exact ⟨rs, hlookup, rfl, howner⟩

/-- A request that has returned is at its last stage. -/
theorem Inv.final (h : s.Inv t id) : s.Final t id := by
  rintro ⟨code, hresult⟩ - hread
  cases hnext : s.stage.next t with
  | some o =>
      rw [h.base.follows, Stage.prog_eq t hnext] at hresult
      exact nomatch hresult
  | none =>
      obtain ⟨code', hstage⟩ := Stage.next_eq_none hnext
      have hprogress := h.progress
      unfold Progress at hprogress
      simp only [hstage] at hprogress
      exact (hprogress hread).clean

end Deletion

open Deletion in
/-- **Deletion is final.**  If ids are unique, and what the object owns is where it belongs, then
in every run that no pass disturbs, nothing of the object remains once the request has returned
and the passes that were under way have ended. -/
theorem deletion_final (t : Target) (id : String) (store : Registry) (hstore : Deletion.Starts t id store)
    (steps : List DeletionStep)
    (h : Admitted (step t) (fun s => s.Undisturbed t id) (start t store) steps) :
    Along (step t) (fun s => s.Final t id) (start t store) steps :=
  (along_of_admitted (fun s => s.Inv t id) (fun _ a ha hs => hs.step a ha) (inv_start hstore)
    h).mono fun _ hs => hs.final

/-! ## A pass in between, and a pass that is late -/

/-- The deployment of the small cluster. -/
def webTarget : Target := ⟨.deployment, "default", "web"⟩

/-- Its ReplicaSet. -/
def webReplicaSet : ReplicaSet :=
  newReplicaSet "rs1" 0 "default" webDeployment (templateHash emptyTemplate) 1

/-- The small cluster with the ReplicaSet and a pod of the deployment. -/
def webFamily : Registry :=
  (webStore.insert (replicaSetKey "default" webReplicaSet.name) (.replicaSet webReplicaSet)).insert
    (podKey "default" "web-1") (.pod (newPod "pod1" 0 "default" webReplicaSet))

/-- A pass goes on. -/
def goesOn (tid : ℕ) : DeletionStep := .pass (.advance tid .ok)

/-- A pass of the ReplicaSet controller writes the status after the request has read the
deployment, and a pass of the deployment controller begins after the request. -/
def undisturbedRun : List DeletionStep :=
  [.pass (.spawn 0 (.replicaSets quietEnv)), goesOn 0, goesOn 0, goesOn 0, goesOn 0,
   .request .ok, goesOn 0, goesOn 0,
   .request .ok, .request .ok, .request .ok, .request .ok, .request .ok,
   .pass (.spawn 1 (.deployments quietEnv)), goesOn 1, goesOn 1]

open Deletion in
theorem deletion_final_pass_between :
    Along (step webTarget) (fun s => s.Final webTarget "d1") (start webTarget webFamily)
      undisturbedRun :=
  deletion_final webTarget "d1" webFamily
    ⟨by decide +kernel, by decide +kernel, by decide +kernel, by decide +kernel⟩ undisturbedRun
    (by decide +kernel)

/-- A pass of the deployment controller has listed the deployment, the request removes it, and
the pass writes the status. -/
def lateStatus : List DeletionStep :=
  [.pass (.spawn 0 (.deployments quietEnv)), goesOn 0, goesOn 0, goesOn 0, goesOn 0,
   .request .ok, .request .ok, .request .ok, .request .ok, .request .ok, .request .ok, goesOn 0]

open Deletion in
/-- The deployment is there again. -/
theorem deletion_final_fails_late_status :
    ¬Along (step webTarget) (fun s => s.Final webTarget "d1") (start webTarget webFamily)
      lateStatus := by
  intro h
  have hfinal := h lateStatus (List.prefix_refl _)
  -- What the run leaves is evaluated once for all that is said of it.
  obtain ⟨hread, hresult, hearly, hthere⟩ :
      (run (step webTarget) (start webTarget webFamily) lateStatus).read =
          some (.deployment webDeployment) ∧
        (run (step webTarget) (start webTarget webFamily) lateStatus).prog.result =
          some (.ok .noContent) ∧
        (∀ tid ∈ (run (step webTarget) (start webTarget webFamily) lateStatus).early,
          ∀ th ∈ (run (step webTarget) (start webTarget webFamily) lateStatus).pool.threads tid,
            th.prog.result.isSome) ∧
        (run (step webTarget) (start webTarget webFamily) lateStatus).pool.store.lookup
          webTarget.key = some (.deployment webDeployment) := by
    decide +kernel
  refine hfinal ⟨.noContent, hresult⟩ hearly ⟨_, hread, by decide⟩ webTarget.key
    (.deployment webDeployment) ?_ ?_
  · exact hthere
  · exact Target.family_deployment.mpr (Target.kin_deployment.mpr ⟨rfl, rfl, rfl⟩)

end K3rs
