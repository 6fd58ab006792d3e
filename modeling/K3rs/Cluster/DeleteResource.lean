import K3rs.Cluster.ReplicaSets
import K3rs.Server.Backup
import K3rs.Server.VpcRegistry

/-!
# Requests that remove a resource

`delete_resource` removes a deployment or a ReplicaSet together with what it owns: it reads the
object, lists and removes what it owns, and then removes the object itself.

The request is followed by a `Stage`: the keys that it is going to remove next, and the owners
whose pods it has not listed yet.  `Stage.prog_eq` ties the stage to what remains of the
program.
-/

namespace K3rs

open Programs

/-! ## The request -/

/-- The field `id` of an object. -/
def Object.idField : Object → Option String
  | deployment deploy => some deploy.id
  | replicaSet rs => some rs.id
  | .pod p => some p.id
  | .hpa h => some h.id
  | .node n => some n.id
  | .job j => some j.id
  | .daemonSet ds => some ds.id
  -- The record of a VPC has no such field.
  | .vpc _ => none
  | other text =>
      match Json.parse text.toList with
      | some (.obj fields) =>
          -- Of several fields with one name the last one counts.
          match fieldOf fields.reverse "id" with
          | some (.str id) => some id
          | _ => none
      | _ => none

/-- Where a resource is. -/
def resourceKey (resourceType ns name : String) : String :=
  "/registry/" ++ resourceType ++ "/" ++ ns ++ "/" ++ name

/-- Remove a key, and go on if that fails. -/
def tryDelete (key : String) : Program Unit := do
  let _ ← (Prog.delete key).attempt

/-- `cascade_delete_owned_pods`.  The count is for the log. -/
def cascadeDeleteOwnedPods (ns ownerId : String) : Program Unit := do
  match ← (listPrefix (podPrefixOf ns)).attempt with
  | .ok entries => Prog.forEach (fun e => tryDelete e.1) (ownedPods ownerId entries)
  | .error _ => pure ()

/-- `cascade_delete_owned_replicasets`. -/
def cascadeDeleteOwnedReplicaSets (ns deployId : String) : Program Unit := do
  match ← (listPrefix (replicaSetPrefixOf ns)).attempt with
  | .ok entries =>
      Prog.forEach (fun e => do
        cascadeDeleteOwnedPods ns e.2.id
        tryDelete e.1) (ownedReplicaSets deployId entries)
  | .error _ => pure ()

/-- What is removed with a resource. -/
def cascadeDelete (resourceType ns id : String) : Program Unit :=
  match resourceType with
  | "deployments" => cascadeDeleteOwnedReplicaSets ns id
  | "replicasets" => cascadeDeleteOwnedPods ns id
  | "daemonsets" => cascadeDeleteOwnedPods ns id
  | "jobs" => cascadeDeleteOwnedPods ns id
  | _ => pure ()

/-- The last operation of the request. -/
def deleteSelf (key : String) : Program StatusCode := do
  match ← (Prog.delete key).attempt with
  | .ok () => return .noContent
  | .error _ => return .internalServerError

/-- `delete_resource`. -/
def deleteResource (resourceType ns name : String) : Program StatusCode := do
  let key := resourceKey resourceType ns name
  match ← (Prog.get key).attempt with
  | .ok data =>
      match data.bind Object.idField with
      | some id => do
          cascadeDelete resourceType ns id
          deleteSelf key
      | none => deleteSelf key
  | .error _ => deleteSelf key

/-! ## Where the request is -/

/-- The kinds of objects whose removal is at issue. -/
inductive OwnerKind where
  | deployment
  | replicaSet
  deriving DecidableEq, Repr

/-- The object that is to be removed. -/
structure Target where
  kind : OwnerKind
  ns : String
  name : String

namespace Target

variable (t : Target)

/-- The `resource_type` of the request. -/
def resourceType : String :=
  match t.kind with
  | .deployment => "deployments"
  | .replicaSet => "replicasets"

/-- Where the object is. -/
def key : String := resourceKey t.resourceType t.ns t.name

/-- The request. -/
def request : Program StatusCode := deleteResource t.resourceType t.ns t.name

end Target

/-- Where the request is. -/
inductive Stage where
  /-- The object is read next. -/
  | reading
  /-- The ReplicaSets of the deployment with this id are listed next. -/
  | listing (id : String)
  /-- The keys are removed next.  Then come the owners, each with the key that is removed after
  its pods; and then the object. -/
  | cascading (keys : List String) (left : List (Option String × String))
  | returned (code : StatusCode)
  deriving DecidableEq, Repr

namespace Stage

/-- The stage after the object has been read. -/
def first (t : Target) (id : String) : Stage :=
  match t.kind with
  | .deployment => listing id
  | .replicaSet => cascading [] [(none, id)]

/-- The stage after an operation of the request. -/
def observe (t : Target) : Stage → (o : Op String Object) → o.Answer → Stage
  | reading, .get _, .ok data =>
      match data.bind Object.idField with
      | some id => first t id
      | none => cascading [] []
  | reading, .get _, .error _ => cascading [] []
  | listing id, .list _, .ok entries =>
      cascading [] ((ownedReplicaSets id entries).map fun e => (some e.1, e.2.id))
  | listing _, .list _, .error _ => cascading [] []
  | cascading [] ((own, ownerId) :: left), .list _, .ok entries =>
      cascading ((ownedPods ownerId entries).map Prod.fst ++ own.toList) left
  | cascading [] ((own, _) :: left), .list _, .error _ => cascading own.toList left
  | cascading (_ :: keys) left, .delete _, _ => cascading keys left
  | cascading [] [], .delete _, .ok () => returned .noContent
  | cascading [] [], .delete _, .error _ => returned .internalServerError
  | stage, _, _ => stage

/-- An owner: its pods, and then its key. -/
def sweep (ns : String) (owner : Option String × String) : Program Unit := do
  cascadeDeleteOwnedPods ns owner.2
  Prog.forEach tryDelete owner.1.toList

/-- What remains of the request. -/
def prog (t : Target) : Stage → Program StatusCode
  | reading => t.request
  | listing id => do
      cascadeDeleteOwnedReplicaSets t.ns id
      deleteSelf t.key
  | cascading keys left => do
      Prog.forEach tryDelete keys
      Prog.forEach (sweep t.ns) left
      deleteSelf t.key
  | returned code => pure code

/-- The next operation of the request. -/
def next (t : Target) : Stage → Option (Op String Object)
  | reading => some (.get t.key)
  | listing _ => some (.list fun k => startsWith k (replicaSetPrefixOf t.ns))
  | cascading (k :: _) _ => some (.delete k)
  | cascading [] (_ :: _) => some (.list fun k => startsWith k (podPrefixOf t.ns))
  | cascading [] [] => some (.delete t.key)
  | returned _ => none

/-- Only at the end there is no next operation. -/
theorem next_eq_none {t : Target} {stage : Stage} (h : stage.next t = none) :
    ∃ code, stage = returned code := by
  cases stage with
  | reading => exact nomatch h
  | listing id => exact nomatch h
  | cascading keys left =>
      cases keys with
      | cons k keys => exact nomatch h
      | nil => cases left <;> exact nomatch h
  | returned code => exact ⟨code, rfl⟩

/-- The request puts nothing. -/
theorem next_ne_put {t : Target} {stage : Stage} {k : String} {v : Object} :
    stage.next t ≠ some (.put k v) := by
  intro h
  cases stage with
  | reading => exact nomatch h
  | listing id => exact nomatch h
  | cascading keys left =>
      cases keys with
      | cons k keys => exact nomatch h
      | nil => cases left <;> exact nomatch h
  | returned code => cases h

theorem prog_cascading_nil (t : Target) (left : List (Option String × String)) :
    (cascading [] left).prog t = Prog.forEach (sweep t.ns) left >>= fun _ => deleteSelf t.key := rfl

/-- The request after the object has been read. -/
theorem prog_first (t : Target) (id : String) :
    (first t id).prog t = cascadeDelete t.resourceType t.ns id >>= fun _ => deleteSelf t.key := by
  obtain ⟨kind, ns, name⟩ := t
  cases kind with
  | deployment => rfl
  | replicaSet =>
      change (cascading [] [(none, id)]).prog _ = _
      rw [prog_cascading_nil, Prog.forEach, Prog.bind_assoc, sweep, Prog.bind_assoc]
      rfl

theorem request_eq (t : Target) :
    t.request = .op (.get t.key) fun answer => (reading.observe t (.get t.key) answer).prog t := by
  refine congrArg (Prog.op _) (funext fun answer => ?_)
  cases answer with
  | error e => rfl
  | ok data =>
      change (match data.bind Object.idField with
        | some id => cascadeDelete t.resourceType t.ns id >>= fun _ => deleteSelf t.key
        | none => deleteSelf t.key) = _
      cases hid : data.bind Object.idField with
      | none =>
          simp only [observe, hid]
          rfl
      | some id => simp only [observe, hid, prog_first]

theorem cascadeDeleteOwnedReplicaSets_eq (ns id : String) : cascadeDeleteOwnedReplicaSets ns id =
    .op (.list fun k => startsWith k (replicaSetPrefixOf ns)) fun answer =>
      match answer with
      | .ok entries => Prog.forEach (sweep ns)
          ((ownedReplicaSets id entries).map fun e => (some e.1, e.2.id))
      | .error _ => pure () := by
  refine congrArg (Prog.op _) (funext fun answer => ?_)
  cases answer with
  | error e => rfl
  | ok entries =>
      simp only [Prog.forEach_map]
      refine congrArg (Prog.forEach · _) (funext fun e => ?_)
      change _ = cascadeDeleteOwnedPods ns e.2.id >>= fun _ => Prog.forEach tryDelete [e.1]
      rfl

theorem sweep_eq (ns : String) (owner : Option String × String) :
    sweep ns owner = .op (.list fun k => startsWith k (podPrefixOf ns)) fun answer =>
      Prog.forEach tryDelete (match answer with
        | .ok entries => (ownedPods owner.2 entries).map Prod.fst ++ owner.1.toList
        | .error _ => owner.1.toList) := by
  refine congrArg (Prog.op _) (funext fun answer => ?_)
  cases answer with
  | error e => rfl
  | ok entries =>
      simp only [Prog.forEach_append, Prog.forEach_map]
      rfl

/-- **The request follows its stages.** -/
theorem prog_eq (t : Target) {stage : Stage} {o : Op String Object} (h : stage.next t = some o) :
    stage.prog t = .op o fun answer => (stage.observe t o answer).prog t := by
  cases stage with
  | reading =>
      obtain rfl := Option.some_inj.mp h
      exact request_eq t
  | listing id =>
      obtain rfl := Option.some_inj.mp h
      rw [prog, cascadeDeleteOwnedReplicaSets_eq]
      refine congrArg (Prog.op _) (funext fun answer => ?_)
      cases answer <;> rfl
  | cascading keys left =>
      cases keys with
      | cons k keys =>
          obtain rfl := Option.some_inj.mp h
          refine congrArg (Prog.op _) (funext fun answer => ?_)
          cases answer <;> rfl
      | nil =>
          cases left with
          | nil =>
              obtain rfl := Option.some_inj.mp h
              refine congrArg (Prog.op _) (funext fun answer => ?_)
              cases answer <;> rfl
          | cons owner left =>
              obtain rfl := Option.some_inj.mp h
              rw [prog_cascading_nil, Prog.forEach, Prog.bind_assoc, sweep_eq]
              refine congrArg (Prog.op _) (funext fun answer => ?_)
              cases answer <;> rfl
  | returned code => cases h

end Stage

end K3rs
