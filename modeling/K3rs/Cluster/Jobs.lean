import K3rs.Cluster.ReplicaSets

/-!
# The job controller

A pass of `JobController` goes through the jobs it has listed and leaves out those that are
complete or have failed.  For each of the others it counts the pods of the job, marks the job
complete or failed, or creates the missing pods, and puts the job back with the counts.

`reconcileJobs_ops` says what such a pass can do, given what it has seen.  Sums and differences
of counts wrap, as in the release build.
-/

namespace K3rs

open Programs

/-! ## Pods of a job -/

/-- Where the jobs of a namespace are. -/
def jobPrefixOf (ns : String) : String := "/registry/jobs/" ++ ns ++ "/"

/-- A pod of a job, before it is scheduled. -/
def newJobPod (id : String) (now : DateTime) (ns : String) (job : Job) : Pod where
  id := id
  name := job.name ++ "-" ++ String.ofList (id.toList.take 8)
  ns := ns
  spec := job.spec.template
  status := .pending
  statusMessage := none
  containerId := none
  nodeName := none
  labels := []
  ownerRef := some job.id
  restartCount := 0
  runtimeInfo := none
  ghostIpv6 := none
  vpcName := none
  createdAt := now

/-- `create_job_pod`, for the job under `key`.  The first two times of a pass are those of the
job itself. -/
def createJobPod (env : PassEnv) (ns key : String) (job : Job) (nodes : List Node) (i : ℕ) :
    Program Unit :=
  let p := newJobPod (env.uuid key i) (env.now key (i + 2)) ns job
  let p := p.place env nodes
  Prog.put (podKey ns p.name) (.pod p)

/-! ## Counts -/

/-- The pod may still come to an end. -/
def PodStatus.isActive : PodStatus → Bool
  | .pending => true
  | .scheduled => true
  | .containerCreating => true
  | .running => true
  | _ => false

/-- The number of pods whose status passes a test, as a pass counts them. -/
def countPods (test : PodStatus → Bool) (pods : List (String × Pod)) : UInt32 :=
  UInt32.ofNat (pods.filter fun e => test e.2.status).length

/-- A job with its start time and the counts of its pods. -/
def Job.counted (job : Job) (now : DateTime) (pods : List (String × Pod)) : Job :=
  { job with status :=
    { job.status with
      startTime := some (job.status.startTime.getD now)
      active := countPods PodStatus.isActive pods
      succeeded := countPods (fun s => decide (s = .succeeded)) pods
      failed := countPods (fun s => decide (s = .failed)) pods } }

/-- The job is complete. -/
def Job.completed (job : Job) (now : DateTime) : Job :=
  { job with status := { job.status with condition := .complete, completionTime := some now } }

/-- Too many pods of the job have failed. -/
def Job.givenUp (job : Job) : Job :=
  { job with status := { job.status with condition := .failed } }

/-- The number of pods to create, of a job that has been counted. -/
def Job.toCreate (job : Job) : UInt32 :=
  if job.status.active < job.spec.parallelism ∧
      job.status.active + job.status.succeeded < job.spec.completions then
    min (job.spec.parallelism - job.status.active)
      (job.spec.completions - job.status.active - job.status.succeeded)
  else 0

/-! ## Passes -/

/-- What is done about a job that has been counted. -/
def advanceJob (env : PassEnv) (ns key : String) (nodes : List Node) (job : Job) : Program Unit :=
  if job.spec.completions ≤ job.status.succeeded then
    Prog.put key (.job (job.completed (env.now key 1)))
  else if job.spec.backoffLimit ≤ job.status.failed then
    Prog.put key (.job job.givenUp)
  else do
    Prog.forEach (createJobPod env ns key job nodes) (List.range job.toCreate.toNat)
    Prog.put key (.job job)

/-- The job is complete or has failed. -/
def Job.isOver (job : Job) : Bool :=
  decide (job.status.condition = .complete) || decide (job.status.condition = .failed)

/-- A pass over one listed job. -/
def reconcileJob (env : PassEnv) (ns : String) (nodes : List Node) (entry : String × Object) :
    Program Unit :=
  match entry.2.asJob with
  | none => pure ()
  | some job =>
      if job.isOver then pure ()
      else do
        let podEntries ← listPrefix (podPrefixOf ns)
        advanceJob env ns entry.1 nodes
          (job.counted (env.now entry.1 0) (ownedPods job.id podEntries))

/-- `JobController::reconcile_namespace`. -/
def reconcileJobNamespace (env : PassEnv) (ns : String) : Program Unit := do
  let jobEntries ← listPrefix (jobPrefixOf ns)
  let nodeEntries ← listPrefix "/registry/nodes/"
  let nodes := nodeEntries.filterMap fun e => e.2.asNode
  Prog.forEach (reconcileJob env ns nodes) jobEntries

/-- `JobController::reconcile`. -/
def reconcileJobs (env : PassEnv) : Program Unit :=
  reconcileNamespaces (reconcileJobNamespace env)

/-! ## What a pass can do -/

/-- The operations of a pass, given what it has seen. -/
inductive JobOp (env : PassEnv) (seen : Seen String Object) : Op String Object → Prop where
  | list (p : String → Bool) : JobOp env seen (.list p)
  | status (k : String) (job : Job) : JobOp env seen (.put k (.job job))
  /-- A new pod. -/
  | create (ns key id : String) (now : DateTime) (job job' : Job) (nodes : List Node)
      (hseen : seen.Ever key (.job job)) (hjob : job'.spec = job.spec ∧ job'.id = job.id)
      (hnodes : NodesSeen nodes seen) :
      JobOp env seen (.put (podKey ns ((newJobPod id now ns job').place env nodes).name)
        (.pod ((newJobPod id now ns job').place env nodes)))

/-- The program has been shown the nodes and every listed object. -/
def Shown (nodes : List Node) (entries : List (String × Object)) (seen : Seen String Object) : Prop :=
  NodesSeen nodes seen ∧ ∀ e ∈ entries, seen.Ever e.1 e.2

theorem Shown.grows {D : String → Prop} {nodes : List Node} {entries : List (String × Object)}
    {seen seen' : Seen String Object} (h : Shown nodes entries seen)
    (hgrows : Seen.Grows D seen seen') : Shown nodes entries seen' :=
  ⟨h.1.grows hgrows, fun e he => hgrows.ever (h.2 e he)⟩

/-- One more write. -/
theorem Shown.note {nodes : List Node} {entries : List (String × Object)}
    {seen : Seen String Object} (h : Shown nodes entries seen) (k : String) (v : Option Object) :
    Shown nodes entries (seen.note k v) :=
  h.grows (Seen.grows_note (D := fun _ => True) seen trivial v)

/-- One more listing. -/
theorem Shown.listing {nodes : List Node} {entries : List (String × Object)}
    {seen : Seen String Object} (h : Shown nodes entries seen) (p : String → Bool)
    (listed : List (String × Object)) : Shown nodes entries (seen.listing p listed) :=
  h.grows (Seen.grows_listing (D := fun _ => True) seen (fun _ _ => trivial) listed)

section Pass

variable {env : PassEnv} {nodes : List Node} {entries : List (String × Object)}
  {seen : Seen String Object}

theorem advanceJob_ops {ns key : String} {job job' : Job} (hkey : (key, .job job) ∈ entries)
    (hjob : job'.spec = job.spec ∧ job'.id = job.id) (h : Shown nodes entries seen) :
    (advanceJob env ns key nodes job').Meets (JobOp env) (fun _ s => Shown nodes entries s) seen := by
  have hput : ∀ (j : Job) (s : Seen String Object), Shown nodes entries s →
      (Prog.put key (.job j)).Meets (JobOp env) (fun _ s => Shown nodes entries s) s :=
    fun j s hs => Prog.Meets.put (.status key j) (hs.note _ _) fun _ => hs
  rw [advanceJob]
  split_ifs
  · exact hput _ _ h
  · exact hput _ _ h
  · refine Prog.Meets.seq (Prog.Meets.loop (fun i _ s hs => ?_) h) fun _ s hs => hput _ s hs
    exact Prog.Meets.put (.create ns key _ _ job job' nodes (hs.2 _ hkey) hjob hs.1) (hs.note _ _)
      fun _ => hs

theorem reconcileJob_ops (ns : String) {e : String × Object} (he : e ∈ entries)
    (h : Shown nodes entries seen) :
    (reconcileJob env ns nodes e).Meets (JobOp env) (fun _ s => Shown nodes entries s) seen := by
  rw [reconcileJob]
  cases hjob : e.2.asJob with
  | none => exact h
  | some job =>
      have hmem : (e.1, Object.job job) ∈ entries := Object.asJob_eq_some.mp hjob ▸ he
      dsimp only
      split_ifs
      · exact h
      · refine Prog.Meets.seq (Prog.Meets.list (.list _) (fun listed _ _ => h.listing _ listed)
          fun _ => h) fun listed s hs => ?_
        exact advanceJob_ops hmem ⟨rfl, rfl⟩ hs

end Pass

/-- **What a pass of the job controller can do.** -/
theorem reconcileJobs_ops (env : PassEnv) (seen : Seen String Object) :
    (reconcileJobs env).Meets (JobOp env) (fun _ _ => True) seen := by
  refine reconcileNamespaces_meets (fun _ p => .list p) (fun ns s => ?_) seen
  refine Prog.Meets.bind (Prog.Meets.list (.list _) (fun entries hp hnodup => ?_) fun _ => trivial)
  refine Prog.Meets.bind (Prog.Meets.list (.list _) (fun nodeEntries hp' hnodup' => ?_)
    fun _ => trivial)
  refine Prog.Meets.mono (fun _ _ _ => trivial) (Prog.Meets.loop
    (fun e he s hs => reconcileJob_ops ns he hs) ⟨nodesSeen_listing _ hp' hnodup', fun e he => ?_⟩)
  refine (Seen.grows_listing (D := fun _ => True) _ (fun _ _ => trivial) nodeEntries).ever ?_
  exact Seen.Ever.of_last (Seen.last_listing s hp hnodup he)

end K3rs
