import K3rs.Cluster.Jobs
import K3rs.Lib.IpText
import K3rs.Lib.LonePrograms
import K3rs.Lib.Words

/-!
# The CronJob controller

A pass of `CronJobController` goes through the CronJobs of every namespace.  For one that is due it
stores a Job and notes the id of the Job in `active_jobs`; then it looks up every noted id and keeps
those whose Job runs.  The Job is stored under a name made from the time, but looked up under its
id, so that it is never found: a pass that spawns a Job empties `active_jobs` again.

* `leaves_spawning`: what a pass makes of a CronJob that is due.
* `activeJobs_exact_iff`: `active_jobs` is right after every pass exactly as long as no pass finds a
  CronJob due.
-/

namespace K3rs

open Net Programs Transition Words

/-! ## CronJobs -/

/-- `CronJobStatus`. -/
structure CronJobStatus where
  lastScheduleTime : Option DateTime
  activeJobs : List String
  deriving DecidableEq, Repr

/-- `CronJobSpec`. -/
structure CronJobSpec where
  schedule : String
  jobTemplate : JobSpec
  suspend : Bool
  deriving DecidableEq, Repr

/-- `CronJob`. -/
structure CronJob where
  id : String
  name : String
  ns : String
  spec : CronJobSpec
  status : CronJobStatus
  createdAt : DateTime
  deriving DecidableEq, Repr

/-- `JobStatus::default`. -/
def JobStatus.default : JobStatus := ⟨0, 0, 0, .running, none, none⟩

/-- What is under a key, where CronJobs are stored too. -/
inductive CronObject where
  | cronJob (cj : CronJob)
  | object (v : Object)
  deriving DecidableEq, Repr

namespace CronObject

/-- `serde_json::from_slice::<CronJob>`. -/
def asCronJob : CronObject → Option CronJob
  | cronJob cj => some cj
  | object _ => none

/-- `serde_json::from_slice::<Job>`. -/
def asJob : CronObject → Option Job
  | cronJob _ => none
  | object v => v.asJob

theorem asCronJob_eq_some {v : CronObject} {cj : CronJob} :
    v.asCronJob = some cj ↔ v = .cronJob cj := by
  cases v <;> simp [asCronJob]

theorem asJob_eq_some {v : CronObject} {job : Job} :
    v.asJob = some job ↔ v = .object (.job job) := by
  cases v <;> simp [asJob, Object.asJob_eq_some]

end CronObject

/-- The contents of the store. -/
abbrev CronRegistry := KeyValue String CronObject

/-- A program over the store. -/
abbrev CronProgram (α : Type) := Prog String CronObject α

/-! ## Schedules -/

/-- `str::parse::<i64>`, where only success matters. -/
def parseI64 : List Char → Option ℤ
  | ['-'] => none
  | '-' :: digits => (parseDigits (2 ^ 63 + 1) 0 digits).toOption.map fun n => -(n : ℤ)
  | input => (parseUnsigned (2 ^ 63) input).toOption.map fun n => (n : ℤ)

/-- `now.format("%M")`, read as a number. -/
def currentMinute (now : DateTime) : ℕ := (now / 60000 % 60).toNat

/-- `is_schedule_due`. -/
def isScheduleDue (schedule : String) (lastRun now : DateTime) : Bool :=
  match splitWhitespace schedule.toList with
  | [] => false
  | minuteField :: _ =>
      -- `num_minutes` rounds towards zero.
      let elapsedMinutes := (now - lastRun).tdiv 60000
      match minuteField with
      | ['*'] => decide (1 ≤ elapsedMinutes)
      | '*' :: '/' :: interval =>
          match parseI64 interval with
          | some n => decide (n ≤ elapsedMinutes)
          | none => false
      | _ =>
          match parseUnsigned (2 ^ 32) minuteField with
          | .ok targetMinute =>
              decide (currentMinute now = targetMinute) && decide (1 ≤ elapsedMinutes)
          | .error _ => false

/-- The CronJob is due; one that never ran is. -/
def CronJob.isDue (cj : CronJob) (now : DateTime) : Bool :=
  match cj.status.lastScheduleTime with
  | some last => isScheduleDue cj.spec.schedule last now
  | none => true

/-! ## Passes -/

/-- What a pass takes from outside: the time, which is read once for each namespace, the id of the
Job of a CronJob, and the texts that times are formatted to.  An id ends with a dash and twelve
digits, a time with thirteen digits at least. -/
structure CronEnv where
  now : String → DateTime
  uuid : String → String → String
  /-- `now.format("%Y%m%d%H%M%S")`. -/
  stamp : DateTime → String
  uuid_dash : ∀ ns key, (uuid ns key).toList.reverse[12]? = some '-'
  stamp_digit : ∀ t, ∃ c, (stamp t).toList.reverse[12]? = some c ∧ c.isDigit = true

/-- Where the CronJobs of a namespace are. -/
def cronJobPrefixOf (ns : String) : String := "/registry/cronjobs/" ++ ns ++ "/"

/-- Where a Job is looked for. -/
def jobKey (ns name : String) : String := "/registry/jobs/" ++ ns ++ "/" ++ name

/-- The Job that a pass creates for the CronJob under `key`. -/
def spawnedJob (env : CronEnv) (ns key : String) (cj : CronJob) : Job where
  id := env.uuid ns key
  name := cj.name ++ "-" ++ env.stamp (env.now ns)
  ns := ns
  spec := cj.spec.jobTemplate
  status := JobStatus.default
  ownerRef := some cj.id
  createdAt := env.now ns

/-- The CronJob with one more active Job. -/
def CronJob.noted (cj : CronJob) (now : DateTime) (jobId : String) : CronJob :=
  { cj with
    status :=
      { lastScheduleTime := some now
        activeJobs := cj.status.activeJobs ++ [jobId] } }

/-- The CronJob with these active Jobs. -/
def CronJob.withActive (cj : CronJob) (active : List String) : CronJob :=
  { cj with
    status :=
      { cj.status with
        activeJobs := active } }

/-- Create a new Job. -/
def spawnJob (env : CronEnv) (ns key : String) (cj : CronJob) : CronProgram CronJob := do
  let job := spawnedJob env ns key cj
  Prog.put (jobKey ns job.name) (.object (.job job))
  let cj := cj.noted (env.now ns) job.id
  Prog.put key (.cronJob cj)
  pure cj

/-- What was found is a Job that runs. -/
def CronObject.isRunning (found : Option CronObject) : Bool :=
  (found.bind CronObject.asJob).any fun job => decide (job.status.condition = .running)

/-- The ids under which a Job is found that runs; an error counts as finding nothing. -/
def stillActive (ns : String) : List String → CronProgram (List String)
  | [] => pure []
  | jobId :: rest => do
      let found ← (Prog.get (jobKey ns jobId)).attempt
      let stillRest ← stillActive ns rest
      if CronObject.isRunning found.toOption.join then pure (jobId :: stillRest)
      else pure stillRest

/-- Clean up completed Jobs from the active list. -/
def cleanUp (ns key : String) (cj : CronJob) : CronProgram Unit := do
  let active ← stillActive ns cj.status.activeJobs
  if active.length ≠ cj.status.activeJobs.length then
    Prog.put key (.cronJob (cj.withActive active))
  else pure ()

/-- A pass over one listed entry. -/
def reconcileCronJob (env : CronEnv) (ns : String) (entry : String × CronObject) :
    CronProgram Unit :=
  match entry.2.asCronJob with
  | none => pure ()
  | some cj =>
      if cj.spec.suspend then pure ()
      else if cj.isDue (env.now ns) then do
        let cj ← spawnJob env ns entry.1 cj
        cleanUp ns entry.1 cj
      else cleanUp ns entry.1 cj

/-- `CronJobController::reconcile_namespace`. -/
def reconcileCronJobNamespace (env : CronEnv) (ns : String) : CronProgram Unit := do
  let cjEntries ← listPrefix (cronJobPrefixOf ns)
  Prog.forEach (reconcileCronJob env ns) cjEntries

/-- `CronJobController::reconcile`. -/
def reconcileCronJobs (env : CronEnv) : CronProgram Unit := do
  let nsEntries ← listPrefix "/registry/namespaces/"
  Prog.forEach (fun e =>
    if (namespaceOf e.1).isEmpty then pure ()
    else reconcileCronJobNamespace env (namespaceOf e.1)) nsEntries

/-! ## Keys -/

section Keys

theorem startsWith_jobKey (ns name : String) :
    startsWith (jobKey ns name) "/registry/jobs/" = true :=
  startsWith_append_left (startsWith_append_left (startsWith_append _ _) _) _

/-- A CronJob is under no key of a Job. -/
theorem ne_jobKey {key ns : String} (h : startsWith key (cronJobPrefixOf ns) = true)
    (ns' name : String) : key ≠ jobKey ns' name := by
  rintro rfl
  have hcron : startsWith (jobKey ns' name) "/registry/cronjobs/" = true :=
    startsWith_trans h (startsWith_append_left (startsWith_append _ _) _)
  have hnot : startsWith (jobKey ns' name) "/registry/cronjobs/" = false :=
    not_startsWith_of_startsWith (startsWith_jobKey ns' name) (by decide) (by decide)
  rw [hcron] at hnot
  cases hnot

/-- What a text ends with is what a longer one ends with. -/
private theorem reverse_getElem_append (a b : String) {i : ℕ} {c : Char}
    (h : b.toList.reverse[i]? = some c) : (a ++ b).toList.reverse[i]? = some c := by
  obtain ⟨hi, -⟩ := List.getElem?_eq_some_iff.mp h
  rw [String.toList_append, List.reverse_append, List.getElem?_append_left hi]
  exact h

/-- **An id is no name**: no Job is stored under the key made from the id of a Job. -/
theorem jobKey_uuid_ne (env : CronEnv) (ns key ns' key' : String) (cj : CronJob) :
    jobKey ns (env.uuid ns key) ≠ jobKey ns' (spawnedJob env ns' key' cj).name := by
  intro heq
  obtain ⟨c, hstamp, hdigit⟩ := env.stamp_digit (env.now ns')
  have hdash := reverse_getElem_append ("/registry/jobs/" ++ ns ++ "/") _ (env.uuid_dash ns key)
  have hname := reverse_getElem_append ("/registry/jobs/" ++ ns' ++ "/") _
    (reverse_getElem_append (cj.name ++ "-") _ hstamp)
  have hchar : some '-' = some c := by
    rw [← hdash, ← hname]
    exact congrArg (fun key : String => key.toList.reverse[12]?) heq
  obtain rfl := Option.some_inj.mp hchar
  cases hdigit

end Keys

/-! ## One CronJob -/

section Reconcile

variable {env : CronEnv} {ns key : String} {cj : CronJob} {s : CronRegistry}

/-- **The clean-up** keeps the ids under which it finds a Job that runs. -/
theorem leaves_stillActive (ns : String) (ids : List String) :
    (stillActive ns ids).Leaves (fun active s' => s' = s ∧ active =
      ids.filter fun jobId => CronObject.isRunning (s.lookup (jobKey ns jobId))) s := by
  induction ids with
  | nil => exact ⟨rfl, rfl⟩
  | cons jobId rest ih =>
      refine Prog.Runs.bind (Prog.Runs.attempt (Prog.Runs.get trivial ?_))
      refine Prog.Runs.bind (ih.mono ?_)
      rintro active s' ⟨rfl, rfl⟩
      show Prog.Runs _ _ _ (if CronObject.isRunning (s'.lookup (jobKey ns jobId)) then _ else _) s'
      rw [List.filter_cons]
      split_ifs
      · exact ⟨rfl, rfl⟩
      · exact ⟨rfl, rfl⟩

/-- Where nothing is noted, nothing is cleaned up. -/
theorem leaves_cleanUp_nil (hempty : cj.status.activeJobs = []) :
    (cleanUp ns key cj).Leaves (fun _ s' => s' = s) s := by
  refine Prog.Runs.bind ((leaves_stillActive ns cj.status.activeJobs).mono ?_)
  rintro active s' ⟨rfl, rfl⟩
  rw [hempty, List.filter_nil, if_neg (not_ne_iff.mpr rfl)]
  exact rfl

/-- A CronJob that is not due and has no active Jobs is left alone. -/
theorem leaves_reconcileCronJob_idle (hempty : cj.status.activeJobs = [])
    (hidle : cj.spec.suspend = false → cj.isDue (env.now ns) = false) :
    (reconcileCronJob env ns (key, .cronJob cj)).Leaves (fun _ s' => s' = s) s := by
  show Prog.Leaves _ (if cj.spec.suspend then _ else if cj.isDue (env.now ns) then _ else _) s
  split_ifs with hsuspend hdue
  · exact rfl
  · rw [hidle (Bool.eq_false_iff.mpr hsuspend)] at hdue
    cases hdue
  · exact leaves_cleanUp_nil hempty

/-- What is stored when a CronJob without active Jobs has been due. -/
def afterSpawn (env : CronEnv) (ns key : String) (cj : CronJob) (s : CronRegistry) : CronRegistry :=
  let job := spawnedJob env ns key cj
  (s.insert (jobKey ns job.name) (.object (.job job))).insert key
    (.cronJob ((cj.noted (env.now ns) job.id).withActive []))

/-- **The new Job is forgotten at once**: it is stored, but the clean-up does not find it. -/
theorem leaves_spawning (hempty : cj.status.activeJobs = []) (hsuspend : cj.spec.suspend = false)
    (hdue : cj.isDue (env.now ns) = true) (hkey : startsWith key (cronJobPrefixOf ns) = true)
    (hfresh : s.lookup (jobKey ns (env.uuid ns key)) = none) :
    (reconcileCronJob env ns (key, .cronJob cj)).Leaves
      (fun _ s' => s' = afterSpawn env ns key cj s) s := by
  show Prog.Leaves _ (if cj.spec.suspend then _ else if cj.isDue (env.now ns) then _ else _) s
  rw [if_neg (Bool.eq_false_iff.mp hsuspend), if_pos hdue]
  refine Prog.Runs.bind (Prog.Runs.bind (Prog.Runs.put (fun _ => trivial) fun _ => ?_))
  refine Prog.Runs.bind (Prog.Runs.put (fun _ => trivial) fun _ => ?_)
  refine Prog.Runs.bind ((leaves_stillActive ns _).mono ?_)
  rintro active s' ⟨rfl, rfl⟩
  have hnone : ((s.insert (jobKey ns (spawnedJob env ns key cj).name)
      (.object (.job (spawnedJob env ns key cj)))).insert key
        (.cronJob (cj.noted (env.now ns) (spawnedJob env ns key cj).id))).lookup
          (jobKey ns (env.uuid ns key)) = none := by
    rw [KeyValue.lookup_insert_of_ne (ne_jobKey hkey _ _).symm,
      KeyValue.lookup_insert_of_ne (jobKey_uuid_ne env ns key ns key cj)]
    exact hfresh
  have hnoted : (cj.noted (env.now ns) (spawnedJob env ns key cj).id).status.activeJobs =
      [env.uuid ns key] := by
    rw [CronJob.noted, hempty]
    rfl
  have hshort : ([] : List String).length ≠ [env.uuid ns key].length := Nat.zero_ne_one
  rw [hnoted, List.filter_cons_of_neg (by rw [hnone]; decide), List.filter_nil, if_pos hshort]
  refine Prog.Runs.put (fun _ => trivial) fun _ => KeyValue.ext_lookup fun k => ?_
  rw [afterSpawn]
  simp only [KeyValue.lookup_insert]
  split_ifs
  · rfl
  · rfl
  · rfl

end Reconcile

/-! ## The active Jobs -/

/-- The ids of the stored Jobs that a CronJob has spawned and that run. -/
def runningIds (id : String) (s : CronRegistry) : List String :=
  ((s.rows.filterMap fun e => e.2.asJob).filter fun job =>
    decide (job.ownerRef = some id ∧ job.status.condition = .running)).map Job.id

/-- The active Jobs of every CronJob are those that run. -/
def ActiveExact (s : CronRegistry) : Prop :=
  ∀ key cj, s.lookup key = some (.cronJob cj) →
    cj.status.activeJobs.Perm (runningIds cj.id s)

/-- No CronJob has active Jobs. -/
def NoneActive (s : CronRegistry) : Prop :=
  ∀ key cj, s.lookup key = some (.cronJob cj) → cj.status.activeJobs = []

/-- No CronJob has spawned a Job yet. -/
structure NeverRan (s : CronRegistry) : Prop where
  noneActive : NoneActive s
  noneStored : ∀ key cj key' job, s.lookup key = some (.cronJob cj) →
    s.lookup key' = some (.object (.job job)) → job.ownerRef ≠ some cj.id

/-- Some CronJob has a Job that runs. -/
def SomeRuns (s : CronRegistry) : Prop :=
  ∃ key cj key' job, s.lookup key = some (.cronJob cj) ∧
    s.lookup key' = some (.object (.job job)) ∧ job.ownerRef = some cj.id ∧
    job.status.condition = .running

section Active

variable {s : CronRegistry} {id jobId : String}

theorem mem_runningIds : jobId ∈ runningIds id s ↔ ∃ key job,
    s.lookup key = some (.object (.job job)) ∧ job.ownerRef = some id ∧
      job.status.condition = .running ∧ job.id = jobId := by
  rw [runningIds, List.mem_map]
  constructor
  · rintro ⟨job, hmem, hid⟩
    obtain ⟨hstored, htest⟩ := List.mem_filter.mp hmem
    obtain ⟨⟨key, v⟩, hrow, hjob⟩ := List.mem_filterMap.mp hstored
    obtain rfl := CronObject.asJob_eq_some.mp hjob
    obtain ⟨howner, hrunning⟩ := of_decide_eq_true htest
    exact ⟨key, job, KeyValue.lookup_eq_some.mpr hrow, howner, hrunning, hid⟩
  · rintro ⟨key, job, hlookup, howner, hrunning, hid⟩
    refine ⟨job, List.mem_filter.mpr ⟨?_, decide_eq_true ⟨howner, hrunning⟩⟩, hid⟩
    exact List.mem_filterMap.mpr ⟨(key, .object (.job job)), KeyValue.lookup_eq_some.mp hlookup, rfl⟩

/-- As long as nothing has been spawned, nothing is active. -/
theorem NeverRan.activeExact (h : NeverRan s) : ActiveExact s := by
  intro key cj hstored
  have hnone : runningIds cj.id s = [] := by
    refine List.eq_nil_iff_forall_not_mem.mpr fun jobId hmem => ?_
    obtain ⟨key', job, hjob, howner, -, -⟩ := mem_runningIds.mp hmem
    exact h.noneStored key cj key' job hstored hjob howner
  rw [h.noneActive key cj hstored, hnone]

/-- A Job that runs is missing from the empty lists. -/
theorem not_activeExact (hempty : NoneActive s) (hruns : SomeRuns s) : ¬ActiveExact s := by
  obtain ⟨key, cj, key', job, hstored, hjob, howner, hrunning⟩ := hruns
  intro hexact
  have hperm := hexact key cj hstored
  have hmem : job.id ∈ runningIds cj.id s :=
    mem_runningIds.mpr ⟨key', job, hjob, howner, hrunning, rfl⟩
  rw [hempty key cj hstored] at hperm
  exact List.not_mem_nil (hperm.mem_iff.mpr hmem)

end Active

/-! ## What a pass leaves -/

/-- A pass over the namespace finds the CronJob due. -/
structure DueIn (env : CronEnv) (ns key : String) (cj : CronJob) (s : CronRegistry) : Prop where
  stored : s.lookup key = some (.cronJob cj)
  below : startsWith key (cronJobPrefixOf ns) = true
  unsuspended : cj.spec.suspend = false
  due : cj.isDue (env.now ns) = true

/-- A pass goes through the namespace. -/
def Visits (s : CronRegistry) (ns : String) : Prop :=
  ∃ nsKey v, s.lookup nsKey = some v ∧ startsWith nsKey "/registry/namespaces/" = true ∧
    namespaceOf nsKey = ns ∧ ns.isEmpty = false

/-- A pass finds no CronJob due. -/
def Idle (env : CronEnv) (s : CronRegistry) : Prop :=
  ∀ ns key cj, Visits s ns → ¬DueIn env ns key cj s

/-- The ids of new Jobs are new: nothing is stored under a key made from one. -/
def FreshIds (env : CronEnv) (s : CronRegistry) : Prop :=
  ∀ ns key, s.lookup (jobKey ns (env.uuid ns key)) = none

/-- A Job of a CronJob runs, and no CronJob knows. -/
structure Forgotten (env : CronEnv) (s : CronRegistry) : Prop where
  noneActive : NoneActive s
  fresh : FreshIds env s
  someRuns : SomeRuns s

section Pass

variable {env : CronEnv} {ns key : String} {cj : CronJob} {s s₁ : CronRegistry}

/-- **A CronJob that is due** leaves a Job that is not noted. -/
theorem forgotten_afterSpawn (hempty : NoneActive s) (hfresh : FreshIds env s)
    (hkey : startsWith key (cronJobPrefixOf ns) = true) :
    Forgotten env (afterSpawn env ns key cj s) := by
  have hname := ne_jobKey hkey ns (spawnedJob env ns key cj).name
  refine ⟨fun key' cj' hstored => ?_, fun ns' key' => ?_, ?_⟩
  · rw [afterSpawn, KeyValue.lookup_insert] at hstored
    split_ifs at hstored with heq
    · obtain rfl := CronObject.cronJob.inj (Option.some_inj.mp hstored)
      exact rfl
    · rw [KeyValue.lookup_insert] at hstored
      split_ifs at hstored with heq'
      · cases Option.some_inj.mp hstored
      · exact hempty key' cj' hstored
  · rw [afterSpawn, KeyValue.lookup_insert_of_ne (ne_jobKey hkey _ _).symm,
      KeyValue.lookup_insert_of_ne (jobKey_uuid_ne env ns' key' ns key cj)]
    exact hfresh ns' key'
  · refine ⟨key, _, _, _, KeyValue.lookup_insert_self _ _ _,
      (KeyValue.lookup_insert_of_ne hname.symm).trans (KeyValue.lookup_insert_self _ _ _), rfl, rfl⟩

/-- A listed entry that is not due is left alone. -/
theorem leaves_entry_idle {v : CronObject} (hempty : NoneActive s)
    (hstored : s.lookup key = some v) (hbelow : startsWith key (cronJobPrefixOf ns) = true)
    (hidle : ∀ cj, ¬DueIn env ns key cj s) :
    (reconcileCronJob env ns (key, v)).Leaves (fun _ s' => s' = s₁) s₁ := by
  cases hcj : v.asCronJob with
  | none =>
      rw [reconcileCronJob, hcj]
      exact rfl
  | some cj =>
      obtain rfl := CronObject.asCronJob_eq_some.mp hcj
      refine leaves_reconcileCronJob_idle (hempty key cj hstored) fun hsuspend => ?_
      exact Bool.eq_false_iff.mpr fun hdue => hidle cj ⟨hstored, hbelow, hsuspend, hdue⟩

/-- A listed entry that is due leaves a Job that is forgotten, also in a later store. -/
theorem leaves_entry_due (hempty : NoneActive s) (hdue : DueIn env ns key cj s)
    (hempty₁ : NoneActive s₁) (hfresh₁ : FreshIds env s₁) :
    (reconcileCronJob env ns (key, .cronJob cj)).Leaves (fun _ => Forgotten env) s₁ := by
  refine (leaves_spawning (hempty key cj hdue.stored) hdue.unsuspended hdue.due hdue.below
    (hfresh₁ ns key)).mono ?_
  rintro _ _ rfl
  exact forgotten_afterSpawn hempty₁ hfresh₁ hdue.below

/-- **A pass over a namespace** changes nothing, or a Job that runs is forgotten. -/
theorem leaves_reconcileCronJobNamespace (hempty : NoneActive s)
    (hfresh : (∃ key cj, DueIn env ns key cj s) → FreshIds env s) :
    (reconcileCronJobNamespace env ns).Leaves (fun _ s' =>
      ((∀ key cj, ¬DueIn env ns key cj s) ∧ s' = s) ∨
        (∃ key cj, DueIn env ns key cj s) ∧ Forgotten env s') s := by
  refine Prog.Runs.bind (Prog.Runs.list trivial ?_)
  refine (Prog.Runs.forEach_until (B := fun e => ∃ cj, DueIn env ns e.1 cj s)
    (T := Forgotten env) (fun e he hidle => ?_) (fun e he hdue => ?_)
    fun e he s₁ hs₁ => ?_).mono fun _ s' hs' => ?_
  · obtain ⟨hstored, hbelow⟩ := KeyValue.mem_scan.mp he
    exact leaves_entry_idle hempty hstored hbelow fun cj hdue => hidle ⟨cj, hdue⟩
  · obtain ⟨cj, hdue⟩ := hdue
    obtain ⟨key, v⟩ := e
    obtain rfl := Option.some_inj.mp (hdue.stored.symm.trans (KeyValue.mem_scan.mp he).1)
    exact leaves_entry_due hempty hdue hempty (hfresh ⟨key, cj, hdue⟩)
  · obtain ⟨key, v⟩ := e
    obtain ⟨hstored, hbelow⟩ := KeyValue.mem_scan.mp he
    by_cases hdue : ∃ cj, DueIn env ns key cj s
    · obtain ⟨cj, hdue⟩ := hdue
      obtain rfl := Option.some_inj.mp (hdue.stored.symm.trans hstored)
      exact leaves_entry_due hempty hdue hs₁.noneActive hs₁.fresh
    · refine (leaves_entry_idle hempty hstored hbelow fun cj h => hdue ⟨cj, h⟩).mono ?_
      rintro _ _ rfl
      exact hs₁
  · rcases hs' with ⟨hnone, rfl⟩ | ⟨⟨e, -, cj, hdue⟩, hforgotten⟩
    · refine .inl ⟨fun key cj hdue => ?_, rfl⟩
      exact hnone (key, .cronJob cj) (KeyValue.mem_scan.mpr ⟨hdue.stored, hdue.below⟩) ⟨cj, hdue⟩
    · exact .inr ⟨⟨e.1, cj, hdue⟩, hforgotten⟩

/-- **A pass** changes nothing when no CronJob is due, and forgets a Job that runs when one is. -/
theorem leaves_reconcileCronJobs (hempty : NoneActive s) (hfresh : ¬Idle env s → FreshIds env s) :
    (reconcileCronJobs env).Leaves (fun _ s' =>
      (Idle env s ∧ s' = s) ∨ ¬Idle env s ∧ Forgotten env s') s := by
  have hnot : ∀ {ns key cj}, Visits s ns → DueIn env ns key cj s → ¬Idle env s :=
    fun hvisits hdue hidle => hidle _ _ _ hvisits hdue
  have hvisits : ∀ e ∈ s.scan fun key => startsWith key "/registry/namespaces/",
      ¬(namespaceOf e.1).isEmpty = true → Visits s (namespaceOf e.1) := by
    intro e he hname
    obtain ⟨hstored, hbelow⟩ := KeyValue.mem_scan.mp he
    exact ⟨e.1, e.2, hstored, hbelow, rfl, Bool.eq_false_iff.mpr hname⟩
  refine Prog.Runs.bind (Prog.Runs.list trivial ?_)
  refine (Prog.Runs.forEach_until
    (B := fun e => Visits s (namespaceOf e.1) ∧ ∃ key cj, DueIn env (namespaceOf e.1) key cj s)
    (T := Forgotten env) (fun e he hidle => ?_) (fun e he hdue => ?_)
    fun e he s₁ hs₁ => ?_).mono fun _ s' hs' => ?_
  · split_ifs with hname
    · exact rfl
    · have hnone : ∀ key cj, ¬DueIn env (namespaceOf e.1) key cj s :=
        fun key cj hdue => hidle ⟨hvisits e he hname, key, cj, hdue⟩
      refine (leaves_reconcileCronJobNamespace hempty ?_).mono fun _ s' hs' => ?_
      · rintro ⟨key, cj, hdue⟩
        exact absurd hdue (hnone key cj)
      · rcases hs' with ⟨-, hsame⟩ | ⟨⟨key, cj, hdue⟩, -⟩
        · exact hsame
        · exact absurd hdue (hnone key cj)
  · obtain ⟨hvisit, key, cj, hdue⟩ := hdue
    have hname : (namespaceOf e.1).isEmpty = false := by
      obtain ⟨_, _, _, _, _, hname⟩ := hvisit
      exact hname
    rw [if_neg (Bool.eq_false_iff.mp hname)]
    refine (leaves_reconcileCronJobNamespace hempty fun _ => hfresh (hnot hvisit hdue)).mono
      fun _ s' hs' => ?_
    rcases hs' with ⟨hnone, -⟩ | ⟨-, hforgotten⟩
    · exact absurd hdue (hnone key cj)
    · exact hforgotten
  · split_ifs with hname
    · exact hs₁
    · refine (leaves_reconcileCronJobNamespace hs₁.noneActive fun _ => hs₁.fresh).mono
        fun _ s' hs' => ?_
      rcases hs' with ⟨-, rfl⟩ | ⟨-, hforgotten⟩
      · exact hs₁
      · exact hforgotten
  · rcases hs' with ⟨hnone, rfl⟩ | ⟨⟨e, -, hvisit, key, cj, hdue⟩, hforgotten⟩
    · refine .inl ⟨fun ns key cj hvisit hdue => ?_, rfl⟩
      obtain ⟨nsKey, v, hlookup, hbelow, rfl, hname⟩ := hvisit
      exact hnone (nsKey, v) (KeyValue.mem_scan.mpr ⟨hlookup, hbelow⟩)
        ⟨⟨nsKey, v, hlookup, hbelow, rfl, hname⟩, key, cj, hdue⟩
    · exact .inr ⟨hnot hvisit hdue, hforgotten⟩

end Pass

/-! ## Runs -/

/-- What happens to the store. -/
inductive CronStep where
  | pass (env : CronEnv)
  /-- The status of the Job under a key changes. -/
  | jobStatus (key : String) (status : JobStatus)

/-- One step. -/
def cronStep (s : CronRegistry) : CronStep → CronRegistry
  | .pass env => (reconcileCronJobs env).after s
  | .jobStatus key status =>
      match (s.lookup key).bind CronObject.asJob with
      | some job => s.insert key (.object (.job { job with status := status }))
      | none => s

/-- The active Jobs are right after a pass. -/
def ExactAfter (s : CronRegistry) : CronStep → Prop
  | .pass env => ActiveExact (cronStep s (.pass env))
  | .jobStatus _ _ => True

/-- A pass finds no CronJob due. -/
def IdlePass (s : CronRegistry) : CronStep → Prop
  | .pass env => Idle env s
  | .jobStatus _ _ => True

/-- The ids of the Jobs of a pass are new. -/
def FreshIdPass (s : CronRegistry) : CronStep → Prop
  | .pass env => FreshIds env s
  | .jobStatus _ _ => True

section Runs

variable {s : CronRegistry}

/-- The owner of a Job stays when its status changes, and so do the CronJobs. -/
theorem NeverRan.jobStatus (h : NeverRan s) (key : String) (status : JobStatus) :
    NeverRan (cronStep s (.jobStatus key status)) := by
  cases hjob : (s.lookup key).bind CronObject.asJob with
  | none =>
      rw [cronStep, hjob]
      exact h
  | some job =>
      obtain ⟨v, hlookup, hv⟩ := Option.bind_eq_some_iff.mp hjob
      obtain rfl := CronObject.asJob_eq_some.mp hv
      have hcron : ∀ key' cj, (s.insert key (.object (.job { job with status := status }))).lookup
          key' = some (.cronJob cj) → s.lookup key' = some (.cronJob cj) := by
        intro key' cj hstored
        rw [KeyValue.lookup_insert] at hstored
        split_ifs at hstored
        · cases Option.some_inj.mp hstored
        · exact hstored
      rw [cronStep, hjob]
      refine ⟨fun key' cj hstored => h.noneActive key' cj (hcron key' cj hstored),
        fun key' cj key'' job' hstored hjob' => ?_⟩
      rw [KeyValue.lookup_insert] at hjob'
      split_ifs at hjob'
      · obtain rfl := Object.job.inj (CronObject.object.inj (Option.some_inj.mp hjob'))
        exact h.noneStored key' cj key job (hcron key' cj hstored) hlookup
      · exact h.noneStored key' cj key'' job' (hcron key' cj hstored) hjob'

/-- An idle pass leaves the store as it is. -/
theorem NeverRan.idle_pass (h : NeverRan s) {env : CronEnv} (hidle : Idle env s) :
    cronStep s (.pass env) = s := by
  have hafter := (leaves_reconcileCronJobs h.noneActive fun hnot => absurd hidle hnot).after
  rcases hafter with ⟨-, hsame⟩ | ⟨hnot, -⟩
  · exact hsame
  · exact absurd hidle hnot

/-- One step keeps it that nothing has been spawned, as long as passes are idle. -/
theorem NeverRan.step (h : NeverRan s) (i : CronStep) (hidle : IdlePass s i) :
    NeverRan (cronStep s i) := by
  cases i with
  | pass env =>
      rw [h.idle_pass hidle]
      exact h
  | jobStatus key status => exact h.jobStatus key status

/-- **A pass that finds a CronJob due** leaves the active Jobs wrong. -/
theorem NeverRan.idle_of_exact (h : NeverRan s) (i : CronStep) (hfresh : FreshIdPass s i)
    (hexact : ExactAfter s i) : IdlePass s i := by
  cases i with
  | pass env =>
      rcases (leaves_reconcileCronJobs h.noneActive fun _ => hfresh).after with
        ⟨hidle, -⟩ | ⟨-, hforgotten⟩
      · exact hidle
      · exact absurd hexact (not_activeExact hforgotten.noneActive hforgotten.someRuns)
  | jobStatus key status => trivial

end Runs

/-- **The active Jobs are right exactly while nothing is spawned.**  Start when no CronJob has
spawned a Job, and let passes and changes of the status of Jobs follow in any order.  If no pass
finds a CronJob due, then after every pass `active_jobs` of every CronJob is the list of its Jobs
that run.  If one does, this is wrong after the first such pass, as the ids of Jobs are new: the Job
is stored under its name and runs, but it is looked up under its id and taken off the list. -/
theorem activeJobs_exact_iff (s : CronRegistry) (steps : List CronStep) (hs : NeverRan s) :
    (Admitted cronStep IdlePass s steps → Admitted cronStep ExactAfter s steps) ∧
      (Admitted cronStep (fun s i => FreshIdPass s i ∧ ExactAfter s i) s steps →
        Admitted cronStep IdlePass s steps) := by
  constructor
  · refine Admitted.mono NeverRan (fun s i hidle h => h.step i hidle) (fun s i h hidle => ?_) hs
    cases i with
    | pass env => exact (h.step (.pass env) hidle).activeExact
    | jobStatus key status => trivial
  · exact Admitted.mono NeverRan
      (fun s i hok h => h.step i (h.idle_of_exact i hok.1 hok.2))
      (fun s i h hok => h.idle_of_exact i hok.1 hok.2) hs

/-! ## A backup every five minutes -/

/-- It has never run. -/
def backupCronJob : CronJob where
  id := "cj1"
  name := "backup"
  ns := "default"
  spec := ⟨"*/5 * * * *", ⟨⟨[], none, [], [], [], none⟩, 1, 1, 6⟩, false⟩
  status := ⟨none, []⟩
  createdAt := 0

/-- One namespace, and the CronJob in it. -/
def backupRegistry : CronRegistry :=
  ((∅ : CronRegistry).insert "/registry/cronjobs/default/backup" (.cronJob backupCronJob)).insert
    "/registry/namespaces/default" (.object (.other "default"))

/-- The first pass. -/
def backupEnv : CronEnv where
  now _ := 0
  uuid _ _ := "6f1c2a90-5a3d-4c55-9d0e-2b7f8c1e4d60"
  stamp _ := "19700101000000"
  uuid_dash := fun _ _ => by decide +kernel
  stamp_digit := fun _ => ⟨'9', by decide +kernel, rfl⟩

/-- What is stored there. -/
private theorem lookup_backupRegistry {key : String} {v : CronObject}
    (h : backupRegistry.lookup key = some v) :
    (key = "/registry/namespaces/default" ∧ v = .object (.other "default")) ∨
      key = "/registry/cronjobs/default/backup" ∧ v = .cronJob backupCronJob := by
  rw [backupRegistry, KeyValue.lookup_insert, KeyValue.lookup_insert] at h
  split_ifs at h with hns hcron
  · exact .inl ⟨hns, (Option.some_inj.mp h).symm⟩
  · exact .inr ⟨hcron, (Option.some_inj.mp h).symm⟩
  · cases h

theorem neverRan_backupRegistry : NeverRan backupRegistry := by
  constructor
  · intro key cj hstored
    rcases lookup_backupRegistry hstored with ⟨-, hv⟩ | ⟨-, hv⟩
    · cases hv
    · obtain rfl := CronObject.cronJob.inj hv
      rfl
  · intro _ _ key job _ hjob
    rcases lookup_backupRegistry hjob with ⟨-, hv⟩ | ⟨-, hv⟩
    · cases hv
    · cases hv

/-- **The first pass forgets its Job.** -/
theorem backup_forgotten : NeverRan backupRegistry ∧
    ¬Admitted cronStep ExactAfter backupRegistry [.pass backupEnv] := by
  refine ⟨neverRan_backupRegistry, fun h => ?_⟩
  have hstored : (cronStep backupRegistry (.pass backupEnv)).lookup
      "/registry/cronjobs/default/backup" = some (.cronJob
        { backupCronJob with status := ⟨some 0, []⟩ }) := by
    decide
  have hrunning : runningIds "cj1" (cronStep backupRegistry (.pass backupEnv)) =
      ["6f1c2a90-5a3d-4c55-9d0e-2b7f8c1e4d60"] := by
    decide
  have hperm := h.1 _ _ hstored
  rw [show ({ backupCronJob with status := ⟨some 0, []⟩ } : CronJob).id = "cj1" from rfl,
    hrunning] at hperm
  exact absurd hperm.length_eq (by decide)

/-- A pass finds the CronJob due, and leaves the active Jobs wrong. -/
theorem activeJobs_exact_iff_backup :
    ¬Admitted cronStep ExactAfter backupRegistry [.pass backupEnv] := by
  intro hexact
  have hfresh : FreshIds backupEnv backupRegistry := by
    intro ns key
    refine Option.eq_none_iff_forall_ne_some.mpr fun v hv => ?_
    have hjob := startsWith_jobKey ns (backupEnv.uuid ns key)
    rcases lookup_backupRegistry hv with ⟨hkey, -⟩ | ⟨hkey, -⟩
    · rw [hkey] at hjob
      revert hjob
      decide
    · rw [hkey] at hjob
      revert hjob
      decide
  have hidle := (activeJobs_exact_iff backupRegistry [.pass backupEnv]
    neverRan_backupRegistry).2 ⟨⟨hfresh, hexact.1⟩, trivial⟩
  have hvisits : Visits backupRegistry "default" :=
    ⟨"/registry/namespaces/default", .object (.other "default"), by decide,
      by decide, by decide, rfl⟩
  exact hidle.1 "default" "/registry/cronjobs/default/backup" backupCronJob hvisits
    ⟨by decide, by decide, rfl, rfl⟩

end K3rs
