import K3rs.Cluster.CronJobs
import K3rs.Lib.WriteLogs

/-!
# The pace of a CronJob

What matters of a CronJob for its pace is when it last spawned a Job.  `Pacer` has that time and the
times of all Jobs so far, and `Pacer.tick` is what a look at the CronJob at some time makes of it.
The passes of the controller refine it: what they write for a CronJob is what the pacer does at the
times at which they look at it (`spawnTimes_runWrites`).

* A CronJob that is due is due after a minute at least, or after `n` minutes if the schedule is
  `*/n`; but `*/n` with `n ≤ 0` is due at every look (`gap_of_due`).
* `cronJobs_paced_iff`: this is the only exception.
-/

namespace K3rs

open Net Programs Transition Words

/-! ## The pacer -/

/-- The `n` of a schedule `*/n`. -/
def everyMinutes (schedule : String) : Option ℤ :=
  match splitWhitespace schedule.toList with
  | ('*' :: '/' :: interval) :: _ => parseI64 interval
  | _ => none

/-- A time after which a Job may follow: a minute later at least, and `n` minutes for `*/n`. -/
def Gap (schedule : String) (last next : DateTime) : Prop :=
  last + 60000 ≤ next ∧
    ∀ n, everyMinutes schedule = some n → 1 ≤ n → last + n * 60000 ≤ next

/-- When a CronJob last spawned a Job, and when it has spawned Jobs. -/
structure Pacer where
  last : Option DateTime
  spawned : List DateTime

/-- A CronJob is looked at. -/
def Pacer.tick (spec : CronJobSpec) (p : Pacer) (now : DateTime) : Pacer :=
  if spec.suspend = false ∧
      p.last.all (fun last => isScheduleDue spec.schedule last now) = true then
    ⟨some now, p.spawned ++ [now]⟩
  else p

/-- The times of the Jobs are far enough apart, and the last one is known. -/
structure Pacer.Paced (schedule : String) (p : Pacer) : Prop where
  chain : p.spawned.IsChain (Gap schedule)
  known : ∀ t ∈ p.spawned.getLast?, p.last = some t

section Pacer

variable {schedule : String}

/-- Whole minutes that have elapsed have elapsed. -/
theorem le_of_le_tdiv {last now n : ℤ} (hn : 1 ≤ n) (h : n ≤ (now - last).tdiv 60000) :
    last + n * 60000 ≤ now := by
  have hnonneg : 0 ≤ now - last := by
    by_contra hneg
    have hle : (now - last).tdiv 60000 ≤ (0 : ℤ).tdiv 60000 :=
      Int.tdiv_le_tdiv (by norm_num) (not_le.mp hneg).le
    rw [Int.zero_tdiv] at hle
    omega
  rw [Int.tdiv_eq_ediv_of_nonneg hnonneg] at h
  omega

/-- **A schedule that is due**, other than `*/n` with `n ≤ 0`, is due after the gap. -/
theorem gap_of_due {last now : DateTime}
    (hpos : ¬∃ n, everyMinutes schedule = some n ∧ n ≤ 0)
    (hdue : isScheduleDue schedule last now = true) : Gap schedule last now := by
  have hminute : (1 : ℤ) ≤ (now - last).tdiv 60000 → last + 60000 ≤ now :=
    fun h => by simpa using le_of_le_tdiv le_rfl h
  unfold Gap
  unfold everyMinutes at hpos ⊢
  unfold isScheduleDue at hdue
  cases hwords : splitWhitespace schedule.toList with
  | nil =>
      rw [hwords] at hdue
      cases hdue
  | cons minuteField rest =>
      simp only [hwords] at hdue hpos ⊢
      split at hdue
      · exact ⟨hminute (of_decide_eq_true hdue), fun n hn => by cases hn⟩
      · rename_i interval
        cases hparse : parseI64 interval with
        | none =>
            rw [hparse] at hdue
            cases hdue
        | some n =>
            simp only [hparse] at hdue hpos ⊢
            have hn : 1 ≤ n := by
              by_contra hlt
              exact hpos ⟨n, rfl, by omega⟩
            have hle : n ≤ (now - last).tdiv 60000 := of_decide_eq_true hdue
            refine ⟨hminute (hn.trans hle), fun m hm _ => ?_⟩
            obtain rfl := Option.some_inj.mp hm
            exact le_of_le_tdiv hn hle
      · rename_i hnot
        cases hparse : parseUnsigned (2 ^ 32) minuteField with
        | error e =>
            rw [hparse] at hdue
            cases hdue
        | ok targetMinute =>
            rw [hparse] at hdue
            have helapsed := (Bool.and_eq_true _ _ ▸ hdue).2
            refine ⟨hminute (of_decide_eq_true helapsed), fun n hn => ?_⟩
            split at hn
            · rename_i interval _ hfield
              exact absurd (List.cons.inj hfield).1 (hnot interval)
            · cases hn

/-- `*/n` with `n ≤ 0` is due again at once. -/
theorem due_of_nonpos {n : ℤ} (hevery : everyMinutes schedule = some n) (hn : n ≤ 0)
    (now : DateTime) : isScheduleDue schedule now now = true := by
  unfold everyMinutes at hevery
  split at hevery
  · rename_i interval rest hwords
    have hzero : (now - now).tdiv 60000 = 0 := by
      rw [Int.sub_self]
      rfl
    simp only [isScheduleDue, hwords, hevery, hzero]
    exact decide_eq_true hn
  · cases hevery

theorem Pacer.Paced.tick {spec : CronJobSpec} {p : Pacer} (h : p.Paced spec.schedule)
    (hpos : ¬∃ n, everyMinutes spec.schedule = some n ∧ n ≤ 0) (now : DateTime) :
    (p.tick spec now).Paced spec.schedule := by
  rw [Pacer.tick]
  split_ifs with hdue
  · refine ⟨List.isChain_append.mpr ⟨h.chain, List.isChain_singleton _, ?_⟩, fun t ht => ?_⟩
    · intro t ht next hnext
      obtain rfl : now = next := by simpa using hnext
      have hlast := hdue.2
      rw [h.known t ht] at hlast
      exact gap_of_due hpos hlast
    · rw [List.getLast?_append_of_ne_nil _ (by simp)] at ht
      exact congrArg some (by simpa using ht)
  · exact h

end Pacer

/-! ## Jobs in a log -/

/-- The Jobs that a list of writes spawns, each under the key of its CronJob: what is written next
after the Job is the CronJob it belongs to. -/
def spawnedJobs : List (String × CronObject) → List (String × Job)
  | w :: w' :: rest => (w.2.asJob.map fun job => (w'.1, job)).toList ++ spawnedJobs (w' :: rest)
  | _ => []

/-- When the CronJob under a key has spawned its Jobs. -/
def spawnTimes (key : String) (log : List (String × CronObject)) : List DateTime :=
  ((spawnedJobs log).filter fun e => decide (e.1 = key)).map fun e => e.2.createdAt

/-- The Job at the end of a log, whose CronJob is still to be written. -/
def openJob (log : List (String × CronObject)) : Option Job :=
  log.getLast?.bind fun w => w.2.asJob

section Logs

variable {key : String} {log : List (String × CronObject)}

theorem spawnedJobs_concat (log : List (String × CronObject)) (w : String × CronObject) :
    spawnedJobs (log ++ [w]) =
      spawnedJobs log ++ ((openJob log).map fun job => (w.1, job)).toList := by
  induction log using spawnedJobs.induct with
  | case1 first second rest ih =>
      have hlast : openJob (first :: second :: rest) = openJob (second :: rest) := by
        rw [openJob, openJob, List.getLast?_cons_cons]
      rw [hlast, List.cons_append, List.cons_append, spawnedJobs, spawnedJobs, ← List.cons_append,
        ih, List.append_assoc]
  | case2 log hshort =>
      cases log with
      | nil => rfl
      | cons first rest =>
          cases rest with
          | nil => exact List.append_nil _
          | cons second rest => exact absurd rfl (hshort first second rest)

theorem openJob_concat (w : String × CronObject) : openJob (log ++ [w]) = w.2.asJob := by
  rw [openJob, List.getLast?_concat, Option.bind_some]

/-- A write behind one of a CronJob spawns nothing. -/
theorem spawnTimes_concat_of_closed (hclosed : openJob log = none) (w : String × CronObject) :
    spawnTimes key (log ++ [w]) = spawnTimes key log := by
  rw [spawnTimes, spawnedJobs_concat, hclosed, Option.map_none, Option.toList_none, List.append_nil]
  rfl

/-- The write behind a Job says whose it is. -/
theorem spawnTimes_concat_of_open {job : Job} (hopen : openJob log = some job)
    (w : String × CronObject) : spawnTimes key (log ++ [w]) =
      spawnTimes key log ++ if w.1 = key then [job.createdAt] else [] := by
  rw [spawnTimes, spawnedJobs_concat, hopen, Option.map_some, Option.toList_some,
    List.filter_append, List.map_append]
  split_ifs with hkey
  · have hfilter : [(w.1, job)].filter (fun e => decide (e.1 = key)) = [(w.1, job)] :=
      List.filter_cons_of_pos (decide_eq_true hkey)
    rw [hfilter]
    rfl
  · have hfilter : [(w.1, job)].filter (fun e => decide (e.1 = key)) = [] :=
      List.filter_cons_of_neg (by simpa using hkey)
    rw [hfilter]
    rfl

end Logs

/-! ## What a pass does to the pacer -/

/-- The pacer of a CronJob, when it has spawned Jobs at the given times. -/
def CronJob.pacer (cj : CronJob) (spawned : List DateTime) : Pacer :=
  ⟨cj.status.lastScheduleTime, spawned⟩

/-- A namespace of a pass has the CronJob. -/
def looksAt (key ns : String) : Bool := !ns.isEmpty && startsWith key (cronJobPrefixOf ns)

/-- The times at which a pass over these entries looks at the CronJob under a key. -/
def looks (env : CronEnv) (key : String) (nsEntries : List (String × CronObject)) :
    List DateTime :=
  ((nsEntries.map fun e => namespaceOf e.1).filter (looksAt key)).map env.now

/-- The namespaces that are stored. -/
def namespaceEntries (s : CronRegistry) : List (String × CronObject) :=
  s.scan fun k => startsWith k "/registry/namespaces/"

/-- What a pass keeps of the store and the log: the CronJob with its specification and its pacer,
the namespaces, and that the log is ready for the next write. -/
structure Tracks (key : String) (spec : CronJobSpec) (nsEntries : List (String × CronObject))
    (p : Pacer) (s : CronRegistry) (log : List (String × CronObject)) : Prop where
  closed : openJob log = none
  listed : namespaceEntries s = nsEntries
  stored : ∃ cj, s.lookup key = some (.cronJob cj) ∧ cj.spec = spec ∧
    cj.pacer (spawnTimes key log) = p

section Passes

variable {env : CronEnv} {ns ns₀ key key' : String} {cj : CronJob} {spec : CronJobSpec} {p : Pacer}
  {nsEntries : List (String × CronObject)} {s : CronRegistry} {log : List (String × CronObject)}

theorem namespaceEntries_insert_cronJob (h : startsWith key' (cronJobPrefixOf ns) = true)
    (s : CronRegistry) (v : CronObject) :
    namespaceEntries (s.insert key' v) = namespaceEntries s := by
  refine KeyValue.scan_congr fun k hk => KeyValue.lookup_insert_of_ne ?_
  rintro rfl
  have hcron : startsWith k "/registry/cronjobs/" = true :=
    startsWith_trans h (startsWith_append_left (startsWith_append _ _) _)
  rw [not_startsWith_of_startsWith hk (by decide) (by decide)] at hcron
  cases hcron

theorem namespaceEntries_insert_job (s : CronRegistry) (ns name : String) (v : CronObject) :
    namespaceEntries (s.insert (jobKey ns name) v) = namespaceEntries s := by
  refine KeyValue.scan_congr fun k hk => KeyValue.lookup_insert_of_ne ?_
  rintro rfl
  have hjob := startsWith_jobKey ns name
  rw [not_startsWith_of_startsWith hk (by decide) (by decide)] at hjob
  cases hjob

/-- A CronJob under another key is written. -/
theorem Tracks.put_other (h : Tracks key spec nsEntries p s log) (hne : key ≠ key')
    (hbelow : startsWith key' (cronJobPrefixOf ns) = true) (cj' : CronJob) :
    Tracks key spec nsEntries p (s.insert key' (.cronJob cj')) (log ++ [(key', .cronJob cj')]) := by
  obtain ⟨cj, hstored, hspec, hp⟩ := h.stored
  refine ⟨openJob_concat _, (namespaceEntries_insert_cronJob hbelow s _).trans h.listed, cj, ?_,
    hspec, ?_⟩
  · rw [KeyValue.lookup_insert_of_ne hne]
    exact hstored
  · rw [spawnTimes_concat_of_closed h.closed]
    exact hp

/-- The CronJob is written with other active Jobs. -/
theorem Tracks.put_active (h : Tracks key spec nsEntries p s log)
    (hbelow : startsWith key (cronJobPrefixOf ns) = true)
    (hcj : s.lookup key = some (.cronJob cj)) (active : List String) :
    Tracks key spec nsEntries p (s.insert key (.cronJob (cj.withActive active)))
      (log ++ [(key, .cronJob (cj.withActive active))]) := by
  obtain ⟨cj', hstored, hspec, hp⟩ := h.stored
  obtain rfl : cj' = cj := CronObject.cronJob.inj (Option.some_inj.mp (hstored.symm.trans hcj))
  refine ⟨openJob_concat _, (namespaceEntries_insert_cronJob hbelow s _).trans h.listed, _,
    KeyValue.lookup_insert_self _ _ _, hspec, ?_⟩
  rw [spawnTimes_concat_of_closed h.closed]
  exact hp

theorem logs_stillActive (ns : String) (ids : List String) :
    (stillActive ns ids).Logs (fun _ s' log' => s' = s ∧ log' = log) s log := by
  induction ids with
  | nil => exact ⟨rfl, rfl⟩
  | cons jobId rest ih =>
      refine Prog.Logs.bind (Prog.Logs.attempt (Prog.Logs.get ?_))
      refine Prog.Logs.bind (ih.mono ?_)
      rintro active s' log' ⟨rfl, rfl⟩
      show Prog.Logs _ (if CronObject.isRunning (s'.lookup (jobKey ns jobId)) then _ else _) s' log'
      split_ifs
      · exact ⟨rfl, rfl⟩
      · exact ⟨rfl, rfl⟩

/-- The clean-up does not touch the pacer. -/
theorem logs_cleanUp (h : Tracks key spec nsEntries p s log)
    (hbelow : startsWith key' (cronJobPrefixOf ns) = true)
    (hcj : key' = key → s.lookup key = some (.cronJob cj)) :
    (cleanUp ns key' cj).Logs (fun _ s' log' => Tracks key spec nsEntries p s' log' ∧
      (key ≠ key' → s'.lookup key = s.lookup key)) s log := by
  refine Prog.Logs.bind ((logs_stillActive ns cj.status.activeJobs).mono ?_)
  rintro active s' log' ⟨rfl, rfl⟩
  split_ifs
  · refine Prog.Logs.put ⟨?_, fun hne => KeyValue.lookup_insert_of_ne hne⟩
    by_cases hkey : key = key'
    · subst hkey
      exact h.put_active hbelow (hcj rfl) active
    · exact h.put_other hkey hbelow _
  · exact ⟨h, fun _ => rfl⟩

/-- A CronJob under another key spawns a Job. -/
theorem Tracks.spawn_other (h : Tracks key spec nsEntries p s log) (hne : key ≠ key')
    (hkey : startsWith key (cronJobPrefixOf ns₀) = true)
    (hbelow : startsWith key' (cronJobPrefixOf ns) = true) (job : Job) (cj' : CronJob) :
    Tracks key spec nsEntries p
      ((s.insert (jobKey ns job.name) (.object (.job job))).insert key' (.cronJob cj'))
      (log ++ [(jobKey ns job.name, .object (.job job))] ++ [(key', .cronJob cj')]) := by
  obtain ⟨cj, hstored, hspec, hp⟩ := h.stored
  refine ⟨openJob_concat _, ?_, cj, ?_, hspec, ?_⟩
  · rw [namespaceEntries_insert_cronJob hbelow, namespaceEntries_insert_job]
    exact h.listed
  · rw [KeyValue.lookup_insert_of_ne hne, KeyValue.lookup_insert_of_ne (ne_jobKey hkey _ _)]
    exact hstored
  · rw [spawnTimes_concat_of_open (openJob_concat _), if_neg hne.symm, List.append_nil,
      spawnTimes_concat_of_closed h.closed]
    exact hp

/-- The CronJob spawns a Job. -/
theorem Tracks.spawn_self (h : Tracks key spec nsEntries p s log)
    (hkey : startsWith key (cronJobPrefixOf ns) = true) (hcj : s.lookup key = some (.cronJob cj)) :
    Tracks key spec nsEntries ⟨some (env.now ns), p.spawned ++ [env.now ns]⟩
      ((s.insert (jobKey ns (spawnedJob env ns key cj).name)
        (.object (.job (spawnedJob env ns key cj)))).insert key
          (.cronJob (cj.noted (env.now ns) (env.uuid ns key))))
      (log ++ [(jobKey ns (spawnedJob env ns key cj).name,
        .object (.job (spawnedJob env ns key cj)))] ++
          [(key, .cronJob (cj.noted (env.now ns) (env.uuid ns key)))]) := by
  obtain ⟨cj', hstored, hspec, rfl⟩ := h.stored
  obtain rfl : cj' = cj := CronObject.cronJob.inj (Option.some_inj.mp (hstored.symm.trans hcj))
  refine ⟨openJob_concat _, ?_, _, KeyValue.lookup_insert_self _ _ _, hspec, ?_⟩
  · rw [namespaceEntries_insert_cronJob hkey, namespaceEntries_insert_job]
    exact h.listed
  · rw [spawnTimes_concat_of_open (openJob_concat _), if_pos rfl,
      spawnTimes_concat_of_closed h.closed]
    rfl

theorem isDue_eq (cj : CronJob) (spawned : List DateTime) (now : DateTime) :
    cj.isDue now =
      (cj.pacer spawned).last.all fun last => isScheduleDue cj.spec.schedule last now := by
  rw [CronJob.isDue, CronJob.pacer]
  cases cj.status.lastScheduleTime with
  | none => rfl
  | some last => rfl

/-- **The CronJob is looked at**, and the pacer ticks. -/
theorem logs_tick (h : Tracks key spec nsEntries p s log)
    (hkey : startsWith key (cronJobPrefixOf ns) = true) {v : CronObject}
    (hentry : s.lookup key = some v) :
    (reconcileCronJob env ns (key, v)).Logs
      (fun _ => Tracks key spec nsEntries (p.tick spec (env.now ns))) s log := by
  obtain ⟨cj, hstored, rfl, rfl⟩ := h.stored
  obtain rfl : CronObject.cronJob cj = v := Option.some_inj.mp (hstored.symm.trans hentry)
  show Prog.Logs _ (if cj.spec.suspend then _ else if cj.isDue (env.now ns) then _ else _) s log
  rw [Pacer.tick, ← isDue_eq]
  by_cases hsuspend : cj.spec.suspend = true
  · rw [if_pos hsuspend, if_neg fun hticks => Bool.eq_false_iff.mp hticks.1 hsuspend]
    exact h
  · rw [if_neg hsuspend]
    by_cases hdue : cj.isDue (env.now ns) = true
    · rw [if_pos hdue, if_pos ⟨Bool.eq_false_iff.mpr hsuspend, hdue⟩]
      refine Prog.Logs.bind (Prog.Logs.bind (Prog.Logs.put (Prog.Logs.bind (Prog.Logs.put ?_))))
      exact (logs_cleanUp (h.spawn_self hkey hstored) hkey
        fun _ => KeyValue.lookup_insert_self _ _ _).mono fun _ _ _ hs => hs.1
    · rw [if_neg hdue, if_neg fun hticks => hdue hticks.2]
      exact (logs_cleanUp h hkey fun _ => hstored).mono fun _ _ _ hs => hs.1

/-- Another entry is looked at. -/
theorem logs_reconcileCronJob_other (h : Tracks key spec nsEntries p s log) (hne : key ≠ key')
    (hkey : startsWith key (cronJobPrefixOf ns₀) = true)
    (hbelow : startsWith key' (cronJobPrefixOf ns) = true) (v : CronObject) :
    (reconcileCronJob env ns (key', v)).Logs (fun _ s' log' =>
      Tracks key spec nsEntries p s' log' ∧ s'.lookup key = s.lookup key) s log := by
  cases hcj : v.asCronJob with
  | none =>
      rw [reconcileCronJob, hcj]
      exact ⟨h, rfl⟩
  | some cj =>
      obtain rfl := CronObject.asCronJob_eq_some.mp hcj
      show Prog.Logs _ (if cj.spec.suspend then _ else if cj.isDue (env.now ns) then _ else _) s log
      split_ifs
      · exact ⟨h, rfl⟩
      · refine Prog.Logs.bind (Prog.Logs.bind (Prog.Logs.put (Prog.Logs.bind (Prog.Logs.put ?_))))
        refine (logs_cleanUp (h.spawn_other hne hkey hbelow (spawnedJob env ns key' cj) _) hbelow
          fun heq => absurd heq.symm hne).mono fun _ s' _ hs => ⟨hs.1, ?_⟩
        rw [hs.2 hne, KeyValue.lookup_insert_of_ne hne,
          KeyValue.lookup_insert_of_ne (ne_jobKey hkey _ _)]
      · exact (logs_cleanUp h hbelow fun heq => absurd heq.symm hne).mono
          fun _ _ _ hs => ⟨hs.1, hs.2 hne⟩

/-- **A pass over a namespace** looks at the CronJob once, or not at all. -/
theorem logs_reconcileCronJobNamespace (h : Tracks key spec nsEntries p s log)
    (hkey : startsWith key (cronJobPrefixOf ns₀) = true) :
    (reconcileCronJobNamespace env ns).Logs (fun _ => Tracks key spec nsEntries
      (if startsWith key (cronJobPrefixOf ns) then p.tick spec (env.now ns) else p)) s log := by
  have hmem : key ∈ (s.scan fun k => startsWith k (cronJobPrefixOf ns)).map Prod.fst ↔
      startsWith key (cronJobPrefixOf ns) = true := by
    constructor
    · intro hkeys
      obtain ⟨e, he, rfl⟩ := List.mem_map.mp hkeys
      exact (KeyValue.mem_scan.mp he).2
    · intro hbelow
      obtain ⟨cj, hstored, -, -⟩ := h.stored
      exact List.mem_map.mpr ⟨(key, .cronJob cj), KeyValue.mem_scan.mpr ⟨hstored, hbelow⟩, rfl⟩
  refine Prog.Logs.bind (Prog.Logs.list ?_)
  -- while its entry is among the rest, the CronJob is as it was listed
  refine (Prog.Logs.forEach (fun rest s' log' =>
    (rest.map Prod.fst).Nodup ∧ (∀ e ∈ rest, startsWith e.1 (cronJobPrefixOf ns) = true) ∧
      (∀ e ∈ rest, e.1 = key → s'.lookup key = some e.2) ∧
      Tracks key spec nsEntries
        (if key ∈ rest.map Prod.fst then p
          else if startsWith key (cronJobPrefixOf ns) then p.tick spec (env.now ns) else p) s' log')
    ?_ ⟨KeyValue.nodup_scan _ _, fun e he => (KeyValue.mem_scan.mp he).2, ?_, ?_⟩).mono ?_
  · rintro ⟨key', v⟩ rest s' log' ⟨hnodup, hbelow, hentries, htracks⟩
    obtain ⟨hnotin, hrest⟩ := List.nodup_cons.mp hnodup
    have hbelow' := hbelow _ List.mem_cons_self
    by_cases hsame : key = key'
    · subst hsame
      rw [List.map_cons, if_pos List.mem_cons_self] at htracks
      refine (logs_tick htracks hbelow' (hentries _ List.mem_cons_self rfl)).mono
        fun _ s₁ log₁ hs₁ => ⟨hrest, fun e he => hbelow e (List.mem_cons_of_mem _ he), ?_, ?_⟩
      · intro e he heq
        exact absurd (List.mem_map.mpr ⟨e, he, heq⟩) hnotin
      · rw [if_neg hnotin, if_pos hbelow']
        exact hs₁
    · refine (logs_reconcileCronJob_other htracks hsame hkey hbelow' v).mono
        fun _ s₁ log₁ hs₁ => ⟨hrest, fun e he => hbelow e (List.mem_cons_of_mem _ he), ?_, ?_⟩
      · intro e he heq
        rw [hs₁.2]
        exact hentries e (List.mem_cons_of_mem _ he) heq
      · have hiff : key ∈ List.map Prod.fst ((key', v) :: rest) ↔ key ∈ rest.map Prod.fst := by
          rw [List.map_cons, List.mem_cons, or_iff_right hsame]
        simpa only [hiff] using hs₁.1
  · rintro e he rfl
    exact (KeyValue.mem_scan.mp he).1
  · by_cases hbelow : startsWith key (cronJobPrefixOf ns) = true
    · rw [if_pos (hmem.mpr hbelow)]
      exact h
    · rw [if_neg fun hin => hbelow (hmem.mp hin), if_neg hbelow]
      exact h
  · rintro _ s' log' ⟨-, -, -, htracks⟩
    rwa [List.map_nil, if_neg List.not_mem_nil] at htracks

/-- **A pass** looks at the CronJob at its times. -/
theorem logs_reconcileCronJobs (h : Tracks key spec nsEntries p s log)
    (hkey : startsWith key (cronJobPrefixOf ns₀) = true) :
    (reconcileCronJobs env).Logs (fun _ => Tracks key spec nsEntries
      ((looks env key nsEntries).foldl (Pacer.tick spec) p)) s log := by
  refine Prog.Logs.bind (Prog.Logs.list ?_)
  have hlisted : (s.scan fun k => startsWith k "/registry/namespaces/") = nsEntries := h.listed
  rw [hlisted]
  refine (Prog.Logs.forEach (fun rest s' log' => ∃ p', Tracks key spec nsEntries p' s' log' ∧
    (looks env key rest).foldl (Pacer.tick spec) p' =
      (looks env key nsEntries).foldl (Pacer.tick spec) p) ?_ ⟨p, h, rfl⟩).mono ?_
  · rintro e rest s' log' ⟨p', htracks, hfold⟩
    by_cases hempty : (namespaceOf e.1).isEmpty = true
    · have hlooks : looks env key (e :: rest) = looks env key rest := by
        simp [looks, looksAt, hempty]
      rw [if_pos hempty]
      exact ⟨p', htracks, hlooks ▸ hfold⟩
    · rw [if_neg hempty]
      refine (logs_reconcileCronJobNamespace htracks hkey).mono fun _ s₁ log₁ hs₁ => ⟨_, hs₁, ?_⟩
      rw [← hfold]
      by_cases hbelow : startsWith key (cronJobPrefixOf (namespaceOf e.1)) = true
      · simp [looks, looksAt, hempty, hbelow]
      · simp [looks, looksAt, hempty, hbelow]
  · rintro _ s' log' ⟨p', htracks, hfold⟩
    rw [← hfold]
    exact htracks

end Passes

/-! ## Passes one after another -/

/-- What passes write, one after another. -/
def passWrites : List CronEnv → CronRegistry → List (String × CronObject)
  | [], _ => []
  | env :: rest, s =>
      (reconcileCronJobs env).writes s ++ passWrites rest ((reconcileCronJobs env).after s)

/-- The times that passes read, one after another: a pass reads the clock for each namespace. -/
def passReadings : List CronEnv → CronRegistry → List DateTime
  | [], _ => []
  | env :: rest, s =>
      (((namespaceEntries s).map fun e => namespaceOf e.1).filter fun ns => !ns.isEmpty).map
          env.now ++
        passReadings rest ((reconcileCronJobs env).after s)

/-- The times do not decrease. -/
def TimesInOrder (envs : List CronEnv) (s : CronRegistry) : Prop :=
  (passReadings envs s).Pairwise (· ≤ ·)

/-- **Passes refine the pacer.** -/
theorem tracks_passWrites {ns key : String} {spec : CronJobSpec}
    {nsEntries : List (String × CronObject)} (hkey : startsWith key (cronJobPrefixOf ns) = true) :
    ∀ (envs : List CronEnv) {p : Pacer} {s : CronRegistry} {log : List (String × CronObject)},
      Tracks key spec nsEntries p s log → ∃ s', Tracks key spec nsEntries
        ((envs.flatMap fun env => looks env key nsEntries).foldl (Pacer.tick spec) p) s'
          (log ++ passWrites envs s) := by
  intro envs
  induction envs with
  | nil =>
      intro p s log h
      refine ⟨s, ?_⟩
      rw [passWrites, List.append_nil]
      exact h
  | cons env rest ih =>
      intro p s log h
      have hlogs : (reconcileCronJobs env).Logs (fun _ => Tracks key spec nsEntries
          ((looks env key nsEntries).foldl (Pacer.tick spec) p)) s log :=
        logs_reconcileCronJobs h hkey
      obtain ⟨_, hpass⟩ := hlogs.writes
      obtain ⟨s', hs'⟩ := ih hpass
      refine ⟨s', ?_⟩
      rw [passWrites, ← List.append_assoc, List.flatMap_cons, List.foldl_append]
      exact hs'

/-- When a CronJob has spawned its Jobs is what its pacer says. -/
theorem spawnTimes_passWrites {s : CronRegistry} {ns key : String} {cj : CronJob}
    (hkey : startsWith key (cronJobPrefixOf ns) = true) (hcj : s.lookup key = some (.cronJob cj))
    (envs : List CronEnv) : spawnTimes key (passWrites envs s) =
      ((envs.flatMap fun env => looks env key (namespaceEntries s)).foldl (Pacer.tick cj.spec)
        (cj.pacer [])).spawned := by
  have hstart : Tracks key cj.spec (namespaceEntries s) (cj.pacer []) s [] :=
    ⟨rfl, rfl, cj, hcj, rfl, rfl⟩
  obtain ⟨s', hs'⟩ := tracks_passWrites hkey envs hstart
  obtain ⟨_, -, -, hp⟩ := hs'.stored
  exact congrArg Pacer.spawned hp

/-- A pacer keeps the pace. -/
theorem Pacer.Paced.ticks {spec : CronJobSpec} {p : Pacer} (h : p.Paced spec.schedule)
    (hpos : ¬∃ n, everyMinutes spec.schedule = some n ∧ n ≤ 0) (times : List DateTime) :
    (times.foldl (Pacer.tick spec) p).Paced spec.schedule := by
  induction times generalizing p with
  | nil => exact h
  | cons now rest ih => exact ih (h.tick hpos now)

/-! ## A schedule that is always due -/

/-- The backup with another schedule. -/
def backupEvery (schedule : String) : CronJob :=
  { backupCronJob with
    spec :=
      { backupCronJob.spec with
        schedule := schedule } }

/-- Its store. -/
def backupEveryRegistry (schedule : String) : CronRegistry :=
  ((∅ : CronRegistry).insert "/registry/cronjobs/default/backup"
    (.cronJob (backupEvery schedule))).insert "/registry/namespaces/default"
      (.object (.other "default"))

theorem lookup_backupEveryRegistry (schedule : String) :
    (backupEveryRegistry schedule).lookup (cronJobPrefixOf "default" ++ "backup") =
      some (.cronJob (backupEvery schedule)) := by
  have hkey : cronJobPrefixOf "default" ++ "backup" = "/registry/cronjobs/default/backup" := by
    decide
  rw [hkey, backupEveryRegistry, KeyValue.lookup_insert_of_ne (by decide),
    KeyValue.lookup_insert_self]

theorem namespaceEntries_backupEveryRegistry (schedule : String) :
    namespaceEntries (backupEveryRegistry schedule) = namespaceEntries backupRegistry := by
  refine KeyValue.scan_congr fun k hk => ?_
  have hne : k ≠ "/registry/cronjobs/default/backup" := by
    rintro rfl
    revert hk
    decide
  simp only [backupEveryRegistry, backupRegistry, KeyValue.lookup_insert, if_neg hne]

/-- Two passes at one time. -/
theorem timesInOrder_backupEnv (s : CronRegistry) : TimesInOrder [backupEnv, backupEnv] s := by
  have hzero : ∀ (envs : List CronEnv) (s : CronRegistry), (∀ env ∈ envs, env = backupEnv) →
      ∀ t ∈ passReadings envs s, t = 0 := by
    intro envs
    induction envs with
    | nil => exact fun _ _ t ht => absurd ht List.not_mem_nil
    | cons env rest ih =>
        intro s henvs t ht
        obtain rfl := henvs env List.mem_cons_self
        rcases List.mem_append.mp ht with hfirst | hrest
        · obtain ⟨_, -, rfl⟩ := List.mem_map.mp hfirst
          rfl
        · exact ih _ (fun env' h => henvs env' (List.mem_cons_of_mem _ h)) t hrest
  have hall := hzero [backupEnv, backupEnv] s (by simp)
  exact List.pairwise_of_forall_mem_list fun a ha b hb => by rw [hall a ha, hall b hb]

/-- **The pace of CronJobs.**  For every schedule but `*/n` with `n ≤ 0`, and for no other one, the
Jobs that a CronJob spawns in passes one after another are a minute apart at least, and `n` minutes
for `*/n`. -/
theorem cronJobs_paced_iff (schedule : String) :
    (∀ (s : CronRegistry) (ns name : String) (cj : CronJob),
      s.lookup (cronJobPrefixOf ns ++ name) = some (.cronJob cj) → cj.spec.schedule = schedule →
        ∀ envs, TimesInOrder envs s →
          (spawnTimes (cronJobPrefixOf ns ++ name) (passWrites envs s)).IsChain (Gap schedule)) ↔
      ¬∃ n, everyMinutes schedule = some n ∧ n ≤ 0 := by
  constructor
  · rintro hpaced ⟨n, hevery, hn⟩
    have hchain := hpaced (backupEveryRegistry schedule) "default" "backup" (backupEvery schedule)
      (lookup_backupEveryRegistry schedule) rfl [backupEnv, backupEnv] (timesInOrder_backupEnv _)
    have hlooks : looks backupEnv (cronJobPrefixOf "default" ++ "backup")
        (namespaceEntries backupRegistry) = [0] := by
      decide
    have hdue := due_of_nonpos hevery hn 0
    have hfirst : Pacer.tick (backupEvery schedule).spec ((backupEvery schedule).pacer []) 0 =
        ⟨some 0, [0]⟩ := if_pos ⟨rfl, rfl⟩
    have hsecond : Pacer.tick (backupEvery schedule).spec ⟨some 0, [0]⟩ 0 = ⟨some 0, [0, 0]⟩ :=
      if_pos ⟨rfl, hdue⟩
    rw [spawnTimes_passWrites (startsWith_append _ _) (lookup_backupEveryRegistry schedule),
      namespaceEntries_backupEveryRegistry, List.flatMap_cons, List.flatMap_cons, List.flatMap_nil,
      hlooks, List.append_nil, List.foldl_append, List.foldl_cons, List.foldl_cons, hfirst,
      List.foldl_nil, List.foldl_nil, hsecond] at hchain
    have hgap : Gap schedule 0 0 := (List.isChain_cons_cons.mp hchain).1
    exact absurd hgap.1 (by decide)
  · rintro hpos s ns name cj hcj rfl envs -
    rw [spawnTimes_passWrites (startsWith_append _ _) hcj]
    have hstart : (cj.pacer []).Paced cj.spec.schedule :=
      ⟨List.isChain_nil, fun t ht => by cases ht⟩
    exact (hstart.ticks hpos _).chain

/-- **Two Jobs at once**, by a schedule `*/0`. -/
theorem backup_every_zero :
    (backupEveryRegistry "*/0 * * * *").lookup (cronJobPrefixOf "default" ++ "backup") =
        some (.cronJob (backupEvery "*/0 * * * *")) ∧
      TimesInOrder [backupEnv, backupEnv] (backupEveryRegistry "*/0 * * * *") ∧
      ¬(spawnTimes (cronJobPrefixOf "default" ++ "backup") (passWrites [backupEnv, backupEnv]
        (backupEveryRegistry "*/0 * * * *"))).IsChain (Gap "*/0 * * * *") := by
  refine ⟨lookup_backupEveryRegistry _, timesInOrder_backupEnv _, fun hchain => ?_⟩
  have htimes : spawnTimes (cronJobPrefixOf "default" ++ "backup")
      (passWrites [backupEnv, backupEnv] (backupEveryRegistry "*/0 * * * *")) = [0, 0] := by
    decide
  rw [htimes] at hchain
  have hgap : Gap "*/0 * * * *" 0 0 := (List.isChain_cons_cons.mp hchain).1
  exact absurd hgap.1 (by decide)

end K3rs
