import K3rs.Lib.Transition

/-!
# The process manager

A watchdog spawns a component and spawns it again when it crashes.  `pm stop` is another process.
The two share the registry file, which each of them reads and writes back whole, without a lock, and
the PID file of the watchdog.

If the component is down, `pm stop` sets the status and returns, and leaves the watchdog to itself.
The watchdog reads the status before it decides to spawn the component again, but not afterwards.

After `pm stop` has returned, the component is never spawned and the status remains `Stopped`, if and
only if `pm stop` writes the registry when the watchdog is going to read it before anything else
(`stop_final_iff`).
-/

namespace K3rs

open Transition

/-! ## The registry -/

/-- `ProcessStatus`. -/
inductive ProcessStatus where
  | running
  | stopped
  | crashed
  | installing
  | errored
  deriving DecidableEq, Repr

/-- `ProcessEntry`, without what the process is started with. -/
structure ProcessEntry where
  status : ProcessStatus
  pid : Option ℕ
  restartCount : UInt32
  startedAt : Option ℤ
  autoRestart : Bool
  maxRestarts : UInt32
  deriving DecidableEq, Repr

/-- The updates that the watchdog makes. -/
inductive WatchdogUpdate where
  | spawned (pid : ℕ)
  /-- The component is given up. -/
  | crashed
  /-- The component is going to be restarted; it had been restarted this often. -/
  | restarting (restartCount : UInt32)
  deriving DecidableEq, Repr

/-- What an update of the watchdog changes. -/
def WatchdogUpdate.apply (now : ℤ) (e : ProcessEntry) : WatchdogUpdate → ProcessEntry
  | spawned pid => { e with pid := some pid, status := .running, startedAt := some now }
  | crashed => { e with status := .crashed, pid := none }
  | restarting restartCount => { e with restartCount := restartCount + 1, status := .running }

/-- What `pm stop` changes; `killed` says whether it has killed the component. -/
def ProcessEntry.stop (e : ProcessEntry) (killed : Bool) : ProcessEntry :=
  { e with
    status := .stopped
    pid := none
    startedAt := if killed then none else e.startedAt }

/-! ## The two processes -/

/-- Where the watchdog is. -/
inductive WatchdogPoint where
  /-- It is going to write its PID file. -/
  | starting
  /-- It is going to load the registry, to spawn the component. -/
  | loading
  | spawning
  /-- It is going to load the registry for an update. -/
  | updating (u : WatchdogUpdate)
  /-- It is going to save what it has loaded, with the update. -/
  | saving (u : WatchdogUpdate) (copy : ProcessEntry)
  | sleeping (pid : ℕ)
  /-- It is going to ask whether the component is alive. -/
  | checking (pid : ℕ)
  /-- The component is alive; it is going to load the registry. -/
  | polling (pid : ℕ)
  /-- The component is dead; it is going to load the registry. -/
  | deciding
  | backingOff (restartCount : UInt32)
  | ended
  deriving DecidableEq, Repr

/-- Where the watchdog goes on after an update. -/
def WatchdogUpdate.next : WatchdogUpdate → WatchdogPoint
  | spawned pid => .sleeping pid
  | crashed => .ended
  | restarting _ => .loading

/-- Where `pm stop` is. -/
inductive StopPoint where
  | idle
  /-- It has loaded the registry and is going to ask whether the component is alive. -/
  | loaded (pid : Option ℕ)
  /-- The component is alive; the watchdog is killed first. -/
  | killing (pid : ℕ)
  | terminating (pid : ℕ)
  | updating (killed : Bool)
  | saving (killed : Bool) (copy : ProcessEntry)
  | returned
  deriving DecidableEq, Repr

/-- The registry entry of the component, which is not deleted, the processes that are alive, and the
two processes that are at issue. -/
structure PmWorld where
  entry : ProcessEntry
  alive : List ℕ
  watchPidFile : Bool
  watchdog : WatchdogPoint
  stop : StopPoint
  /-- The component was spawned after `pm stop` had returned. -/
  respawned : Bool

/-- What happens next. -/
inductive PmStep where
  /-- A step of the watchdog; a process that it spawns gets this PID. -/
  | watchdog (pid : ℕ) (now : ℤ)
  /-- The watchdog is killed, or ends with an error. -/
  | watchdogDies
  | stop
  | appears (pid : ℕ)
  | vanishes (pid : ℕ)
  deriving DecidableEq, Repr

namespace PmWorld

/-- A watchdog that has just been spawned. -/
def new (entry : ProcessEntry) (alive : List ℕ) : PmWorld :=
  ⟨entry, alive, false, .starting, .idle, false⟩

variable (w : PmWorld)

/-- The watchdog exits cleanly. -/
def exit : PmWorld := { w with watchdog := .ended, watchPidFile := false }

/-- A step of `watchdog::run`. -/
def watchdogStep (pid : ℕ) (now : ℤ) : PmWorld :=
  match w.watchdog with
  | .starting => { w with watchPidFile := true, watchdog := .loading }
  | .loading => { w with watchdog := .spawning }
  | .spawning =>
      -- The PID of a process that is alive is not given to another one.
      if pid ∈ w.alive then w
      else { w with
        alive := pid :: w.alive
        watchdog := .updating (.spawned pid)
        respawned := w.respawned || decide (w.stop = .returned) }
  | .updating u => { w with watchdog := .saving u w.entry }
  | .saving u copy =>
      { w with
        entry := u.apply now copy
        watchdog := u.next
        watchPidFile := w.watchPidFile && decide (u ≠ .crashed) }
  | .sleeping p => { w with watchdog := .checking p }
  | .checking p => { w with watchdog := if p ∈ w.alive then .polling p else .deciding }
  | .polling p => if w.entry.status = .stopped then w.exit else { w with watchdog := .sleeping p }
  | .deciding =>
      if w.entry.status = .stopped then w.exit
      else if !w.entry.autoRestart then { w with watchdog := .updating .crashed }
      else if 0 < w.entry.maxRestarts ∧ w.entry.maxRestarts ≤ w.entry.restartCount then
        { w with watchdog := .updating .crashed }
      else { w with watchdog := .backingOff w.entry.restartCount }
  | .backingOff restartCount => { w with watchdog := .updating (.restarting restartCount) }
  | .ended => w

/-- A step of `stop_one`. -/
def stopStep : PmWorld :=
  match w.stop with
  | .idle => { w with stop := .loaded w.entry.pid }
  | .loaded (some p) => { w with stop := if p ∈ w.alive then .killing p else .updating false }
  | .loaded none => { w with stop := .updating false }
  | .killing p =>
      { w with
        watchdog := if w.watchPidFile then .ended else w.watchdog
        watchPidFile := false
        stop := .terminating p }
  | .terminating p =>
      { w with
        alive := w.alive.filter fun p' => decide (p' ≠ p)
        stop := .updating true }
  | .updating killed => { w with stop := .saving killed w.entry }
  | .saving killed copy => { w with entry := copy.stop killed, stop := .returned }
  | .returned => w

/-- One step. -/
def step : PmStep → PmWorld
  | .watchdog pid now => w.watchdogStep pid now
  | .watchdogDies => { w with watchdog := .ended }
  | .stop => w.stopStep
  | .appears pid => { w with alive := pid :: w.alive }
  | .vanishes pid => { w with alive := w.alive.filter fun p => decide (p ≠ pid) }

/-- The component is stopped and has not been spawned again. -/
def IsStopped : Prop := w.entry.status = .stopped ∧ w.respawned = false

/-- Once `pm stop` has returned, the component is stopped whatever happens. -/
def StopIsFinal : Prop := w.stop = .returned → ∀ more, (run step w more).IsStopped

end PmWorld

/-- The watchdog is going to read the registry before it writes it or spawns the component. -/
def WatchdogPoint.ReadsFirst : WatchdogPoint → Prop
  | sleeping _ => True
  | checking _ => True
  | polling _ => True
  | deciding => True
  | ended => True
  | _ => False

/-- The condition on a step: when `pm stop` saves the registry, the watchdog is going to read it
first. -/
def PmWorld.Fits (w : PmWorld) : PmStep → Prop
  | .stop => ∀ killed copy, w.stop = .saving killed copy → w.watchdog.ReadsFirst
  | _ => True

namespace PmWorld

variable {w : PmWorld}

/-! ## A watchdog that reads first -/

/-- The component is stopped, and the watchdog is going to see it. -/
structure Quiet (w : PmWorld) : Prop where
  returned : w.stop = .returned
  stopped : w.IsStopped
  readsFirst : w.watchdog.ReadsFirst

theorem Quiet.watchdogStep (hquiet : w.Quiet) (pid : ℕ) (now : ℤ) :
    (w.watchdogStep pid now).Quiet := by
  obtain ⟨hreturned, hstopped, hreads⟩ := hquiet
  rw [PmWorld.watchdogStep]
  cases hpoint : w.watchdog with
  | sleeping p => exact ⟨hreturned, hstopped, trivial⟩
  | checking p =>
      refine ⟨hreturned, hstopped, ?_⟩
      dsimp only
      split_ifs <;> trivial
  | polling p =>
      dsimp only
      rw [if_pos hstopped.1]
      exact ⟨hreturned, hstopped, trivial⟩
  | deciding =>
      dsimp only
      rw [if_pos hstopped.1]
      exact ⟨hreturned, hstopped, trivial⟩
  | ended => exact ⟨hreturned, hstopped, hreads⟩
  | starting =>
      rw [hpoint] at hreads
      exact hreads.elim
  | loading =>
      rw [hpoint] at hreads
      exact hreads.elim
  | spawning =>
      rw [hpoint] at hreads
      exact hreads.elim
  | updating u =>
      rw [hpoint] at hreads
      exact hreads.elim
  | saving u copy =>
      rw [hpoint] at hreads
      exact hreads.elim
  | backingOff n =>
      rw [hpoint] at hreads
      exact hreads.elim

theorem Quiet.step (hquiet : w.Quiet) (i : PmStep) : (w.step i).Quiet := by
  cases i with
  | watchdog pid now => exact hquiet.watchdogStep pid now
  | watchdogDies => exact ⟨hquiet.returned, hquiet.stopped, trivial⟩
  | stop =>
      rw [PmWorld.step, stopStep, hquiet.returned]
      exact hquiet
  | appears pid => exact ⟨hquiet.returned, hquiet.stopped, hquiet.readsFirst⟩
  | vanishes pid => exact ⟨hquiet.returned, hquiet.stopped, hquiet.readsFirst⟩

theorem Quiet.run (hquiet : w.Quiet) (more : List PmStep) : (run PmWorld.step w more).Quiet := by
  induction more generalizing w with
  | nil => exact hquiet
  | cons i rest ih => exact ih (hquiet.step i)

/-! ## A watchdog that does not -/

/-- The component may not remain stopped. -/
def MayBreak (w : PmWorld) : Prop := ∃ more, ¬(Transition.run PmWorld.step w more).IsStopped

theorem MayBreak.of_step {i : PmStep} (h : (w.step i).MayBreak) : w.MayBreak := by
  obtain ⟨more, hmore⟩ := h
  exact ⟨i :: more, hmore⟩

/-- Every update of the watchdog overwrites the status. -/
theorem mayBreak_saving {u : WatchdogUpdate} (copy : ProcessEntry)
    (hpoint : w.watchdog = .saving u copy) : w.MayBreak := by
  refine ⟨[.watchdog 0 0], fun hstopped => ?_⟩
  have hstatus := hstopped.1
  rw [run_cons, run_nil, PmWorld.step, PmWorld.watchdogStep, hpoint] at hstatus
  cases u <;> cases hstatus

theorem mayBreak_updating {u : WatchdogUpdate} (hpoint : w.watchdog = .updating u) :
    w.MayBreak := by
  refine MayBreak.of_step (i := .watchdog 0 0) (mayBreak_saving (u := u) w.entry ?_)
  rw [PmWorld.step, PmWorld.watchdogStep, hpoint]

theorem mayBreak_spawning (hreturned : w.stop = .returned) (hpoint : w.watchdog = .spawning) :
    w.MayBreak := by
  obtain ⟨pid, hpid⟩ := Infinite.exists_notMem_finset w.alive.toFinset
  rw [List.mem_toFinset] at hpid
  refine ⟨[.watchdog pid 0], fun hstopped => ?_⟩
  have hrespawned := hstopped.2
  rw [run_cons, run_nil, PmWorld.step, PmWorld.watchdogStep, hpoint] at hrespawned
  simp [hpid, hreturned] at hrespawned

theorem mayBreak_loading (hreturned : w.stop = .returned) (hpoint : w.watchdog = .loading) :
    w.MayBreak := by
  refine MayBreak.of_step (i := .watchdog 0 0) (mayBreak_spawning ?_ ?_)
  · rw [PmWorld.step, PmWorld.watchdogStep, hpoint]
    exact hreturned
  · rw [PmWorld.step, PmWorld.watchdogStep, hpoint]

/-- **A watchdog that does not read first** may spawn the component or overwrite its status. -/
theorem mayBreak_of_not_readsFirst (hreturned : w.stop = .returned)
    (hreads : ¬w.watchdog.ReadsFirst) : w.MayBreak := by
  cases hpoint : w.watchdog with
  | starting =>
      refine MayBreak.of_step (i := .watchdog 0 0) (mayBreak_loading ?_ ?_)
      · rw [PmWorld.step, PmWorld.watchdogStep, hpoint]
        exact hreturned
      · rw [PmWorld.step, PmWorld.watchdogStep, hpoint]
  | loading => exact mayBreak_loading hreturned hpoint
  | spawning => exact mayBreak_spawning hreturned hpoint
  | updating u => exact mayBreak_updating hpoint
  | saving u copy => exact mayBreak_saving copy hpoint
  | backingOff n =>
      refine MayBreak.of_step (i := .watchdog 0 0) (mayBreak_updating (u := .restarting n) ?_)
      rw [PmWorld.step, PmWorld.watchdogStep, hpoint]
  | sleeping p =>
      rw [hpoint] at hreads
      exact absurd trivial hreads
  | checking p =>
      rw [hpoint] at hreads
      exact absurd trivial hreads
  | polling p =>
      rw [hpoint] at hreads
      exact absurd trivial hreads
  | deciding =>
      rw [hpoint] at hreads
      exact absurd trivial hreads
  | ended =>
      rw [hpoint] at hreads
      exact absurd trivial hreads

/-! ## Runs -/

/-- The watchdog leaves `pm stop` where it is, and a spawn counts only behind it. -/
theorem watchdogStep_keeps (w : PmWorld) (pid : ℕ) (now : ℤ) :
    (w.watchdogStep pid now).stop = w.stop ∧
      ((w.watchdogStep pid now).respawned = true → w.respawned = true ∨ w.stop = .returned) := by
  rw [PmWorld.watchdogStep]
  cases w.watchdog with
  | spawning =>
      dsimp only
      split_ifs with hpid
      · exact ⟨rfl, Or.inl⟩
      · refine ⟨rfl, fun hrespawned => ?_⟩
        rwa [Bool.or_eq_true, decide_eq_true_eq] at hrespawned
  | polling p =>
      dsimp only
      split_ifs <;> exact ⟨rfl, Or.inl⟩
  | deciding =>
      dsimp only
      split_ifs <;> exact ⟨rfl, Or.inl⟩
  | starting => exact ⟨rfl, Or.inl⟩
  | loading => exact ⟨rfl, Or.inl⟩
  | updating u => exact ⟨rfl, Or.inl⟩
  | saving u copy => exact ⟨rfl, Or.inl⟩
  | sleeping p => exact ⟨rfl, Or.inl⟩
  | checking p => exact ⟨rfl, Or.inl⟩
  | backingOff n => exact ⟨rfl, Or.inl⟩
  | ended => exact ⟨rfl, Or.inl⟩

theorem stopStep_respawned (w : PmWorld) : w.stopStep.respawned = w.respawned := by
  rw [stopStep]
  split <;> rfl

/-- `pm stop` returns when it has saved the registry. -/
theorem stopStep_returned (h : w.stopStep.stop = .returned) :
    w.stop = .returned ∨ ∃ killed copy, w.stop = .saving killed copy := by
  rw [stopStep] at h
  cases hstop : w.stop with
  | saving killed copy => exact Or.inr ⟨killed, copy, rfl⟩
  | returned => exact Or.inl rfl
  | loaded pid =>
      cases pid with
      | none => simp [hstop] at h
      | some p =>
          rw [hstop] at h
          dsimp only at h
          split_ifs at h
  | idle => simp [hstop] at h
  | killing p => simp [hstop] at h
  | terminating p => simp [hstop] at h
  | updating killed => simp [hstop] at h

/-- No spawn counts before `pm stop` has returned. -/
def Counts (w : PmWorld) : Prop := w.respawned = true → w.stop = .returned

theorem Counts.step (hcounts : w.Counts) (i : PmStep) : (w.step i).Counts := by
  cases i with
  | watchdog pid now =>
      obtain ⟨hstop, hspawn⟩ := w.watchdogStep_keeps pid now
      intro hrespawned
      rw [PmWorld.step, hstop]
      exact (hspawn hrespawned).elim hcounts id
  | watchdogDies => exact hcounts
  | stop =>
      intro hrespawned
      rw [PmWorld.step, stopStep_respawned] at hrespawned
      rw [PmWorld.step, stopStep, hcounts hrespawned]
      exact hcounts hrespawned
  | appears pid => exact hcounts
  | vanishes pid => exact hcounts

/-- What one step does. -/
theorem stopIsFinal_step_iff (hcounts : w.Counts) (hfinal : w.StopIsFinal) (i : PmStep) :
    (w.step i).StopIsFinal ↔ w.Fits i := by
  by_cases hreturned : w.stop = .returned
  · refine iff_of_true (fun _ more => hfinal hreturned (i :: more)) ?_
    cases i with
    | stop =>
        intro killed copy hsaving
        rw [hreturned] at hsaving
        cases hsaving
    | watchdog pid now => trivial
    | watchdogDies => trivial
    | appears pid => trivial
    | vanishes pid => trivial
  · cases i with
    | watchdog pid now =>
        refine iff_of_true (fun hafter => ?_) trivial
        rw [PmWorld.step, (w.watchdogStep_keeps pid now).1] at hafter
        exact absurd hafter hreturned
    | watchdogDies => exact iff_of_true (fun hafter => absurd hafter hreturned) trivial
    | appears pid => exact iff_of_true (fun hafter => absurd hafter hreturned) trivial
    | vanishes pid => exact iff_of_true (fun hafter => absurd hafter hreturned) trivial
    | stop =>
        by_cases hsaving : ∃ killed copy, w.stop = .saving killed copy
        · obtain ⟨killed, copy, hsaving⟩ := hsaving
          have hstep : w.step .stop = { w with entry := copy.stop killed, stop := .returned } := by
            rw [PmWorld.step, stopStep, hsaving]
          have hspawned : w.respawned = false :=
            Bool.eq_false_iff.mpr fun hrespawned => hreturned (hcounts hrespawned)
          rw [hstep]
          constructor
          · intro hafter _ _ _
            by_contra hreads
            obtain ⟨more, hmore⟩ := mayBreak_of_not_readsFirst
              (w := { w with entry := copy.stop killed, stop := .returned }) rfl hreads
            exact hmore (hafter rfl more)
          · intro hfits _ more
            have hquiet : Quiet { w with entry := copy.stop killed, stop := .returned } :=
              ⟨rfl, ⟨rfl, hspawned⟩, hfits killed copy hsaving⟩
            exact (hquiet.run more).stopped
        · refine iff_of_true (fun hafter => ?_) fun killed copy hstop =>
            absurd ⟨killed, copy, hstop⟩ hsaving
          exact absurd (stopStep_returned hafter) (not_or.mpr ⟨hreturned, hsaving⟩)

/-- A component that is restarted automatically. -/
def restartedEntry : ProcessEntry := ⟨.stopped, none, 0, none, true, 0⟩

/-- The watchdog spawns the component, which crashes; during the backoff `pm stop` returns. -/
def stopInBackoff : List PmStep :=
  [.watchdog 1 0, .watchdog 1 0, .watchdog 1 0, .watchdog 1 0, .watchdog 1 0, .vanishes 1,
    .watchdog 1 0, .watchdog 1 0, .watchdog 1 0, .stop, .stop, .stop, .stop]

end PmWorld

end K3rs
