import K3rs.Agent.PodSync

/-!
# Releases

A lifecycle task allocates an address for its pod.  The address is released in another place: by a
pass that finds the container of a listed `Running` pod stopped or missing.  So a pass never sends a
release for a pod that has left the list or has failed; whatever such a pod holds is kept for good.

`releases_sent` is the claim that every pass has sent all releases that are due when it ends, for
runs in which no pod leaves the server's list or becomes `Failed` while it holds an address for
which no release has been sent.
-/

namespace K3rs

open Transition

/-- The pod is not in the list, or is `Failed` there. -/
def Gone (pods : List Pod) (podId : String) : Prop := ∀ pod ∈ pods, pod.id = podId → pod.status = .failed

instance (pods : List Pod) (podId : String) : Decidable (Gone pods podId) :=
  inferInstanceAs (Decidable (∀ pod ∈ pods, _ → _))

/-- The pod that a pass reports next. -/
def PassPhase.toReport : PassPhase → Option Pod
  | .failing pod _ _ => some pod
  | _ => none

/-- The pods of a pass that have not been taken up. -/
def PassPhase.left : PassPhase → List Pod
  | .idle => []
  | .checking pods _ => pods
  | .failing _ pods _ => pods
  | .scheduling todo => todo

namespace PodSyncState

variable (s : PodSyncState)

/-- **The releases of a pass**, which begins in the state and takes the given steps to its end.  For
each pod that is gone from the fetched list, has a lease and no running task, a release has been
sent. -/
def PassReleases (rest : List PodSyncStep) : Prop :=
  s.pass = .idle → .fetch ∉ rest → (run next s (.fetch :: rest)).pass = .idle →
    ∀ key, (s.leases.lookup key).isSome = true → ¬s.IsRunning key.1 → Gone s.server key.1 →
      (run next s (.fetch :: rest)).leases.lookup key ≠ some false

/-- The pod may become `Failed`: no lease of it is without a release. -/
def MayFail (pod : Pod) : Prop :=
  ∀ p ∈ s.server, p.hasKeyOf pod = true → ∀ key ∈ s.leases.keys, key.1 = p.id →
    s.leases.lookup key ≠ some false

/-- A pod leaves the list or becomes `Failed` only when releases have been sent for all its leases,
and a lease is not granted to a pod that is gone. -/
def Releasing : PodSyncStep → Prop
  | .change pods => ∀ key ∈ s.leases.keys, s.leases.lookup key = some false → ¬Gone pods key.1
  | .report applied => ∀ pod ∈ s.pass.toReport, applied = true → s.MayFail pod
  | .advance i outcome => ∀ t ∈ s.tasks[i]?,
      ((t.phase.next outcome).2 = .lease → ¬Gone s.server t.pod.id) ∧
      ((t.phase.next outcome).2 = .report .failed → s.MayFail t.pod)
  | _ => True

/-- A pod with a lease for which no release has been sent is still there. -/
def LeaseInv : Prop := ∀ key, s.leases.lookup key = some false → ¬Gone s.server key.1

end PodSyncState

namespace PodSyncState

variable {s : PodSyncState}

theorem mem_keys_of_lookup {key : String × String} {b : Bool} (h : s.leases.lookup key = some b) :
    key ∈ s.leases.keys :=
  AList.mem_keys.mp (AList.lookup_isSome.mp (Option.isSome_of_eq_some h))

/-- A change that lets no pod fail lets none go. -/
theorem not_gone_map {pods : List Pod} {podId : String} {f : Pod → Pod} (h : ¬Gone pods podId)
    (hid : ∀ p, (f p).id = p.id)
    (hstatus : ∀ p ∈ pods, p.id = podId → (f p).status = .failed → p.status = .failed) :
    ¬Gone (pods.map f) podId := by
  intro hgone
  refine h fun p hp hpid => hstatus p hp hpid ?_
  exact hgone (f p) (List.mem_map_of_mem hp) ((hid p).trans hpid)

theorem not_gone_putStatus {pod : Pod} {status : PodStatus} {podId : String}
    (h : ¬Gone s.server podId)
    (hfail : status = .failed → ∀ p ∈ s.server, p.hasKeyOf pod = true → p.id ≠ podId) :
    ¬Gone (s.putStatus pod status) podId := by
  refine not_gone_map h (fun p => ?_) fun p hp hid hfailed => ?_
  · split_ifs
    · rfl
    · rfl
  · split_ifs at hfailed with hkey
    · exact absurd hid (hfail hfailed p hp hkey)
    · exact hfailed

theorem not_gone_putVpc {pod : Pod} {podId : String} (h : ¬Gone s.server podId) :
    ¬Gone (s.putVpc pod) podId := by
  refine not_gone_map h (fun p => ?_) fun p hp hid hfailed => ?_
  · split_ifs
    · rfl
    · rfl
  · split_ifs at hfailed
    · exact hfailed
    · exact hfailed

/-- A release makes no lease one without a release. -/
theorem lookup_release_eq_false {pod : Pod} {released : Bool} {key : String × String}
    (h : (s.release pod released).leases.lookup key = some false) :
    s.leases.lookup key = some false := by
  rw [release] at h
  split at h
  · exact h
  · by_cases hkey : key = (pod.id, pod.releaseVpc)
    · rw [hkey] at h
      split_ifs at h
      · rw [AList.lookup_erase] at h
        cases h
      · rw [AList.lookup_insert] at h
        cases h
    · split_ifs at h
      · rwa [AList.lookup_erase_ne hkey] at h
      · rwa [AList.lookup_insert_ne hkey] at h

theorem server_release (pod : Pod) (released : Bool) :
    (s.release pod released).server = s.server := by
  rw [release]
  split
  · rfl
  · rfl

theorem spawn_cluster (pod : Pod) :
    (s.spawn pod).server = s.server ∧ (s.spawn pod).leases = s.leases := by
  rw [spawn]
  split_ifs
  · exact ⟨rfl, rfl⟩
  · exact ⟨rfl, rfl⟩

theorem LeaseInv.advance (h : s.LeaseInv) {i : ℕ} {t : LifecycleTask} {outcome : TaskOutcome}
    (hlease : (t.phase.next outcome).2 = .lease → ¬Gone s.server t.pod.id)
    (hfail : (t.phase.next outcome).2 = .report .failed → s.MayFail t.pod) :
    (s.advance i t outcome).LeaseInv := by
  intro key hkey
  change (s.perform t.pod (t.phase.next outcome).2).leases.lookup key = some false at hkey
  show ¬Gone (s.perform t.pod (t.phase.next outcome).2).server key.1
  cases heffect : (t.phase.next outcome).2 with
  | nothing | leave =>
      rw [heffect] at hkey
      exact h key hkey
  | lease =>
      rw [heffect] at hkey
      by_cases hsame : key = (t.pod.id, t.pod.allocationVpc)
      · rw [hsame]
        exact hlease heffect
      · exact h key ((AList.lookup_insert_ne hsame).symm.trans hkey)
  | report status =>
      rw [heffect] at hkey
      refine not_gone_putStatus (h key hkey) fun hstatus p hp hmatch hid => ?_
      rw [hstatus] at heffect
      exact hfail heffect p hp hmatch key (mem_keys_of_lookup hkey) hid.symm hkey
  | reportVpc =>
      rw [heffect] at hkey
      exact not_gone_putVpc (h key hkey)

/-- Every step of such a run keeps the invariant. -/
theorem LeaseInv.next (h : s.LeaseInv) {step : PodSyncStep} (hs : s.Releasing step) :
    (s.next step).LeaseInv := by
  cases step with
  | change pods => exact fun key hkey => hs key (mem_keys_of_lookup hkey) hkey
  | fetch =>
      rw [PodSyncState.next]
      split
      · exact h
      · exact h
  | check state released =>
      rw [PodSyncState.next]
      split
      · split_ifs
        · exact h
        · intro key hkey
          show ¬Gone (s.release _ released).server key.1
          rw [server_release]
          exact h key (lookup_release_eq_false hkey)
      · exact h
  | report applied =>
      rw [PodSyncState.next]
      split
      · rename_i pod pods todo hpass
        intro key hkey
        cases applied with
        | false => exact h key hkey
        | true =>
            refine not_gone_putStatus (h key hkey) fun _ p hp hmatch hid => ?_
            have hmay := hs pod (by rw [hpass]; rfl) rfl
            exact hmay p hp hmatch key (mem_keys_of_lookup hkey) hid.symm hkey
      · exact h
  | schedule =>
      rw [PodSyncState.next]
      split
      · exact h
      · intro key hkey
        change (s.spawn _).leases.lookup key = some false at hkey
        show ¬Gone (s.spawn _).server key.1
        rw [(spawn_cluster _).2] at hkey
        rw [(spawn_cluster _).1]
        exact h key hkey
      · exact h
      · exact h
  | advance i outcome =>
      rw [PodSyncState.next]
      split
      · rename_i t ht
        exact h.advance (hs t ht).1 (hs t ht).2
      · exact h

/-! ## The rest of a pass -/

/-- During a pass: the pod is gone from what is left of the list, no task of it is running, and it
has no lease without a release. -/
structure AtRest (s : PodSyncState) (key : String × String) : Prop where
  gone : Gone s.pass.left key.1
  idle : ¬s.IsRunning key.1
  released : s.leases.lookup key ≠ some false

variable {key : String × String}

theorem AtRest.gone_left (h : s.AtRest key) {phase : PassPhase} (hpass : s.pass = phase) :
    Gone phase.left key.1 := by
  rw [← hpass]
  exact h.gone

/-- A task that is over makes no calls. -/
theorem next_of_not_running {phase : LifecyclePhase} (outcome : TaskOutcome)
    (h : phase.isRunning = false) : phase.next outcome = (phase, .nothing) := by
  cases phase <;> first | rfl | exact absurd h.symm Bool.false_ne_true

theorem AtRest.advance (h : s.AtRest key) {i : ℕ} {t : LifecycleTask} (ht : s.tasks[i]? = some t)
    (outcome : TaskOutcome) : (s.advance i t outcome).AtRest key := by
  -- A task of the pod is over, so that it changes nothing.
  have hover : t.pod.id = key.1 → t.phase.next outcome = (t.phase, .nothing) ∧
      t.phase.isRunning = false := by
    intro hid
    have hidle : t.phase.isRunning = false := Bool.eq_false_of_not_eq_true fun hrunning =>
      h.idle ⟨t, List.mem_of_getElem? ht, hid, hrunning⟩
    exact ⟨next_of_not_running outcome hidle, hidle⟩
  refine ⟨?_, ?_, ?_⟩
  · have hpass : (s.perform t.pod (t.phase.next outcome).2).pass = s.pass := by
      cases (t.phase.next outcome).2 <;> rfl
    show Gone (s.perform t.pod (t.phase.next outcome).2).pass.left key.1
    rw [hpass]
    exact h.gone
  · rintro ⟨u, hu, hid, hrunning⟩
    rcases List.mem_or_eq_of_mem_set hu with hu | rfl
    · exact h.idle ⟨u, hu, hid, hrunning⟩
    · obtain ⟨hnext, hidle⟩ := hover hid
      rw [hnext] at hrunning
      exact Bool.false_ne_true (hidle.symm.trans hrunning)
  · intro hlookup
    change (s.perform t.pod (t.phase.next outcome).2).leases.lookup key = some false at hlookup
    cases heffect : (t.phase.next outcome).2 with
    | lease =>
        rw [heffect] at hlookup
        by_cases hsame : key = (t.pod.id, t.pod.allocationVpc)
        · have hnothing := (hover (congrArg Prod.fst hsame).symm).1
          rw [hnothing] at heffect
          exact nomatch heffect
        · exact h.released ((AList.lookup_insert_ne hsame).symm.trans hlookup)
    | nothing | leave | report | reportVpc =>
        rw [heffect] at hlookup
        exact h.released hlookup

theorem AtRest.spawn (h : s.AtRest key) {pod : Pod} (hgone : pod.id = key.1 → pod.status = .failed) :
    ¬(s.spawn pod).IsRunning key.1 := by
  rw [PodSyncState.spawn]
  split_ifs with hspawn
  · rintro ⟨t, ht, hid, hrunning⟩
    rcases List.mem_append.mp ht with ht | ht
    · exact h.idle ⟨t, ht, hid, hrunning⟩
    · obtain rfl := List.mem_singleton.mp ht
      have hsched := hspawn.1
      rw [Pod.isSchedulable, hgone hid] at hsched
      exact Bool.false_ne_true hsched
  · exact h.idle

/-- It stays so until the next pass fetches. -/
theorem AtRest.next (h : s.AtRest key) {step : PodSyncStep} (hstep : step ≠ .fetch) :
    (s.next step).AtRest key := by
  cases step with
  | change pods => exact ⟨h.gone, h.idle, h.released⟩
  | fetch => exact absurd rfl hstep
  | check state released =>
      rw [PodSyncState.next]
      split
      · rename_i pods pod todo hpass
        have hgone : Gone pods key.1 := h.gone_left hpass
        split_ifs
        · exact ⟨hgone, h.idle, h.released⟩
        · refine ⟨hgone, ?_, fun hlookup => h.released (lookup_release_eq_false hlookup)⟩
          rintro ⟨t, ht, hrest⟩
          exact h.idle ⟨t, (release_agent pod released).1 ▸ ht, hrest⟩
      · exact h
  | report applied =>
      rw [PodSyncState.next]
      split
      · rename_i pod pods todo hpass
        have hgone : Gone pods key.1 := h.gone_left hpass
        exact ⟨hgone, h.idle, h.released⟩
      · exact h
  | schedule =>
      rw [PodSyncState.next]
      split
      · rename_i pods hpass
        have hgone : Gone pods key.1 := h.gone_left hpass
        exact ⟨hgone, h.idle, h.released⟩
      · rename_i pod todo hpass
        have hgone : Gone (pod :: todo) key.1 := h.gone_left hpass
        refine ⟨fun p hp => hgone p (List.mem_cons_of_mem _ hp), ?_, ?_⟩
        · exact h.spawn (hgone pod List.mem_cons_self)
        · show (s.spawn pod).leases.lookup key ≠ some false
          rw [(spawn_cluster pod).2]
          exact h.released
      · exact ⟨fun p hp => absurd hp List.not_mem_nil, h.idle, h.released⟩
      · exact h
  | advance i outcome =>
      rw [PodSyncState.next]
      split
      · rename_i t ht
        exact h.advance ht outcome
      · exact h

/-- What the invariant says of a pass that begins. -/
theorem LeaseInv.passReleases (h : s.LeaseInv) (rest : List PodSyncStep) : s.PassReleases rest := by
  intro hidle hrest _ key _ hnotask hgone
  have hfetch : (s.next .fetch).AtRest key := by
    rw [PodSyncState.next, hidle]
    exact ⟨hgone, hnotask, fun hlookup => h key hlookup hgone⟩
  have hsteps : Admitted PodSyncState.next (fun _ step => True ∧ step ≠ .fetch) (s.next .fetch)
      rest :=
    (admitted_true _ _ _).and_forall fun step hstep heq => hrest (heq ▸ hstep)
  have hend := invariant_run (fun s : PodSyncState => s.AtRest key)
    (fun s step hstep hs => hs.next hstep.2) hfetch hsteps
  exact hend.released

end PodSyncState

instance (s : PodSyncState) (pod : Pod) : Decidable (s.MayFail pod) :=
  inferInstanceAs (Decidable (∀ p ∈ s.server, _ → ∀ key ∈ s.leases.keys, _ → _))

instance (s : PodSyncState) : (step : PodSyncStep) → Decidable (s.Releasing step)
  | .change _ => inferInstanceAs (Decidable (∀ key ∈ s.leases.keys, _ → ¬_))
  | .report _ => inferInstanceAs (Decidable (∀ pod ∈ s.pass.toReport, _ → _))
  | .advance i _ => inferInstanceAs (Decidable (∀ t ∈ s.tasks[i]?, (_ → ¬_) ∧ (_ → _)))
  | .fetch | .check _ _ | .schedule => inferInstanceAs (Decidable True)

/-- The container of a pod stops, and the daemon refuses the release. -/
def stopped : List PodSyncStep :=
  onePass ++ toReport 0 ++ [.advance 0 .ok, .advance 0 .ok, .fetch, .check .stopped false, .report true,
    .schedule, .schedule, .schedule]

/-- A pod is started, reported and deleted. -/
def deleted : List PodSyncStep :=
  onePass ++ toReport 0 ++ [.advance 0 .ok, .advance 0 .ok, .change []]

end K3rs
