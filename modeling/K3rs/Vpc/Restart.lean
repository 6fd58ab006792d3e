import K3rs.Vpc.PeeringSync
import K3rs.Lib.Transition

/-!
# Peering rules across restarts

A process ends at any point of its writes, and the next one starts from the disk it left.
`Lifetime` is such a process, and a history is a list of them.  The question is whether the
first completed cycle after a restart leaves the same keys in `PEERINGS` as it would on an
empty disk.

It need not.  `prev_peering_names` is empty after a restart, the keys of the pinned map have
no names, and the store never forgets a peering; so a peering that was deleted while the
daemon was down is not among the names whose rules are removed, and its keys stay.
`Covered` is the exact condition (`restart_independent_iff`):

* `noStale`: a key that should not be there is recorded for a peering that is still active,
  whose rules are removed before fresh ones are installed;
* `noLost`: a key that should be there is not removed, with the old rules of another
  peering, after it was installed.
-/

namespace K3rs

open Ebpf Crash Grants Transition

/-! ## Histories -/

/-- A process that crashes after some of its writes. -/
structure Lifetime where
  cycles : List Cycle
  crashAfter : ℕ

/-- The disk it leaves. -/
def Lifetime.leaves (disk : Disk) (l : Lifetime) : Disk :=
  crash Disk.write l.crashAfter (lifetime l.cycles) (.down, disk)

/-- The disk after a history that began with an empty one. -/
def diskAfter (history : List Lifetime) : Disk := run Lifetime.leaves {} history

/-- The disk after a restart and one completed cycle. -/
def restarted (disk : Disk) (c : Cycle) : Disk :=
  (exec Disk.write (lifetime [c]) (.down, disk)).2

/-- `rebuild` installs the key for a peering of that name. -/
def Disk.StoredGrant (disk : Disk) (name : String) (key : PeeringKey) : Prop :=
  ∃ p ∈ disk.store.loadPeerings, p.name = name ∧ key ∈ grantedKeys disk.store.loadVpcs p

/-- When the first cycle puts everything right. -/
structure Covered (disk : Disk) (c : Cycle) : Prop where
  noStale : ∀ key, ¬ c.Granted key →
    ((disk.pinned.maps.peerings key).isSome ∨ ∃ name, disk.StoredGrant name key) →
      ∃ p ∈ c.activePeerings, disk.StoredGrant p.name key
  noLost : ∀ key, c.Granted key →
    ∀ before q after, c.activePeerings = before ++ q :: after → disk.StoredGrant q.name key →
      ¬ c.Grants q key → ∃ p ∈ after, c.Grants p key

/-! ## The first cycle after a restart -/

section FirstCycle

variable {disk : Disk} {c : Cycle} {key : PeeringKey}

theorem restarted_eq :
    restarted disk c =
      (exec Disk.write (syncCycle c) (exec Disk.write boot (.down, disk))).2 := by
  rw [restarted, lifetime, exec_block]
  rfl

/-- What a new process has recorded. -/
theorem records_boot {name : String} :
    (exec Disk.write boot (.down, disk)).1.Records name key ↔ disk.StoredGrant name key :=
  mem_recorded_boot

/-- A key that the cycle grants is there unless it is removed after it was installed. -/
theorem isSome_restarted_of_granted (hgranted : c.Granted key) :
    ((restarted disk c).pinned.maps.peerings key).isSome ↔
      ∀ before q after, c.activePeerings = before ++ q :: after →
        disk.StoredGrant q.name key → ¬ c.Grants q key → ∃ p ∈ after, c.Grants p key := by
  rw [restarted_eq, isSome_syncCycle_of_granted c hgranted, Cycle.Survives]
  simp only [records_boot]

/-- Another key is there when it was, in the map or through the store, and no active peering
has it recorded. -/
theorem isSome_restarted_of_not_granted (hnot : ¬ c.Granted key) :
    ((restarted disk c).pinned.maps.peerings key).isSome ↔
      ((disk.pinned.maps.peerings key).isSome ∨ ∃ name, disk.StoredGrant name key) ∧
        ∀ p ∈ c.activePeerings, ¬ disk.StoredGrant p.name key := by
  have hpresent : ((exec Disk.write boot (.down, disk)).2.pinned.maps.peerings key).isSome ↔
      (disk.pinned.maps.peerings key).isSome ∨ ∃ name, disk.StoredGrant name key := by
    refine mem_present_boot.trans (or_congr_right ?_)
    constructor
    · rintro ⟨p, hp, hkey⟩
      exact ⟨p.name, p, hp, rfl, hkey⟩
    · rintro ⟨name, p, hp, -, hkey⟩
      exact ⟨p, hp, hkey⟩
  rw [restarted_eq, isSome_syncCycle_of_not_granted c List.nodup_nil hnot, hpresent]
  refine and_congr_right fun _ => ?_
  constructor
  · intro h p hp hstored
    exact h p.name (Or.inr (c.mem_currentPeeringNames.mpr ⟨p, hp, rfl⟩)) (records_boot.mpr hstored)
  · rintro h name (hprev | hcurrent) hrecorded
    · cases hprev
    · obtain ⟨p, hp, rfl⟩ := c.mem_currentPeeringNames.mp hcurrent
      exact h p hp (records_boot.mp hrecorded)

/-- On an empty disk the map holds exactly what the cycle grants. -/
theorem isSome_restarted_empty :
    ((restarted {} c).pinned.maps.peerings key).isSome ↔ c.Granted key := by
  have hstored : ∀ name, ¬ ({} : Disk).StoredGrant name key := by
    rintro name ⟨p, hp, -⟩
    cases hp
  by_cases hgranted : c.Granted key
  · refine iff_of_true ((isSome_restarted_of_granted hgranted).mpr ?_) hgranted
    intro before q after _ h
    exact absurd h (hstored q.name)
  · refine iff_of_false (fun h => ?_) hgranted
    rcases ((isSome_restarted_of_not_granted hgranted).mp h).1 with hpinned | ⟨name, hname⟩
    · cases hpinned
    · exact hstored name hname

end FirstCycle

/-- **Restart independence.**  After any history of cycles and crashes, a restart and one
completed cycle leave the keys that a daemon with an empty disk would have after that cycle,
if and only if the cycle covers what the history left. -/
theorem restart_independent_iff (history : List Lifetime) (c : Cycle) :
    (∀ key, ((restarted (diskAfter history) c).pinned.maps.peerings key).isSome ↔
        ((restarted {} c).pinned.maps.peerings key).isSome) ↔ Covered (diskAfter history) c := by
  simp only [isSome_restarted_empty]
  constructor
  · intro h
    refine ⟨fun key hnot hthere => ?_, fun key hgranted => ?_⟩
    · by_contra hnone
      push Not at hnone
      exact hnot ((h key).mp ((isSome_restarted_of_not_granted hnot).mpr ⟨hthere, hnone⟩))
    · exact (isSome_restarted_of_granted hgranted).mp ((h key).mpr hgranted)
  · intro h key
    by_cases hgranted : c.Granted key
    · exact iff_of_true
        ((isSome_restarted_of_granted hgranted).mpr (h.noLost key hgranted)) hgranted
    · refine iff_of_false (fun hthere => ?_) hgranted
      obtain ⟨hbefore, hnone⟩ := (isSome_restarted_of_not_granted hgranted).mp hthere
      obtain ⟨p, hp, hstored⟩ := h.noStale key hgranted hbefore
      exact hnone p hp hstored

/-- One complete cycle with the peering between blue and green, and then a crash. -/
def peeredHistory : List Lifetime := [⟨[blueGreenCycle [mutualPeering] (by decide)], 100⟩]

/-- The peering is deleted on the server while the daemon is down, and its rules stay. -/
theorem restart_independent_fails_deleted :
    ¬ ∀ key, ((restarted (diskAfter peeredHistory)
        (blueGreenCycle [] (by decide))).pinned.maps.peerings key).isSome ↔
      ((restarted {} (blueGreenCycle [] (by decide))).pinned.maps.peerings key).isSome := by
  intro h
  have hthere : ((restarted (diskAfter peeredHistory)
      (blueGreenCycle [] (by decide))).pinned.maps.peerings ⟨5, 6⟩).isSome := by
    decide
  have hfresh : ¬ ((restarted {} (blueGreenCycle [] (by decide))).pinned.maps.peerings
      ⟨5, 6⟩).isSome := by
    decide
  exact hfresh ((h ⟨5, 6⟩).mp hthere)

end K3rs
