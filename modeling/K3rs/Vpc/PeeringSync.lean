import K3rs.Vpc.Sync

/-!
# Peering rules in one process

What the lists of a cycle grant is a relation between VPC ids, said here without reference
to the enforcer (`Listing.Grants`).  The enforcer removes rules by peering name, so it has to
know which name stands for which keys; `Synced` is the invariant of the sync loop that makes
this work: the map holds no key that is not recorded, and recorded are exactly the grants
of the last cycle.

`peering_sync` is the result.  After a cycle the map holds only what the cycle grants.  It
holds all of it unless a peering that was there before has changed what it grants: the keys
such a peering gives up are removed even when another peering grants them as well.
-/

namespace K3rs

open Ebpf Crash Grants

/-! ## What a listing grants -/

namespace Listing

variable (l : Listing)

/-- An active peering between two listed VPCs grants the key from `a` to `b`, and the other
one too when it is bidirectional. -/
def Grants (p : VpcPeering) (key : PeeringKey) : Prop :=
  p.status = .active ∧ ∃ a ∈ l.vpcs, ∃ b ∈ l.vpcs, a.name = p.vpcA ∧ b.name = p.vpcB ∧
    (key = ⟨a.vpcId, b.vpcId⟩ ∨ p.direction = .bidirectional ∧ key = ⟨b.vpcId, a.vpcId⟩)

/-- Some peering of the listing grants the key. -/
def Granted (key : PeeringKey) : Prop := ∃ p ∈ l.peerings, l.Grants p key

/-- No peering name kept from the previous listing changed the keys it grants. -/
def KeepsGrants (prev : Listing) : Prop :=
  ∀ p ∈ prev.peerings, ∀ q ∈ l.peerings, p.name = q.name →
    ∀ key, prev.Grants p key ↔ l.Grants q key

variable {l}

/-- The VPC of a name is the one the enforcer finds. -/
theorem find?_eq_some_iff {name : String} {v : Vpc} :
    l.vpcs.find? (fun v => v.name = name) = some v ↔ v ∈ l.vpcs ∧ v.name = name := by
  constructor
  · intro h
    exact ⟨List.mem_of_find?_eq_some h, by simpa using List.find?_some h⟩
  · rintro ⟨hv, rfl⟩
    have hfound : (l.vpcs.find? fun w => w.name = v.name).isSome :=
      List.find?_isSome.mpr ⟨v, hv, decide_eq_true rfl⟩
    obtain ⟨w, hw⟩ := Option.isSome_iff_exists.mp hfound
    have hname : w.name = v.name := by simpa using List.find?_some hw
    obtain rfl := List.inj_on_of_nodup_map l.vpcNames (List.mem_of_find?_eq_some hw) hv hname
    exact hw

/-- The keys the enforcer enters for a peering are those it grants. -/
theorem mem_grantedKeys_iff {p : VpcPeering} {key : PeeringKey} :
    key ∈ grantedKeys l.vpcs p ↔ l.Grants p key := by
  have hkeys : ∀ a b : Vpc, key ∈ EbpfEnforcer.peeringKeys p.direction a b ↔
      (key = ⟨a.vpcId, b.vpcId⟩ ∨ p.direction = .bidirectional ∧ key = ⟨b.vpcId, a.vpcId⟩) := by
    intro a b
    cases p.direction <;> simp [EbpfEnforcer.peeringKeys]
  simp only [grantedKeys, Grants, Set.mem_ofPred_eq, Option.mem_def, find?_eq_some_iff, hkeys]
  constructor
  · rintro ⟨hactive, a, ⟨ha, haName⟩, b, ⟨hb, hbName⟩, hkey⟩
    exact ⟨hactive, a, ha, b, hb, haName, hbName, hkey⟩
  · rintro ⟨hactive, a, ha, b, hb, haName, hbName, hkey⟩
    exact ⟨hactive, a, ⟨ha, haName⟩, b, ⟨hb, hbName⟩, hkey⟩

theorem mem_activePeerings_of_grants {p : VpcPeering} {key : PeeringKey} (hp : p ∈ l.peerings)
    (h : l.Grants p key) : p ∈ l.activePeerings :=
  List.mem_filter.mpr ⟨hp, by simpa using h.1⟩

theorem granted_iff {key : PeeringKey} :
    l.Granted key ↔ ∃ p ∈ l.activePeerings, key ∈ grantedKeys l.vpcs p := by
  constructor
  · rintro ⟨p, hp, hgrants⟩
    exact ⟨p, mem_activePeerings_of_grants hp hgrants, mem_grantedKeys_iff.mpr hgrants⟩
  · rintro ⟨p, hp, hkey⟩
    exact ⟨p, List.mem_of_mem_filter hp, mem_grantedKeys_iff.mp hkey⟩

end Listing

/-! ## What a cycle does to the map -/

/-- The enforcer has recorded the key for a peering of that name. -/
def Daemon.Records (d : Daemon) (name : String) (key : PeeringKey) : Prop :=
  ∃ keys ∈ d.enforcer.peeringToKeys name, key ∈ keys

/-- Every active peering that has the key recorded and does not grant it any more is followed
by one that grants it. -/
def Cycle.Survives (c : Cycle) (d : Daemon) (key : PeeringKey) : Prop :=
  ∀ before q after, c.activePeerings = before ++ q :: after → d.Records q.name key →
    ¬ c.Grants q key → ∃ p ∈ after, c.Grants p key

section Map

variable {s : Daemon × Disk} {key : PeeringKey}

/-- The records of an active peering are untouched while those of others are removed. -/
theorem mem_recorded_vanished (c : Cycle) {q : VpcPeering} (hq : q ∈ c.activePeerings)
    {prevNames : List String} :
    key ∈ ((registry (rules s)).assignAll ((c.vanishedNames prevNames).map fun name =>
        (name, ∅))).recorded q.name ↔ s.1.Records q.name key := by
  rw [Grants.Registry.recorded_assignAll_of_notMem]
  · exact Iff.rfl
  · rw [List.map_map]
    intro hmem
    obtain ⟨gone, hgone, rfl⟩ := List.mem_map.mp hmem
    exact c.notMem_vanishedNames hq hgone

/-- A key that the cycle grants is there unless it is removed after it was installed. -/
theorem isSome_syncCycle_of_granted (c : Cycle) (hgranted : c.Granted key) :
    ((exec Disk.write (syncCycle c) s).2.pinned.maps.peerings key).isSome ↔
      c.Survives s.1 key := by
  show key ∈ (registry (rules (exec Disk.write (syncCycle c) s))).present ↔ _
  obtain ⟨p, hp, hkey⟩ := Listing.granted_iff.mp hgranted
  rw [registry_syncCycle, Cycle.assignments, Grants.Registry.assignAll_append,
    Grants.Registry.mem_present_assignAll_of_granted c.activeGrants_nodup
      ⟨_, List.mem_map_of_mem hp, hkey⟩]
  constructor
  · intro h before q after hsplit hrecorded hnot
    have hq : q ∈ c.activePeerings :=
      hsplit ▸ List.mem_append_right before List.mem_cons_self
    have hmapped := congrArg (List.map fun p => (p.name, grantedKeys c.vpcs p)) hsplit
    rw [List.map_append, List.map_cons] at hmapped
    obtain ⟨entry, hentry, hlater⟩ := h _ _ _ hmapped
      ((mem_recorded_vanished c hq).mpr hrecorded)
      fun hin => hnot (Listing.mem_grantedKeys_iff.mp hin)
    obtain ⟨p', hp', rfl⟩ := List.mem_map.mp hentry
    exact ⟨p', hp', Listing.mem_grantedKeys_iff.mp hlater⟩
  · intro h pre entry post hsplit hold hnot
    obtain ⟨before, rest, hactive, rfl, hrest⟩ := List.map_eq_append_iff.mp hsplit
    obtain ⟨q, after, rfl, rfl, rfl⟩ := List.map_eq_cons_iff.mp hrest
    have hq : q ∈ c.activePeerings :=
      hactive ▸ List.mem_append_right before List.mem_cons_self
    obtain ⟨p', hp', hgrants⟩ := h before q after hactive ((mem_recorded_vanished c hq).mp hold)
      fun hin => hnot (Listing.mem_grantedKeys_iff.mpr hin)
    exact ⟨_, List.mem_map_of_mem hp', Listing.mem_grantedKeys_iff.mpr hgrants⟩

/-- Another key is there when it was, and is recorded neither for a name of the last cycle nor
for an active one. -/
theorem isSome_syncCycle_of_not_granted (c : Cycle) (hnodup : s.1.prevPeeringNames.Nodup)
    (hnot : ¬ c.Granted key) :
    ((exec Disk.write (syncCycle c) s).2.pinned.maps.peerings key).isSome ↔
      (s.2.pinned.maps.peerings key).isSome ∧
        ∀ name, name ∈ s.1.prevPeeringNames ∨ name ∈ c.currentPeeringNames →
          ¬ s.1.Records name key := by
  show key ∈ (registry (rules (exec Disk.write (syncCycle c) s))).present ↔ _
  rw [registry_syncCycle,
    Grants.Registry.mem_present_assignAll_of_not_granted (c.assignments_nodup hnodup)]
  · refine and_congr Iff.rfl ?_
    constructor
    · intro h name hname hrecorded
      by_cases hcurrent : name ∈ c.currentPeeringNames
      · obtain ⟨p, hp, rfl⟩ := c.mem_currentPeeringNames.mp hcurrent
        exact h _ (c.mem_assignments.mpr (Or.inr ⟨p, hp, rfl⟩)) hrecorded
      · have hprev := hname.resolve_right hcurrent
        exact h (name, ∅) (c.mem_assignments.mpr (Or.inl ⟨hprev, hcurrent, rfl⟩)) hrecorded
    · intro h entry hentry hrecorded
      rcases c.mem_assignments.mp hentry with ⟨hprev, -, -⟩ | ⟨p, hp, rfl⟩
      · exact h entry.1 (Or.inl hprev) hrecorded
      · exact h p.name (Or.inr (c.mem_currentPeeringNames.mpr ⟨p, hp, rfl⟩)) hrecorded
  · intro entry hentry hkey
    rcases c.mem_assignments.mp hentry with ⟨-, -, hempty⟩ | ⟨p, hp, rfl⟩
    · rw [hempty] at hkey
      cases hkey
    · exact hnot (Listing.granted_iff.mpr ⟨p, hp, hkey⟩)

end Map

/-! ## The invariant of the loop -/

/-- The state of the daemon between cycles, `prev` being the last one of this process. -/
structure Synced (prev : Option Cycle) (s : Daemon × Disk) : Prop where
  accounted : (registry (rules s)).Accounted
  recorded : ∀ name key, key ∈ (registry (rules s)).recorded name ↔
    ∃ c ∈ prev, ∃ p ∈ c.activePeerings, p.name = name ∧ key ∈ grantedKeys c.vpcs p
  names : s.1.prevPeeringNames = (prev.map fun c => c.currentPeeringNames).getD []

section Loop

variable {s : Daemon × Disk} {prev : Option Cycle}

/-- A process that starts on an empty map has recorded nothing. -/
theorem synced_boot (hempty : ∀ key,
      (exec Disk.write boot s).2.pinned.maps.peerings key = none) :
    Synced none (exec Disk.write boot s) := by
  have hpresent : ∀ key, key ∉ (registry (rules (exec Disk.write boot s))).present := by
    intro key hkey
    rw [registry, Set.mem_ofPred_eq, rules, hempty key] at hkey
    cases hkey
  refine ⟨fun key hkey => absurd hkey (hpresent key), fun name key => ?_, rfl⟩
  constructor
  · intro hkey
    obtain ⟨p, hp, -, hgrant⟩ := mem_recorded_boot.mp hkey
    exact absurd (mem_present_boot.mpr (Or.inr ⟨p, hp, hgrant⟩)) (hpresent key)
  · rintro ⟨c, hc, -⟩
    cases hc

namespace Synced

theorem prevNames_nodup (h : Synced prev s) : s.1.prevPeeringNames.Nodup := by
  rw [h.names]
  cases prev with
  | none => exact List.nodup_nil
  | some c => exact List.nodup_dedup _

/-- A name with records was active in the last cycle. -/
theorem mem_prevNames (h : Synced prev s) {name : String} {key : PeeringKey}
    (hkey : key ∈ (registry (rules s)).recorded name) : name ∈ s.1.prevPeeringNames := by
  obtain ⟨c, rfl, p, hp, hname, -⟩ := (h.recorded name key).mp hkey
  rw [h.names]
  exact c.mem_currentPeeringNames.mpr ⟨p, hp, hname⟩

/-- After a cycle, what is recorded is what the cycle grants. -/
theorem recorded_syncCycle (h : Synced prev s) (c : Cycle) (name : String) (key : PeeringKey) :
    key ∈ (registry (rules (exec Disk.write (syncCycle c) s))).recorded name ↔
      ∃ p ∈ c.activePeerings, p.name = name ∧ key ∈ grantedKeys c.vpcs p := by
  have hnodup := c.assignments_nodup h.prevNames_nodup
  rw [registry_syncCycle]
  by_cases hactive : ∃ p ∈ c.activePeerings, p.name = name
  · obtain ⟨p, hp, rfl⟩ := hactive
    rw [Grants.Registry.recorded_assignAll_of_mem hnodup (c.mem_assignments.mpr (Or.inr ⟨p, hp, rfl⟩))]
    constructor
    · intro hkey
      exact ⟨p, hp, rfl, hkey⟩
    · rintro ⟨q, hq, hname, hkey⟩
      obtain rfl := List.inj_on_of_nodup_map c.activePeerings_names_nodup hq hp hname
      exact hkey
  · have hgone : name ∉ c.currentPeeringNames :=
      fun hname => hactive (c.mem_currentPeeringNames.mp hname)
    refine iff_of_false (fun hkey => ?_) ?_
    · by_cases hprev : name ∈ s.1.prevPeeringNames
      · have hentry : ((name, ∅) : String × Set PeeringKey) ∈
            c.assignments s.1.prevPeeringNames :=
          c.mem_assignments.mpr (Or.inl ⟨hprev, hgone, rfl⟩)
        rw [Grants.Registry.recorded_assignAll_of_mem hnodup hentry] at hkey
        cases hkey
      · -- nothing is assigned to the name, and nothing was recorded for it
        rw [Grants.Registry.recorded_assignAll_of_notMem] at hkey
        · exact hprev (h.mem_prevNames hkey)
        · intro hname
          obtain ⟨entry, hentry, rfl⟩ := List.mem_map.mp hname
          rcases c.mem_assignments.mp hentry with ⟨hin, -⟩ | ⟨p, hp, rfl⟩
          · exact hprev hin
          · exact hactive ⟨p, hp, rfl⟩
    · rintro ⟨p, hp, hname, -⟩
      exact hactive ⟨p, hp, hname⟩

/-- **The step lemma.** -/
theorem step (h : Synced prev s) (c : Cycle) :
    Synced (some c) (exec Disk.write (syncCycle c) s) := by
  refine ⟨?_, fun name key => ?_, prevPeeringNames_syncCycle c⟩
  · rw [registry_syncCycle]
    exact h.accounted.assignAll
  · rw [h.recorded_syncCycle c]
    constructor
    · intro hkey
      exact ⟨c, rfl, hkey⟩
    · rintro ⟨c', hc', hkey⟩
      obtain rfl := Option.some_inj.mp hc'
      exact hkey

/-- **The run lemma.** -/
theorem cycles (h : Synced none (exec Disk.write boot s)) (cs : List Cycle) :
    Synced cs.getLast? (exec Disk.write (lifetime cs) s) := by
  rw [lifetime, exec_block, List.foldl_cons]
  induction cs using List.reverseRecOn with
  | nil => exact h
  | append_singleton rest c ih =>
      rw [List.map_append, List.foldl_append, List.getLast?_concat]
      exact ih.step c

/-- **Soundness.**  Every key in the map is granted by the last cycle. -/
theorem granted {c : Cycle} (h : Synced (some c) s) {key : PeeringKey}
    (hkey : (s.2.pinned.maps.peerings key).isSome) : c.Granted key := by
  obtain ⟨name, hname⟩ := h.accounted key hkey
  obtain ⟨c', hc', p, hp, -, hgrant⟩ := (h.recorded name key).mp hname
  obtain rfl := Option.some_inj.mp hc'
  exact Listing.granted_iff.mpr ⟨p, hp, hgrant⟩

/-- **Completeness.**  A key the cycle grants is in the map, as long as the names kept from
the previous cycle grant what they granted. -/
theorem isSome_of_granted (h : Synced prev s) (c : Cycle)
    (hkeeps : ∀ c' ∈ prev, c.KeepsGrants c'.toListing) {key : PeeringKey}
    (hgranted : c.Granted key) :
    ((exec Disk.write (syncCycle c) s).2.pinned.maps.peerings key).isSome := by
  refine (isSome_syncCycle_of_granted c hgranted).mpr fun before q after hsplit hrecorded hnot => ?_
  have hq : q ∈ c.activePeerings := hsplit ▸ List.mem_append_right before List.mem_cons_self
  obtain ⟨c', hc', q', hq', hname, hgrant⟩ := (h.recorded q.name key).mp hrecorded
  have hsame := hkeeps c' hc' q' (List.mem_of_mem_filter hq') q (List.mem_of_mem_filter hq)
    hname key
  exact absurd (hsame.mp (Listing.mem_grantedKeys_iff.mp hgrant)) hnot

end Synced

end Loop

/-- The last cycle of a process works on what the process was before. -/
theorem exec_lifetime_concat (cycles : List Cycle) (c : Cycle) (s : Daemon × Disk) :
    exec Disk.write (lifetime (cycles ++ [c])) s =
      exec Disk.write (syncCycle c) (exec Disk.write (lifetime cycles) s) := by
  simp only [lifetime, exec_block, List.map_append, List.foldl_cons, List.foldl_append,
    List.map_cons, List.map_nil, List.foldl_nil]

/-- **Peering sync in one process.**  A daemon that starts on an empty `PEERINGS` map has,
after every cycle, no key that the cycle does not grant; and it has exactly the granted
keys when no name kept from the cycle before changed what it grants. -/
theorem peering_sync (disk : Disk)
    (hempty : ∀ key, (exec Disk.write boot (.down, disk)).2.pinned.maps.peerings key = none)
    (cycles : List Cycle) (c : Cycle) :
    (∀ key, ((exec Disk.write (lifetime (cycles ++ [c])) (.down, disk)).2.pinned.maps.peerings
        key).isSome → c.Granted key) ∧
      ((∀ prev ∈ cycles.getLast?, c.KeepsGrants prev.toListing) →
        ∀ key, ((exec Disk.write (lifetime (cycles ++ [c])) (.down, disk)).2.pinned.maps.peerings
          key).isSome ↔ c.Granted key) := by
  have hbefore := (synced_boot hempty).cycles cycles
  rw [exec_lifetime_concat]
  refine ⟨fun key hkey => (hbefore.step c).granted hkey, fun hkeeps key => ?_⟩
  exact ⟨fun hkey => (hbefore.step c).granted hkey, hbefore.isSome_of_granted c hkeeps⟩

/-- The elements in the order in which they are stored. -/
def Iteration.inOrder {α : Type} : Iteration α := ⟨id, fun _ => List.Perm.refl _⟩

/-- A cycle in which two VPCs are listed with the given peerings. -/
def blueGreenCycle (peerings : List VpcPeering) (h : (peerings.map VpcPeering.name).Nodup) :
    Cycle where
  vpcs := [⟨"blue", 5, "10.0.0.0/24", .active⟩, ⟨"green", 6, "10.1.0.0/24", .active⟩]
  peerings
  vpcNames := by decide
  peeringNames := h
  idOrder := .inOrder
  nameOrder := .inOrder

/-- Blue and green, in both directions. -/
def mutualPeering : VpcPeering := ⟨"mutual", "blue", "green", .bidirectional, .active⟩

/-- From blue to green only. -/
def oneWayPeering : VpcPeering := ⟨"one-way", "blue", "green", .initiatorOnly, .active⟩

/-- The key both peerings grant is still there when one of them is gone. -/
theorem peering_sync_shared_key :
    ((exec Disk.write (lifetime ([blueGreenCycle [mutualPeering, oneWayPeering] (by decide)] ++
      [blueGreenCycle [oneWayPeering] (by decide)])) (.down, {})).2.pinned.maps.peerings
        ⟨5, 6⟩).isSome := by
  refine ((peering_sync {} (fun _ => rfl) _ _).2 ?_ ⟨5, 6⟩).mpr ?_
  · intro prev hprev
    obtain rfl := Option.some_inj.mp hprev
    intro p hp q hq hname key
    obtain rfl := List.mem_singleton.mp hq
    rcases List.mem_pair.mp hp with rfl | rfl
    · exact absurd hname (by decide)
    · exact Iff.rfl
  · exact ⟨oneWayPeering, List.mem_singleton_self _, rfl, _, List.mem_cons_self, _,
      List.mem_cons_of_mem _ List.mem_cons_self, rfl, rfl, Or.inl rfl⟩

end K3rs
