import K3rs.Vpc.Allocator
import K3rs.Vpc.Enforcer

/-!
# The VPC daemon

The daemon keeps what must survive it in the store and in the pinned maps (`Disk`); the
allocator, the enforcer and the names and ids seen in the last sync cycle die with the
process (`Daemon`).  `boot` is the start of the process, up to the point where the sync
loop begins, and `syncCycle` one pass of that loop, on lists the server returned.  A pass
for which the server cannot be reached changes nothing and does not appear.

A process that crashes leaves behind some first part of its writes; `lifetime` is all that
one process would write.  The order in which hash sets are walked is not specified, so it
is part of the input of a cycle.

## Peerings

`registry_boot` and `registry_syncCycle` say what `boot` and a cycle do to the rules for
peerings, as assignments of keys to peering names.
-/

namespace K3rs

open Net Ebpf Crash Grants Tables

/-! ## What survives -/

/-- The store and the pinned maps of a node. -/
structure Disk where
  store : VpcStore := {}
  pinned : Pinned := {}

/-- One write to either. -/
inductive Write where
  | saveVpcs (vpcs : List Vpc)
  | savePeerings (peerings : List VpcPeering)
  | saveMeta (value : VpcDaemonMeta)
  | pin (write : MapWrite)

/-- The disk after a write. -/
def Disk.write (disk : Disk) : Write → Disk
  | .saveVpcs vpcs => { disk with store := disk.store.saveVpcs vpcs }
  | .savePeerings peerings => { disk with store := disk.store.savePeerings peerings }
  | .saveMeta value => { disk with store := disk.store.saveMeta value }
  | .pin write => { disk with pinned := disk.pinned.write write }

/-! ## What a cycle is given -/

/-- The lists the server returns.  It keeps its records by name, so that no name is listed
twice. -/
structure Listing where
  vpcs : List Vpc
  peerings : List VpcPeering
  vpcNames : (vpcs.map Vpc.name).Nodup
  peeringNames : (peerings.map VpcPeering.name).Nodup

/-- The order in which the elements of a hash set are visited. -/
structure Iteration (α : Type) where
  visit : List α → List α
  perm : ∀ l, (visit l).Perm l

/-- The input of a sync cycle. -/
structure Cycle extends Listing where
  idOrder : Iteration UInt16
  nameOrder : Iteration String

namespace Listing

variable (l : Listing)

/-- The keys of `current_vpc_ids`. -/
def currentVpcIds : List UInt16 := (l.vpcs.map Vpc.vpcId).dedup

/-- The peerings that are `Active`. -/
def activePeerings : List VpcPeering := l.peerings.filter fun p => p.status = .active

/-- `current_peering_names`. -/
def currentPeeringNames : List String := (l.activePeerings.map VpcPeering.name).dedup

theorem activePeerings_names_nodup : (l.activePeerings.map VpcPeering.name).Nodup :=
  l.peeringNames.sublist (List.filter_sublist.map _)

theorem mem_currentPeeringNames {name : String} :
    name ∈ l.currentPeeringNames ↔ ∃ p ∈ l.activePeerings, p.name = name := by
  rw [currentPeeringNames, List.mem_dedup, List.mem_map]

/-- Every active peering with the keys it grants. -/
def activeGrants : List (String × Set PeeringKey) :=
  l.activePeerings.map fun p => (p.name, grantedKeys l.vpcs p)

theorem activeGrants_nodup : (l.activeGrants.map Prod.fst).Nodup := by
  rw [activeGrants, List.map_map]
  exact l.activePeerings_names_nodup

end Listing

namespace Cycle

variable (c : Cycle) {prevNames : List String}

/-- The names that disappeared or became inactive, in the order of the loop over them. -/
def vanishedNames (prevNames : List String) : List String :=
  (c.nameOrder.visit prevNames).filter (· ∉ c.currentPeeringNames)

theorem mem_vanishedNames {name : String} :
    name ∈ c.vanishedNames prevNames ↔ name ∈ prevNames ∧ name ∉ c.currentPeeringNames := by
  rw [vanishedNames, List.mem_filter, (c.nameOrder.perm prevNames).mem_iff, decide_eq_true_iff]

theorem vanishedNames_nodup (h : prevNames.Nodup) : (c.vanishedNames prevNames).Nodup :=
  ((c.nameOrder.perm prevNames).nodup_iff.mpr h).filter _

/-- The assignments of a cycle: no keys for the names that are gone, and for every active
peering the keys it grants. -/
def assignments (prevNames : List String) : List (String × Set PeeringKey) :=
  ((c.vanishedNames prevNames).map fun name => (name, ∅)) ++ c.activeGrants

theorem mem_assignments {entry : String × Set PeeringKey} :
    entry ∈ c.assignments prevNames ↔
      (entry.1 ∈ prevNames ∧ entry.1 ∉ c.currentPeeringNames ∧ entry.2 = ∅) ∨
        ∃ p ∈ c.activePeerings, entry = (p.name, grantedKeys c.vpcs p) := by
  rw [assignments, List.mem_append, List.mem_map, Listing.activeGrants, List.mem_map]
  refine or_congr ?_ ?_
  · constructor
    · rintro ⟨name, hname, rfl⟩
      obtain ⟨hprev, hgone⟩ := c.mem_vanishedNames.mp hname
      exact ⟨hprev, hgone, rfl⟩
    · rintro ⟨hprev, hgone, hempty⟩
      refine ⟨entry.1, c.mem_vanishedNames.mpr ⟨hprev, hgone⟩, ?_⟩
      rw [← hempty]
  · exact exists_congr fun p => and_congr_right fun _ => eq_comm

/-- A name that is gone is none of the active ones. -/
theorem notMem_vanishedNames {p : VpcPeering} (hp : p ∈ c.activePeerings) :
    p.name ∉ c.vanishedNames prevNames := by
  intro hname
  exact (c.mem_vanishedNames.mp hname).2 (c.mem_currentPeeringNames.mpr ⟨p, hp, rfl⟩)

/-- Keys are assigned to each name at most once. -/
theorem assignments_nodup (h : prevNames.Nodup) :
    ((c.assignments prevNames).map Prod.fst).Nodup := by
  have hfst : ((c.vanishedNames prevNames).map fun name => (name, (∅ : Set PeeringKey))).map
      Prod.fst = c.vanishedNames prevNames := by
    rw [List.map_map]
    exact List.map_id _
  rw [assignments, List.map_append, hfst]
  refine List.nodup_append.mpr ⟨c.vanishedNames_nodup h, c.activeGrants_nodup, ?_⟩
  rintro name hname name' hname' rfl
  rw [Listing.activeGrants, List.map_map] at hname'
  obtain ⟨p, hp, rfl⟩ := List.mem_map.mp hname'
  exact c.notMem_vanishedNames hp hname

end Cycle

/-! ## The process -/

/-- The state of a running daemon. -/
structure Daemon where
  allocator : GhostAllocator
  enforcer : EbpfEnforcer
  prevVpcIds : List UInt16
  prevPeeringNames : List String

/-- The enforcer at work inside the daemon. -/
def enforce (f : Proc EbpfEnforcer Pinned MapWrite) : Proc Daemon Disk Write := fun d disk =>
  let result := f d.enforcer disk.pinned
  ({ d with enforcer := result.1 }, result.2.map .pin)

/-- `main`, up to the sync loop; nothing of an earlier process is left. -/
def boot : Proc Daemon Disk Write := fun _ disk =>
  let cachedVpcs := disk.store.loadVpcs
  let cachedPeerings := disk.store.loadPeerings
  let storedAllocations := disk.store.loadAllAllocations
  let daemonMeta := disk.store.loadMeta
  let platformPrefix := (daemonMeta.map VpcDaemonMeta.platformPrefix).getD PLATFORM_PREFIX
  let clusterId := (daemonMeta.bind VpcDaemonMeta.clusterId).getD 0
  let allocator := (GhostAllocator.new platformPrefix clusterId).rebuildPools cachedVpcs
    storedAllocations
  let rebuilt := EbpfEnforcer.rebuild cachedVpcs cachedPeerings (.init disk.pinned) disk.pinned
  ({ allocator, enforcer := rebuilt.1, prevVpcIds := [], prevPeeringNames := [] },
    rebuilt.2.map .pin)

/-- The VPCs of the last cycle that are not listed any more. -/
def removeVanishedVpcs (c : Cycle) : Proc Daemon Disk Write := fun d =>
  let vanished := (c.idOrder.visit d.prevVpcIds).filter (· ∉ c.currentVpcIds)
  enforce (block Pinned.write (vanished.map fun vpcId =>
    EbpfEnforcer.method fun e => e.removeVpc vpcId)) d

/-- The peerings of the last cycle that disappeared or became inactive. -/
def removeVanishedPeerings (c : Cycle) : Proc Daemon Disk Write := fun d =>
  enforce (block Pinned.write ((c.vanishedNames d.prevPeeringNames).map fun name =>
    EbpfEnforcer.method fun e => e.removePeeringRules name)) d

/-- Fresh rules for the active peerings, the old ones removed first. -/
def installActivePeerings (c : Cycle) : Proc Daemon Disk Write :=
  enforce (block Pinned.write (c.activePeerings.map fun peering =>
    block Pinned.write [
      EbpfEnforcer.method fun e => e.removePeeringRules peering.name,
      EbpfEnforcer.method fun e => e.installPeeringRules peering c.vpcs]))

/-- The daemon's metadata; a cluster id stays. -/
def updateMeta : Proc Daemon Disk Write := fun d disk =>
  (d, [.saveMeta
    { clusterId := disk.store.loadMeta.bind VpcDaemonMeta.clusterId
      platformPrefix := PLATFORM_PREFIX }])

/-- One pass of the sync loop. -/
def syncCycle (c : Cycle) : Proc Daemon Disk Write :=
  block Disk.write [
    emit [.saveVpcs c.vpcs],
    emit [.savePeerings c.peerings],
    modify fun d => { d with allocator := d.allocator.syncVpcs c.vpcs },
    enforce (EbpfEnforcer.ensureVpcs c.vpcs),
    removeVanishedVpcs c,
    modify fun d => { d with prevVpcIds := c.currentVpcIds },
    removeVanishedPeerings c,
    installActivePeerings c,
    modify fun d => { d with prevPeeringNames := c.currentPeeringNames },
    updateMeta]

/-- All that one process does. -/
def lifetime (cycles : List Cycle) : Proc Daemon Disk Write :=
  block Disk.write (boot :: cycles.map syncCycle)

/-- No process: what `boot` does not look at. -/
def Daemon.down : Daemon :=
  ⟨.new PLATFORM_PREFIX 0, ⟨fun _ => false, fun _ => none⟩, [], []⟩

/-! ## The rules for peerings -/

/-- The enforcer and its maps. -/
def rules (s : Daemon × Disk) : EbpfEnforcer × Pinned := (s.1.enforcer, s.2.pinned)

section Rules

variable {s : Daemon × Disk}

theorem commit_pin (disk : Disk) (writes : List MapWrite) :
    commit Disk.write disk (writes.map .pin) =
      { disk with pinned := commit Pinned.write disk.pinned writes } := by
  induction writes generalizing disk with
  | nil => rfl
  | cons write rest ih => exact ih (disk.write (.pin write))

/-- The daemon's enforcer works as the enforcer does. -/
theorem rules_enforce (f : Proc EbpfEnforcer Pinned MapWrite) :
    rules (exec Disk.write (enforce f) s) = exec Pinned.write f (rules s) := by
  simp only [rules, exec, enforce, commit_pin]

theorem registry_removeVanishedVpcs (c : Cycle) :
    registry (rules (exec Disk.write (removeVanishedVpcs c) s)) = registry (rules s) := by
  refine (congrArg registry (rules_enforce _)).trans ?_
  exact view_exec_block_of_keeps registry _ (fun vpcId _ => registry_removeVpc vpcId) _ _

theorem registry_removeVanishedPeerings (c : Cycle) :
    registry (rules (exec Disk.write (removeVanishedPeerings c) s)) =
      (registry (rules s)).assignAll
        ((c.vanishedNames s.1.prevPeeringNames).map fun name => (name, ∅)) := by
  refine (congrArg registry (rules_enforce _)).trans ?_
  refine (view_exec_block registry (fun r name => r.assign (name, ∅)) _
    (fun name _ => registry_removePeeringRules name) _ _).trans ?_
  rw [Grants.Registry.assignAll, List.foldl_map]

theorem registry_installActivePeerings (c : Cycle) :
    registry (rules (exec Disk.write (installActivePeerings c) s)) =
      (registry (rules s)).assignAll c.activeGrants := by
  refine (congrArg registry (rules_enforce _)).trans ?_
  refine (view_exec_block registry
    (fun r (p : VpcPeering) => r.assign (p.name, grantedKeys c.vpcs p)) _
    (fun p s => ?_) _ _).trans ?_
  · have hremove : registry (exec Pinned.write
          (EbpfEnforcer.method fun e => e.removePeeringRules p.name) s) =
        (registry s).assign (p.name, ∅) := registry_removePeeringRules p.name
    rw [exec_block, List.foldl_cons, List.foldl_cons, List.foldl_nil,
      registry_installPeeringRules p c.vpcs, hremove, Grants.Registry.assign_assign_empty]
    rw [hremove]
    exact Grants.Registry.recorded_assign_self (p.name, ∅)
  · rw [Grants.Registry.assignAll, Listing.activeGrants, List.foldl_map]

/-- **A sync cycle as assignments.** -/
theorem registry_syncCycle (c : Cycle) :
    registry (rules (exec Disk.write (syncCycle c) s)) =
      (registry (rules s)).assignAll (c.assignments s.1.prevPeeringNames) := by
  -- the steps that do not call the enforcer
  have hmeta : ∀ s, rules (exec Disk.write updateMeta s) = rules s := fun _ => rfl
  have hnames : ∀ s, rules (exec Disk.write
      (modify fun d => { d with prevPeeringNames := c.currentPeeringNames }) s) = rules s :=
    fun _ => rfl
  have hids : ∀ s, rules (exec Disk.write
      (modify fun d => { d with prevVpcIds := c.currentVpcIds }) s) = rules s := fun _ => rfl
  have hsaved : ∀ s, rules (exec Disk.write
      (modify fun d => { d with allocator := d.allocator.syncVpcs c.vpcs })
      (exec Disk.write (emit [.savePeerings c.peerings])
        (exec Disk.write (emit [.saveVpcs c.vpcs]) s))) = rules s := fun _ => rfl
  rw [syncCycle, exec_block]
  simp only [List.foldl_cons, List.foldl_nil]
  rw [hmeta, hnames, registry_installActivePeerings, registry_removeVanishedPeerings, hids,
    registry_removeVanishedVpcs, rules_enforce, registry_ensureVpcs, hsaved, Cycle.assignments,
    Grants.Registry.assignAll_append]
  rfl

/-- **The start of a process as assignments.**  Nothing is recorded, the map is as it was
left, and every stored peering is assigned the keys it grants. -/
theorem registry_boot :
    registry (rules (exec Disk.write boot s)) =
      (registry (.init s.2.pinned, s.2.pinned)).assignAll
        (s.2.store.loadPeerings.map fun p => (p.name, grantedKeys s.2.store.loadVpcs p)) := by
  have hrules : rules (exec Disk.write boot s) = exec Pinned.write
      (EbpfEnforcer.rebuild s.2.store.loadVpcs s.2.store.loadPeerings)
      (.init s.2.pinned, s.2.pinned) := by
    simp only [rules, exec, boot, commit_pin]
  rw [hrules, registry_rebuild _ s.2.store.loadPeerings_names_nodup]
  exact fun name => recorded_eq_empty rfl

/-- The names assigned at the start are different. -/
private theorem stored_names_nodup (store : VpcStore) (keys : VpcPeering → Set PeeringKey) :
    ((store.loadPeerings.map fun p => (p.name, keys p)).map Prod.fst).Nodup := by
  rw [List.map_map]
  exact store.loadPeerings_names_nodup

theorem mem_recorded_boot {name : String} {key : PeeringKey} :
    key ∈ (registry (rules (exec Disk.write boot s))).recorded name ↔
      ∃ p ∈ s.2.store.loadPeerings, p.name = name ∧ key ∈ grantedKeys s.2.store.loadVpcs p := by
  have hself : ∀ p ∈ s.2.store.loadPeerings,
      (registry (rules (exec Disk.write boot s))).recorded p.name =
        grantedKeys s.2.store.loadVpcs p := by
    intro p hp
    rw [registry_boot]
    exact Grants.Registry.recorded_assignAll_of_mem (stored_names_nodup s.2.store _)
      (List.mem_map_of_mem (f := fun p => (p.name, grantedKeys s.2.store.loadVpcs p)) hp)
  constructor
  · intro hkey
    by_cases hname : name ∈ s.2.store.loadPeerings.map VpcPeering.name
    · obtain ⟨p, hp, rfl⟩ := List.mem_map.mp hname
      rw [hself p hp] at hkey
      exact ⟨p, hp, rfl, hkey⟩
    · rw [registry_boot, Grants.Registry.recorded_assignAll_of_notMem (by rwa [List.map_map]),
        recorded_eq_empty rfl] at hkey
      cases hkey
  · rintro ⟨p, hp, rfl, hkey⟩
    rw [hself p hp]
    exact hkey

theorem mem_present_boot {key : PeeringKey} :
    key ∈ (registry (rules (exec Disk.write boot s))).present ↔
      (s.2.pinned.maps.peerings key).isSome ∨
        ∃ p ∈ s.2.store.loadPeerings, key ∈ grantedKeys s.2.store.loadVpcs p := by
  have hnone : ∀ name, (registry (.init s.2.pinned, s.2.pinned)).recorded name = ∅ :=
    fun _ => recorded_eq_empty rfl
  rw [registry_boot]
  by_cases hgrant : ∃ p ∈ s.2.store.loadPeerings, key ∈ grantedKeys s.2.store.loadVpcs p
  · refine iff_of_true ?_ (Or.inr hgrant)
    obtain ⟨p, hp, hkey⟩ := hgrant
    refine Grants.Registry.mem_present_assignAll_of_kept (stored_names_nodup s.2.store _)
      ⟨_, List.mem_map_of_mem hp, hkey⟩ fun entry _ hold => ?_
    rw [hnone] at hold
    cases hold
  · rw [or_iff_left hgrant, Grants.Registry.mem_present_assignAll_of_not_granted
      (stored_names_nodup s.2.store _)]
    · refine and_iff_left fun entry _ hold => ?_
      rw [hnone] at hold
      cases hold
    · rintro entry hentry hkey
      obtain ⟨p, hp, rfl⟩ := List.mem_map.mp hentry
      exact hgrant ⟨p, hp, hkey⟩

/-- After a cycle, its peering names are the previous ones. -/
theorem prevPeeringNames_syncCycle (c : Cycle) :
    (exec Disk.write (syncCycle c) s).1.prevPeeringNames = c.currentPeeringNames := by
  rw [syncCycle, exec_block]
  rfl

end Rules

end K3rs
