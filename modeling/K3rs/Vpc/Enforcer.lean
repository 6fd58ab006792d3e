import K3rs.Vpc.Store
import K3rs.Ebpf.Context
import K3rs.Lib.Crash
import K3rs.Lib.Grants

/-!
# The eBPF enforcer

`EbpfEnforcer` turns VPCs and peerings into entries of the pinned maps `VPC_CIDRS` and
`PEERINGS`.  The maps outlive the process; what the enforcer knows about them, the ids of
the VPCs it has entered and the keys it has entered for each peering, does not.

A method returns the enforcer it leaves and its map operations, in order.  The operations
themselves do not fail here; what can fail is the parsing of a CIDR.

## Peering rules as a registry

Rules are removed by the name of a peering while the map is keyed by pairs of VPC ids, so
the enforcer and its map are a `Grants.Registry` (`registry`).  Removing the rules of a
peering assigns it no keys (`registry_removePeeringRules`), and installing them where none
are recorded assigns it the keys it grants (`registry_installPeeringRules`).
-/

namespace K3rs

open Net Ebpf Crash Grants

/-! ## The pinned maps -/

/-- Value of `VPC_CIDRS`. -/
structure VpcCidrValue where
  network : UInt32
  mask : UInt32
  deriving DecidableEq, Repr

/-- The maps pinned in bpffs. -/
structure Pinned where
  vpcCidrs : UInt16 → Option VpcCidrValue := fun _ => none
  maps : Maps := {}

/-- One operation on a pinned map. -/
inductive MapWrite where
  | putCidr (vpcId : UInt16) (value : VpcCidrValue)
  | deleteCidr (vpcId : UInt16)
  | putPeering (key : PeeringKey) (value : PeeringValue)
  | deletePeering (key : PeeringKey)

/-- The maps after an operation. -/
def Pinned.write (p : Pinned) : MapWrite → Pinned
  | .putCidr vpcId value => { p with vpcCidrs := Function.update p.vpcCidrs vpcId (some value) }
  | .deleteCidr vpcId => { p with vpcCidrs := Function.update p.vpcCidrs vpcId none }
  | .putPeering key value =>
      { p with
        maps := { p.maps with peerings := Function.update p.maps.peerings key (some value) } }
  | .deletePeering key =>
      { p with maps := { p.maps with peerings := Function.update p.maps.peerings key none } }

/-! ## The enforcer -/

/-- `EbpfEnforcer`: what it knows about the VPCs and peerings it has entered. -/
structure EbpfEnforcer where
  activeVpcs : UInt16 → Bool
  peeringToKeys : String → Option (List PeeringKey)

namespace EbpfEnforcer

/-- `parse_cidr` of the enforcer: network address and mask. -/
def parseCidr (cidr : String) : Except String (UInt32 × UInt32) :=
  match cidr.toList.dropWhile (· ≠ '/') with
  | [] => .error ("invalid CIDR: " ++ cidr)
  | _ :: prefixStr =>
      match parseIpv4 (cidr.toList.takeWhile (· ≠ '/')) with
      | none => .error "invalid CIDR network address"
      | some addr =>
          match parseUnsigned (2 ^ 32) prefixStr with
          | .error _ => .error "invalid CIDR prefix length"
          | .ok prefixLen =>
              if prefixLen > 32 then
                .error ("invalid CIDR prefix length: " ++ toString prefixLen)
              else
                let mask : UInt32 :=
                  if prefixLen = 0 then 0 else 0xffffffff <<< (32 - UInt32.ofNat prefixLen)
                .ok (addr.bits, mask)

/-- `init` on the pinned maps.  The VPC ids are read back from `VPC_CIDRS`; the entries of
`PEERINGS` are only counted, since the map does not name the peerings. -/
def init (pinned : Pinned) : EbpfEnforcer where
  activeVpcs vpcId := (pinned.vpcCidrs vpcId).isSome
  peeringToKeys _ := none

variable (e : EbpfEnforcer)

/-- `ensure_vpc`. -/
def ensureVpc (vpcId : UInt16) (cidr : String) : Except String (EbpfEnforcer × List MapWrite) :=
  if e.activeVpcs vpcId then .ok (e, [])
  else do
    let (network, mask) ← parseCidr cidr
    return ({ e with activeVpcs := Function.update e.activeVpcs vpcId true },
      [.putCidr vpcId ⟨network, mask⟩])

/-- `remove_vpc`. -/
def removeVpc (vpcId : UInt16) : EbpfEnforcer × List MapWrite :=
  if e.activeVpcs vpcId then
    ({ e with activeVpcs := Function.update e.activeVpcs vpcId false }, [.deleteCidr vpcId])
  else (e, [])

/-- The keys entered for a peering between two VPCs. -/
def peeringKeys (direction : PeeringDirection) (vpcA vpcB : Vpc) : List PeeringKey :=
  match direction with
  | .bidirectional => [⟨vpcA.vpcId, vpcB.vpcId⟩, ⟨vpcB.vpcId, vpcA.vpcId⟩]
  | .initiatorOnly => [⟨vpcA.vpcId, vpcB.vpcId⟩]

/-- `install_peering_rules`. -/
def installPeeringRules (peering : VpcPeering) (vpcs : List Vpc) : EbpfEnforcer × List MapWrite :=
  if peering.status ≠ .active then (e, [])
  else
    match vpcs.find? (fun v => v.name = peering.vpcA),
      vpcs.find? (fun v => v.name = peering.vpcB) with
    | some vpcA, some vpcB =>
        let keys := peeringKeys peering.direction vpcA vpcB
        ({ e with peeringToKeys := Function.update e.peeringToKeys peering.name (some keys) },
          keys.map fun key => .putPeering key ⟨1⟩)
    -- the peering references unknown VPCs: a warning
    | _, _ => (e, [])

/-- `remove_peering_rules`. -/
def removePeeringRules (peeringName : String) : EbpfEnforcer × List MapWrite :=
  match e.peeringToKeys peeringName with
  | some keys =>
      ({ e with peeringToKeys := Function.update e.peeringToKeys peeringName none },
        keys.map fun key => .deletePeering key)
  | none => (e, [])

/-- A method as a procedure over the pinned maps. -/
def method (f : EbpfEnforcer → EbpfEnforcer × List MapWrite) :
    Proc EbpfEnforcer Pinned MapWrite := fun e _ => f e

/-- A method whose failure is logged and otherwise ignored. -/
def logged (f : EbpfEnforcer → Except String (EbpfEnforcer × List MapWrite)) :
    EbpfEnforcer → EbpfEnforcer × List MapWrite :=
  fun e => match f e with
    | .ok result => result
    | .error _ => (e, [])

/-- The loop that enters the VPCs of a list. -/
def ensureVpcs (vpcs : List Vpc) : Proc EbpfEnforcer Pinned MapWrite :=
  block Pinned.write (vpcs.map fun vpc =>
    method (logged fun e => e.ensureVpc vpc.vpcId vpc.ipv4Cidr))

/-- `rebuild`, for VPCs and peerings. -/
def rebuild (vpcs : List Vpc) (peerings : List VpcPeering) : Proc EbpfEnforcer Pinned MapWrite :=
  block Pinned.write [
    ensureVpcs vpcs,
    block Pinned.write (peerings.map fun peering =>
      method fun e => e.installPeeringRules peering vpcs)]

end EbpfEnforcer

/-! ## Peering rules as a registry -/

/-- The keys a peering grants under a list of VPCs. -/
def grantedKeys (vpcs : List Vpc) (peering : VpcPeering) : Set PeeringKey :=
  {key | peering.status = .active ∧
    ∃ vpcA ∈ vpcs.find? (fun v => v.name = peering.vpcA),
      ∃ vpcB ∈ vpcs.find? (fun v => v.name = peering.vpcB),
        key ∈ EbpfEnforcer.peeringKeys peering.direction vpcA vpcB}

/-- The enforcer's records and the map, as a registry. -/
def registry (s : EbpfEnforcer × Pinned) : Grants.Registry String PeeringKey where
  recorded name := {key | ∃ keys ∈ s.1.peeringToKeys name, key ∈ keys}
  present := {key | (s.2.maps.peerings key).isSome}

section Registry

variable {s : EbpfEnforcer × Pinned}

theorem commit_deletePeering (keys : List PeeringKey) (p : Pinned) (key : PeeringKey) :
    ((commit Pinned.write p (keys.map .deletePeering)).maps.peerings key).isSome ↔
      (p.maps.peerings key).isSome ∧ key ∉ keys := by
  induction keys generalizing p with
  | nil => simp [commit]
  | cons first rest ih =>
      have hfirst : ((p.write (.deletePeering first)).maps.peerings key).isSome ↔
          (p.maps.peerings key).isSome ∧ key ≠ first := by
        by_cases h : key = first <;> simp [Pinned.write, h, Function.update_of_ne]
      refine (ih (p.write (.deletePeering first))).trans ?_
      rw [hfirst, List.mem_cons, not_or, and_assoc]

theorem commit_putPeering (keys : List PeeringKey) (value : PeeringValue) (p : Pinned)
    (key : PeeringKey) :
    ((commit Pinned.write p (keys.map fun key => .putPeering key value)).maps.peerings
        key).isSome ↔ (p.maps.peerings key).isSome ∨ key ∈ keys := by
  induction keys generalizing p with
  | nil => simp [commit]
  | cons first rest ih =>
      have hfirst : ((p.write (.putPeering first value)).maps.peerings key).isSome ↔
          (p.maps.peerings key).isSome ∨ key = first := by
        by_cases h : key = first <;> simp [Pinned.write, h, Function.update_of_ne]
      refine (ih (p.write (.putPeering first value))).trans ?_
      rw [hfirst, List.mem_cons, or_assoc]

theorem recorded_eq_empty {name : String} (h : s.1.peeringToKeys name = none) :
    (registry s).recorded name = ∅ := by
  simp [registry, h]

theorem recorded_eq_of_some {name : String} {keys : List PeeringKey}
    (h : s.1.peeringToKeys name = some keys) :
    (registry s).recorded name = {key | key ∈ keys} := by
  simp [registry, h]

/-- Replacing one record. -/
theorem recorded_update (keys : Option (List PeeringKey)) (name : String) (pinned : Pinned) :
    (registry ({ s.1 with peeringToKeys := Function.update s.1.peeringToKeys name keys },
        pinned)).recorded =
      Function.update (registry s).recorded name {key | ∃ ks ∈ keys, key ∈ ks} := by
  funext name'
  by_cases h : name' = name
  · subst h
    simp [registry]
  · simp [registry, Function.update_of_ne h]

/-- Removing the rules of a peering. -/
theorem registry_removePeeringRules (name : String) :
    registry (exec Pinned.write (EbpfEnforcer.method fun e => e.removePeeringRules name) s) =
      (registry s).assign (name, ∅) := by
  cases h : s.1.peeringToKeys name with
  | none =>
      rw [Grants.Registry.assign_empty (recorded_eq_empty h)]
      simp [exec, EbpfEnforcer.method, EbpfEnforcer.removePeeringRules, h, commit]
  | some keys =>
      have hexec : exec Pinned.write (EbpfEnforcer.method fun e => e.removePeeringRules name) s =
          ({ s.1 with peeringToKeys := Function.update s.1.peeringToKeys name none },
            commit Pinned.write s.2 (keys.map .deletePeering)) := by
        simp [exec, EbpfEnforcer.method, EbpfEnforcer.removePeeringRules, h]
      rw [hexec]
      refine Grants.Registry.ext ?_ ?_
      · rw [recorded_update]
        simp [Grants.Registry.assign]
      · ext key
        simp only [Grants.Registry.assign, Set.union_empty, Set.mem_sdiff, recorded_eq_of_some h]
        exact commit_deletePeering keys s.2 key

/-- What `install_peering_rules` can do: nothing, for a peering that grants nothing, or
enter and record the keys. -/
theorem installPeeringRules_cases (peering : VpcPeering) (vpcs : List Vpc) :
    (grantedKeys vpcs peering = ∅ ∧
        ∀ e : EbpfEnforcer, e.installPeeringRules peering vpcs = (e, [])) ∨
      ∃ keys, grantedKeys vpcs peering = {key | key ∈ keys} ∧
        ∀ e : EbpfEnforcer, e.installPeeringRules peering vpcs =
          ({ e with peeringToKeys := Function.update e.peeringToKeys peering.name (some keys) },
            keys.map fun key => .putPeering key ⟨1⟩) := by
  by_cases hactive : peering.status = .active
  · cases hA : vpcs.find? (fun v => v.name = peering.vpcA) with
    | none =>
        left
        simp [grantedKeys, EbpfEnforcer.installPeeringRules, hA]
    | some vpcA =>
        cases hB : vpcs.find? (fun v => v.name = peering.vpcB) with
        | none =>
            left
            simp [grantedKeys, EbpfEnforcer.installPeeringRules, hA, hB]
        | some vpcB =>
            right
            refine ⟨EbpfEnforcer.peeringKeys peering.direction vpcA vpcB, ?_, fun e => ?_⟩
            · simp [grantedKeys, hactive, hA, hB]
            · simp [EbpfEnforcer.installPeeringRules, hactive, hA, hB]
  · left
    simp [grantedKeys, EbpfEnforcer.installPeeringRules, hactive]

/-- Installing the rules of a peering for which none are recorded. -/
theorem registry_installPeeringRules (peering : VpcPeering) (vpcs : List Vpc)
    (hnone : (registry s).recorded peering.name = ∅) :
    registry (exec Pinned.write
        (EbpfEnforcer.method fun e => e.installPeeringRules peering vpcs) s) =
      (registry s).assign (peering.name, grantedKeys vpcs peering) := by
  rcases installPeeringRules_cases peering vpcs with ⟨hempty, hinstall⟩ | ⟨keys, hkeys, hinstall⟩
  · rw [hempty, Grants.Registry.assign_empty hnone]
    simp [exec, EbpfEnforcer.method, hinstall, commit]
  · have hexec : exec Pinned.write
          (EbpfEnforcer.method fun e => e.installPeeringRules peering vpcs) s =
        ({ s.1 with peeringToKeys := Function.update s.1.peeringToKeys peering.name (some keys) },
          commit Pinned.write s.2 (keys.map fun key => .putPeering key ⟨1⟩)) := by
      simp [exec, EbpfEnforcer.method, hinstall]
    rw [hexec, hkeys]
    refine Grants.Registry.ext ?_ ?_
    · rw [recorded_update]
      simp [Grants.Registry.assign]
    · ext key
      simp only [Grants.Registry.assign, hnone, Set.sdiff_empty, Set.mem_union]
      exact commit_putPeering keys ⟨1⟩ s.2 key

/-- Entering VPCs does not touch peerings. -/
theorem registry_ensureVpcs (vpcs : List Vpc) :
    registry (exec Pinned.write (EbpfEnforcer.ensureVpcs vpcs) s) = registry s := by
  refine view_exec_block_of_keeps registry _ (fun vpc s => ?_) vpcs s
  by_cases hactive : s.1.activeVpcs vpc.vpcId = true
  · simp [exec, EbpfEnforcer.method, EbpfEnforcer.logged, EbpfEnforcer.ensureVpc, hactive, commit]
  · cases hparse : EbpfEnforcer.parseCidr vpc.ipv4Cidr with
    | error msg =>
        simp [exec, EbpfEnforcer.method, EbpfEnforcer.logged, EbpfEnforcer.ensureVpc, hactive,
          hparse, commit, bind, Except.bind]
    | ok parsed =>
        simp [exec, EbpfEnforcer.method, EbpfEnforcer.logged, EbpfEnforcer.ensureVpc, hactive,
          hparse, commit, bind, Except.bind, pure, Except.pure, registry, Pinned.write]

/-- Neither does leaving one. -/
theorem registry_removeVpc (vpcId : UInt16) :
    registry (exec Pinned.write (EbpfEnforcer.method fun e => e.removeVpc vpcId) s) =
      registry s := by
  by_cases hactive : s.1.activeVpcs vpcId = true
  · simp [exec, EbpfEnforcer.method, EbpfEnforcer.removeVpc, hactive, commit, registry,
      Pinned.write]
  · simp [exec, EbpfEnforcer.method, EbpfEnforcer.removeVpc, hactive, commit]

/-- Installing peerings with different names, none of which has rules recorded. -/
theorem registry_installAll (vpcs : List Vpc) {peerings : List VpcPeering}
    (hnodup : (peerings.map VpcPeering.name).Nodup)
    (hnone : ∀ peering ∈ peerings, (registry s).recorded peering.name = ∅) :
    registry (exec Pinned.write (block Pinned.write (peerings.map fun peering =>
        EbpfEnforcer.method fun e => e.installPeeringRules peering vpcs)) s) =
      (registry s).assignAll (peerings.map fun p => (p.name, grantedKeys vpcs p)) := by
  rw [exec_block]
  induction peerings generalizing s with
  | nil => rfl
  | cons peering rest ih =>
      rw [List.map_cons, List.nodup_cons] at hnodup
      have hfirst := registry_installPeeringRules peering vpcs (hnone peering List.mem_cons_self)
      rw [List.map_cons, List.foldl_cons, List.map_cons, Grants.Registry.assignAll_cons, ← hfirst]
      refine ih hnodup.2 fun later hmem => ?_
      have hne : later.name ≠ peering.name := by
        intro heq
        exact hnodup.1 (heq ▸ List.mem_map_of_mem hmem)
      rw [hfirst, Grants.Registry.recorded_assign_of_ne hne]
      exact hnone later (List.mem_cons_of_mem _ hmem)

/-- **`rebuild` on an enforcer without records.**  With different names, every peering is
assigned the keys it grants. -/
theorem registry_rebuild (vpcs : List Vpc) {peerings : List VpcPeering}
    (hnodup : (peerings.map VpcPeering.name).Nodup)
    (hnone : ∀ name, (registry s).recorded name = ∅) :
    registry (exec Pinned.write (EbpfEnforcer.rebuild vpcs peerings) s) =
      (registry s).assignAll (peerings.map fun p => (p.name, grantedKeys vpcs p)) := by
  have hvpcs : registry (exec Pinned.write (EbpfEnforcer.ensureVpcs vpcs) s) = registry s :=
    registry_ensureVpcs vpcs
  rw [EbpfEnforcer.rebuild, exec_block, List.foldl_cons, List.foldl_cons, List.foldl_nil,
    registry_installAll vpcs hnodup fun peering _ => by rw [hvpcs, hnone], hvpcs]

end Registry

end K3rs
