import K3rs.Vpc.GhostIpv6
import K3rs.Lib.Tables

/-!
# VPC definitions and the daemon's store

The records a daemon gets from the server, and `VpcStore`, the embedded database in which
it keeps them together with its own allocations.

Each kind of record lives under its own key range, written as `<range><name>`, and a scan
of a range returns its records in key order.  So the store is three `Table`s; a record
written under an existing key replaces the old one, and `save_vpcs` and `save_peerings`
write their records in one batch and delete nothing.
-/

namespace K3rs

open Net Tables

/-! ## Records -/

/-- `VpcStatus`. -/
inductive VpcStatus where
  | active
  | terminating
  | deleted
  deriving DecidableEq, Repr

/-- `Vpc`. -/
structure Vpc where
  name : String
  vpcId : UInt16
  ipv4Cidr : String
  status : VpcStatus
  deriving DecidableEq, Repr

/-- `PeeringDirection`. -/
inductive PeeringDirection where
  | bidirectional
  | initiatorOnly
  deriving DecidableEq, Repr

/-- `PeeringStatus`. -/
inductive PeeringStatus where
  | active
  | inactive
  deriving DecidableEq, Repr

/-- `VpcPeering`. -/
structure VpcPeering where
  name : String
  vpcA : String
  vpcB : String
  direction : PeeringDirection
  status : PeeringStatus
  deriving DecidableEq, Repr

/-- An active peering lets its first VPC reach the second, and the other way round when it is
bidirectional. -/
def VpcPeering.Connects (p : VpcPeering) (a b : String) : Prop :=
  p.status = .active ∧
    (p.vpcA = a ∧ p.vpcB = b ∨ p.direction = .bidirectional ∧ p.vpcA = b ∧ p.vpcB = a)

/-- `StoredAllocation`; addresses are stored as text. -/
structure StoredAllocation where
  podId : String
  vpcName : String
  guestIpv4 : String
  ghostIpv6 : String
  vpcId : UInt16
  interfaceType : String
  deriving DecidableEq, Repr

/-- `VpcDaemonMeta`. -/
structure VpcDaemonMeta where
  clusterId : Option UInt32
  platformPrefix : UInt32
  deriving DecidableEq, Repr

/-- The key of an allocation, without its range. -/
def StoredAllocation.key (a : StoredAllocation) : String := a.vpcName ++ "/" ++ a.podId

/-! ## The store -/

/-- `VpcStore`. -/
structure VpcStore where
  definitions : Table Vpc.name := ∅
  peerings : Table VpcPeering.name := ∅
  allocations : Table StoredAllocation.key := ∅
  daemonMeta : Option VpcDaemonMeta := none

namespace VpcStore

variable (s : VpcStore)

/-- `save_vpcs`. -/
def saveVpcs (vpcs : List Vpc) : VpcStore :=
  { s with definitions := s.definitions.putAll vpcs }

/-- `load_vpcs`. -/
def loadVpcs : List Vpc := s.definitions.rows

/-- `save_peerings`. -/
def savePeerings (peerings : List VpcPeering) : VpcStore :=
  { s with peerings := s.peerings.putAll peerings }

/-- `load_peerings`. -/
def loadPeerings : List VpcPeering := s.peerings.rows

/-- `save_allocation`. -/
def saveAllocation (alloc : StoredAllocation) : VpcStore :=
  { s with allocations := s.allocations.put alloc }

/-- `delete_allocation`. -/
def deleteAllocation (vpcName podId : String) : VpcStore :=
  { s with allocations := s.allocations.delete (vpcName ++ "/" ++ podId) }

/-- `load_all_allocations`. -/
def loadAllAllocations : List StoredAllocation := s.allocations.rows

/-- `save_meta`. -/
def saveMeta (value : VpcDaemonMeta) : VpcStore := { s with daemonMeta := some value }

/-- `load_meta`. -/
def loadMeta : Option VpcDaemonMeta := s.daemonMeta

/-- No two stored peerings have the same name. -/
theorem loadPeerings_names_nodup : (s.loadPeerings.map VpcPeering.name).Nodup :=
  s.peerings.unique

end VpcStore

end K3rs
