import K3rs.Vpc.Allocator
import K3rs.Vpc.Enforcer

/-!
# Requests to the daemon

The agent talks to the daemon over a socket: it allocates and releases addresses, asks for
the rules of a pod's interface to be installed or removed, and asks whether one VPC can
reach another.  `dispatch` handles one request.

`Interfaces` is the part of the eBPF enforcer that knows the interfaces.  It dies with the
process, as the pools do; the store and the pinned map `ENDPOINTS` do not.  What the kernel
and the store answer is part of the input (`Answers`): a failure in any of the steps that
load and attach programs ends the request before the enforcer remembers anything.
-/

namespace K3rs

open Net Ebpf

/-! ## Rules of interfaces -/

/-- Entry of `nk_info`. -/
structure NkInfo where
  guestIpv4 : UInt32
  vpcId : UInt16
  vpcNetwork : UInt32
  vpcMask : UInt32
  ghostIpv6 : Ipv6Addr

/-- The pinned map `ENDPOINTS`. -/
abbrev Endpoints := EndpointKey → Option EndpointValue

/-- What `EbpfEnforcer` knows about interfaces.  An instance of the programs is its globals. -/
structure Interfaces where
  platformPrefix : UInt32
  clusterId : UInt32
  podBpf : String → Option Globals
  nkInfo : String → Option NkInfo
  tapBpf : String → Option Globals
  tapToIp : String → Option (UInt32 × UInt16)

namespace Interfaces

/-- `EbpfEnforcer::new`. -/
def new (platformPrefix clusterId : UInt32) : Interfaces where
  platformPrefix
  clusterId
  podBpf _ := none
  nkInfo _ := none
  tapBpf _ := none
  tapToIp _ := none

/-- The value, or the error of a failed `context`. -/
def context {α : Type} (message : String) : Option α → Except String α
  | some a => .ok a
  | none => .error message

variable (i : Interfaces)

/-- The globals of an instance for an interface of a kind, read from the request. -/
def globals (kind guestIpv4 ghostIpv6 : String) (vpcId : UInt16) (vpcCidr : String) :
    Except String Globals := do
  let addr ← context ("invalid " ++ kind ++ " IPv4") (parseIpv4 guestIpv4.toList)
  let ipv6Addr ← context ("invalid " ++ kind ++ " Ghost IPv6") (parseIpv6 ghostIpv6.toList)
  let (vpcNetwork, vpcMask) ← EbpfEnforcer.parseCidr vpcCidr
  return {
    myGhostIpv6 := ipv6Addr
    myGuestIpv4 := addr.bits
    myVpcId := vpcId
    myVpcNetwork := vpcNetwork
    myVpcMask := vpcMask
    myPlatformPrefix := i.platformPrefix
    myClusterId := i.clusterId }

/-- `install_tap_rules`; `kernel` is the answer to loading the programs and attaching the
guard and the two classifiers. -/
def installTapRules (kernel : Except String Unit) (tapName guestIpv4 ghostIpv6 : String)
    (vpcId : UInt16) (vpcCidr : String) : Except String Interfaces := do
  let tapEbpf ← i.globals "tap" guestIpv4 ghostIpv6 vpcId vpcCidr
  kernel
  return { i with
    tapBpf := Function.update i.tapBpf tapName (some tapEbpf)
    tapToIp := Function.update i.tapToIp tapName (some (tapEbpf.myGuestIpv4, vpcId)) }

/-- `remove_tap_rules`. -/
def removeTapRules (tapName : String) : Interfaces :=
  match i.tapToIp tapName with
  | some _ =>
      { i with
        tapBpf := Function.update i.tapBpf tapName none
        tapToIp := Function.update i.tapToIp tapName none }
  | none => i

/-- `install_netkit_rules`; `kernel` is the answer to attaching the programs, with the index
of the interface.  The entry of `ENDPOINTS` comes last. -/
def installNetkitRules (endpoints : Endpoints) (kernel : Except String UInt32)
    (nkName guestIpv4 ghostIpv6 : String) (vpcId : UInt16) (vpcCidr : String) :
    Except String (Interfaces × Endpoints) := do
  let podEbpf ← i.globals "netkit" guestIpv4 ghostIpv6 vpcId vpcCidr
  let nkIfindex ← kernel
  return (
    { i with
      podBpf := Function.update i.podBpf nkName (some podEbpf)
      nkInfo := Function.update i.nkInfo nkName (some
        { guestIpv4 := podEbpf.myGuestIpv4
          vpcId
          vpcNetwork := podEbpf.myVpcNetwork
          vpcMask := podEbpf.myVpcMask
          ghostIpv6 := podEbpf.myGhostIpv6 }) },
    Function.update endpoints ⟨podEbpf.myGhostIpv6⟩ (some ⟨nkIfindex⟩))

/-- `remove_netkit_rules`. -/
def removeNetkitRules (endpoints : Endpoints) (nkName : String) : Interfaces × Endpoints :=
  match i.nkInfo nkName with
  | some info =>
      ({ i with
          podBpf := Function.update i.podBpf nkName none
          nkInfo := Function.update i.nkInfo nkName none },
        Function.update endpoints ⟨info.ghostIpv6⟩ none)
  | none => (i, endpoints)

end Interfaces

/-- `&s[..n]`; nothing when the `n`-th byte is not a character boundary, where the slice
panics. -/
def sliceTo : ℕ → List Char → Option (List Char)
  | 0, _ => some []
  | _ + 1, [] => none
  | n + 1, c :: cs => if c.utf8Size ≤ n + 1 then (sliceTo (n + 1 - c.utf8Size) cs).map (c :: ·) else none

/-- The loop of `rebuild` over the stored allocations; nothing when it panics.  A failed
installation is logged. -/
def Interfaces.rebuild (vpcs : List Vpc) (kernel : String → Except String Unit) (i : Interfaces)
    (allocations : List StoredAllocation) : Option Interfaces :=
  allocations.foldlM (fun i alloc =>
    if alloc.interfaceType = "tap" then do
      let vpcCidr := ((vpcs.find? fun v => v.vpcId = alloc.vpcId).map Vpc.ipv4Cidr).getD "0.0.0.0/0"
      let shortId ← sliceTo (min 8 alloc.podId.utf8ByteSize) alloc.podId.toList
      let tapName := "tap-" ++ String.ofList shortId
      match i.installTapRules (kernel tapName) tapName alloc.guestIpv4 alloc.ghostIpv6 alloc.vpcId
          vpcCidr with
      | .ok i => some i
      | .error _ => some i
    else some i) i

/-! ## Reachability -/

/-- The test of `CheckReachability` on one stored peering. -/
def VpcPeering.reaches (p : VpcPeering) (srcVpc dstVpc : String) : Bool :=
  if p.status ≠ .active then false
  else
    match p.direction with
    | .bidirectional =>
        (p.vpcA == srcVpc && p.vpcB == dstVpc) || (p.vpcA == dstVpc && p.vpcB == srcVpc)
    | .initiatorOnly => p.vpcA == srcVpc && p.vpcB == dstVpc

theorem VpcPeering.reaches_iff {p : VpcPeering} {srcVpc dstVpc : String} :
    p.reaches srcVpc dstVpc = true ↔ p.Connects srcVpc dstVpc := by
  unfold reaches Connects
  by_cases hactive : p.status = .active
  · cases hdir : p.direction with
    | bidirectional => simp [hactive]
    | initiatorOnly => simp [hactive]
  · simp [hactive]

/-! ## The protocol -/

/-- `VpcRequest`, for the requests that are handled here. -/
inductive Protocol.VpcRequest where
  | allocate (podId vpcName : String)
  | release (podId vpcName : String)
  | checkReachability (srcVpc dstVpc : String)
  | attachNetkit (nkName guestIpv4 ghostIpv6 : String) (vpcId : UInt16) (vpcCidr : String)
      (containerPid : UInt32)
  | detachNetkit (nkName : String)
  | attachTap (tapName guestIpv4 ghostIpv6 : String) (vpcId : UInt16) (vpcCidr : String)
  | detachTap (tapName : String)
  | ping
  deriving DecidableEq, Repr

/-- `VpcResponse`, for these requests. -/
inductive Protocol.VpcResponse where
  | allocated (guestIpv4 ghostIpv6 : String) (vpcId : UInt16) (vpcCidr : String)
  | released
  | reachable (reachable : Bool)
  | pong
  | ok
  | error (code message : String)
  deriving DecidableEq, Repr

/-- What the store and the kernel answer during a request. -/
structure Answers where
  io : Except String Unit := .ok ()
  kernel : Except String UInt32 := .ok 0
  deriving DecidableEq, Repr

/-- A daemon, with the store and the map it works on. -/
structure VpcDaemon where
  allocator : GhostAllocator
  store : VpcStore
  interfaces : Interfaces
  endpoints : Endpoints

namespace VpcDaemon

variable (d : VpcDaemon)

/-- `dispatch`. -/
def dispatch (answers : Answers) : Protocol.VpcRequest → Protocol.VpcResponse × VpcDaemon
  | .ping => (.pong, d)
  | .allocate podId vpcName =>
      match d.allocator.allocate d.store answers.io podId vpcName with
      | (.ok r, allocator, store) =>
          (.allocated (ipv4ToString r.guestIpv4) (ipv6ToString r.ghostIpv6) r.vpcId r.vpcCidr,
            { d with allocator, store })
      | (.error e, allocator, store) => (.error "allocate_error" e, { d with allocator, store })
  | .release podId vpcName =>
      match d.allocator.release d.store answers.io podId vpcName with
      | (.ok (), allocator, store) => (.released, { d with allocator, store })
      | (.error e, allocator, store) => (.error "release_error" e, { d with allocator, store })
  | .checkReachability srcVpc dstVpc =>
      if srcVpc = dstVpc then (.reachable true, d)
      else
        match answers.io with
        | .ok () => (.reachable (d.store.loadPeerings.any (·.reaches srcVpc dstVpc)), d)
        | .error e => (.error "store_error" ("Failed to load peerings: " ++ e), d)
  | .attachNetkit nkName guestIpv4 ghostIpv6 vpcId vpcCidr _ =>
      match d.interfaces.installNetkitRules d.endpoints answers.kernel nkName guestIpv4 ghostIpv6
          vpcId vpcCidr with
      | .ok (interfaces, endpoints) => (.ok, { d with interfaces, endpoints })
      | .error e =>
          (.error "attach_netkit_error" ("Failed to attach TC to netkit " ++ nkName ++ ": " ++ e), d)
  | .detachNetkit nkName =>
      let removed := d.interfaces.removeNetkitRules d.endpoints nkName
      (.ok, { d with interfaces := removed.1, endpoints := removed.2 })
  | .attachTap tapName guestIpv4 ghostIpv6 vpcId vpcCidr =>
      match d.interfaces.installTapRules (answers.kernel.map fun _ => ()) tapName guestIpv4 ghostIpv6
          vpcId vpcCidr with
      | .ok interfaces => (.ok, { d with interfaces })
      | .error e =>
          (.error "attach_tap_error" ("Failed to attach TC to TAP " ++ tapName ++ ": " ++ e), d)
  | .detachTap tapName => (.ok, { d with interfaces := d.interfaces.removeTapRules tapName })

/-- A new process on what the old one left.  Pools and rules are rebuilt from the store; a
panic on the way leaves no rules. -/
def restart (kernel : String → Except String Unit) : VpcDaemon :=
  let fresh := Interfaces.new d.interfaces.platformPrefix d.interfaces.clusterId
  { d with
    allocator := (GhostAllocator.new d.allocator.platformPrefix d.allocator.clusterId).rebuildPools
      d.store.loadVpcs d.store.loadAllAllocations
    interfaces :=
      (fresh.rebuild d.store.loadVpcs kernel d.store.loadAllAllocations).getD fresh }

end VpcDaemon

end K3rs
