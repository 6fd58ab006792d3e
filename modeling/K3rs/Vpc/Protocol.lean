import K3rs.Lib.JsonRecords
import K3rs.Agent.Backends
import K3rs.Vpc.Socket

/-!
# The protocol of the daemon's socket

Agent and daemon declare the messages separately: the agent's requests are written and never read
there, its responses are read and never written, and a VPC has a status in the daemon's list only.
A message is a JSON object whose field `type` names the variant.

* `ofJson_toJson` (requests): the daemon reads every request as the agent meant it.
* `ofJson_toJson` (responses): the agent reads what the daemon answers, less the status of a VPC;
  it does not know the answer to `Query`, which it never asks.
-/

namespace K3rs

open Json Net

/-! ## The daemon's messages -/

/-- `VpcRequest`: what `dispatch` does something for, and what it only looks up. -/
inductive Protocol.Request where
  | call (request : VpcRequest)
  | query (podId : String)
  | getRoutes (vpcId : UInt16)
  | listVpcs
  | getWgPublicKey
  deriving DecidableEq, Repr

/-- `VpcInfo`. -/
structure Protocol.VpcInfo where
  name : String
  vpcId : UInt16
  ipv4Cidr : String
  status : VpcStatus
  deriving DecidableEq, Repr

/-- `VpcResponse`. -/
inductive Protocol.Response where
  | answer (response : VpcResponse)
  | queryResult (guestIpv4 ghostIpv6 : String) (vpcId : UInt16) (vpcName : String)
  | routes (entries : List RouteEntry)
  | vpcList (vpcs : List VpcInfo)
  | wgPublicKey (publicKey : Option String) (listenPort : Option UInt16)
  deriving DecidableEq, Repr

/-! ## The agent's messages -/

namespace VpcClient

/-- `VpcRequest` of the agent. -/
inductive VpcRequest where
  | allocate (podId vpcName : String)
  | release (podId vpcName : String)
  | getRoutes (vpcId : UInt16)
  | checkReachability (srcVpc dstVpc : String)
  | attachNetkit (nkName guestIpv4 ghostIpv6 : String) (vpcId : UInt16) (vpcCidr : String)
      (containerPid : UInt32)
  | detachNetkit (nkName : String)
  | attachTap (tapName guestIpv4 ghostIpv6 : String) (vpcId : UInt16) (vpcCidr : String)
  | detachTap (tapName : String)
  | listVpcs
  | ping
  | getWgPublicKey
  deriving DecidableEq, Repr

/-- `VpcInfo` of the agent. -/
structure VpcInfo where
  name : String
  vpcId : UInt16
  ipv4Cidr : String
  deriving DecidableEq, Repr

/-- `VpcResponse` of the agent. -/
inductive VpcResponse where
  | allocated (guestIpv4 ghostIpv6 : String) (vpcId : UInt16) (vpcCidr : String)
  | released
  | routes (entries : List RouteEntry)
  | reachable (reachable : Bool)
  | vpcList (vpcs : List VpcInfo)
  | pong
  | wgPublicKey (publicKey : Option String) (listenPort : Option UInt16)
  | ok
  | error (code message : String)
  deriving DecidableEq, Repr

end VpcClient

/-! ## Writing -/

/-- A message of a variant, with its fields. -/
def tagged (variant : String) (fields : List (String × Json)) : Json :=
  .obj (("type", .str variant) :: fields)

/-- What the agent writes for a request. -/
def VpcClient.VpcRequest.toJson : VpcClient.VpcRequest → Json
  | .allocate podId vpcName =>
      tagged "Allocate" [("pod_id", .str podId), ("vpc_name", .str vpcName)]
  | .release podId vpcName =>
      tagged "Release" [("pod_id", .str podId), ("vpc_name", .str vpcName)]
  | .getRoutes vpcId => tagged "GetRoutes" [("vpc_id", .num vpcId.toNat)]
  | .checkReachability srcVpc dstVpc =>
      tagged "CheckReachability" [("src_vpc", .str srcVpc), ("dst_vpc", .str dstVpc)]
  | .attachNetkit nkName guestIpv4 ghostIpv6 vpcId vpcCidr containerPid =>
      tagged "AttachNetkit" [("nk_name", .str nkName), ("guest_ipv4", .str guestIpv4),
        ("ghost_ipv6", .str ghostIpv6), ("vpc_id", .num vpcId.toNat), ("vpc_cidr", .str vpcCidr),
        ("container_pid", .num containerPid.toNat)]
  | .detachNetkit nkName => tagged "DetachNetkit" [("nk_name", .str nkName)]
  | .attachTap tapName guestIpv4 ghostIpv6 vpcId vpcCidr =>
      tagged "AttachTap" [("tap_name", .str tapName), ("guest_ipv4", .str guestIpv4),
        ("ghost_ipv6", .str ghostIpv6), ("vpc_id", .num vpcId.toNat), ("vpc_cidr", .str vpcCidr)]
  | .detachTap tapName => tagged "DetachTap" [("tap_name", .str tapName)]
  | .listVpcs => tagged "ListVpcs" []
  | .ping => tagged "Ping" []
  | .getWgPublicKey => tagged "GetWgPublicKey" []

/-- The name of a status. -/
def VpcStatus.toText : VpcStatus → String
  | .active => "Active"
  | .terminating => "Terminating"
  | .deleted => "Deleted"

def RouteEntry.toJson (e : RouteEntry) : Json :=
  .obj [("destination", .str e.destination), ("next_hop", .str e.nextHop)]

def Protocol.VpcInfo.toJson (v : Protocol.VpcInfo) : Json :=
  .obj [("name", .str v.name), ("vpc_id", .num v.vpcId.toNat), ("ipv4_cidr", .str v.ipv4Cidr),
    ("status", .str v.status.toText)]

/-- What the daemon writes for a response. -/
def Protocol.Response.toJson : Protocol.Response → Json
  | .answer (.allocated guestIpv4 ghostIpv6 vpcId vpcCidr) =>
      tagged "Allocated" [("guest_ipv4", .str guestIpv4), ("ghost_ipv6", .str ghostIpv6),
        ("vpc_id", .num vpcId.toNat), ("vpc_cidr", .str vpcCidr)]
  | .answer .released => tagged "Released" []
  | .answer (.reachable reachable) => tagged "Reachable" [("reachable", .bool reachable)]
  | .answer .pong => tagged "Pong" []
  | .answer .ok => tagged "Ok" []
  | .answer (.error code message) =>
      tagged "Error" [("code", .str code), ("message", .str message)]
  | .queryResult guestIpv4 ghostIpv6 vpcId vpcName =>
      tagged "QueryResult" [("guest_ipv4", .str guestIpv4), ("ghost_ipv6", .str ghostIpv6),
        ("vpc_id", .num vpcId.toNat), ("vpc_name", .str vpcName)]
  | .routes entries => tagged "Routes" [("entries", .arr (entries.map RouteEntry.toJson))]
  | .vpcList vpcs => tagged "VpcList" [("vpcs", .arr (vpcs.map Protocol.VpcInfo.toJson))]
  | .wgPublicKey publicKey listenPort =>
      tagged "WgPublicKey" [("public_key", ofOption .str publicKey),
        ("listen_port", ofOption (fun n => .num n.toNat) listenPort)]

/-! ## Reading -/

/-- What the daemon reads of a request. -/
def Protocol.Request.ofJson (v : Json) : Option Protocol.Request := do
  let variant ← field "type" asStr v
  if variant = "Allocate" then
    return .call (.allocate (← field "pod_id" asStr v) (← field "vpc_name" asStr v))
  else if variant = "Release" then
    return .call (.release (← field "pod_id" asStr v) (← field "vpc_name" asStr v))
  else if variant = "Query" then return .query (← field "pod_id" asStr v)
  else if variant = "GetRoutes" then return .getRoutes (← field "vpc_id" asU16 v)
  else if variant = "CheckReachability" then
    return .call (.checkReachability (← field "src_vpc" asStr v) (← field "dst_vpc" asStr v))
  else if variant = "AttachNetkit" then
    return .call (.attachNetkit (← field "nk_name" asStr v) (← field "guest_ipv4" asStr v)
      (← field "ghost_ipv6" asStr v) (← field "vpc_id" asU16 v) (← field "vpc_cidr" asStr v)
      (← field "container_pid" asU32 v))
  else if variant = "DetachNetkit" then return .call (.detachNetkit (← field "nk_name" asStr v))
  else if variant = "AttachTap" then
    return .call (.attachTap (← field "tap_name" asStr v) (← field "guest_ipv4" asStr v)
      (← field "ghost_ipv6" asStr v) (← field "vpc_id" asU16 v) (← field "vpc_cidr" asStr v))
  else if variant = "DetachTap" then return .call (.detachTap (← field "tap_name" asStr v))
  else if variant = "ListVpcs" then return .listVpcs
  else if variant = "Ping" then return .call .ping
  else if variant = "GetWgPublicKey" then return .getWgPublicKey
  else none

def RouteEntry.ofJson (v : Json) : Option RouteEntry := do
  return ⟨← field "destination" asStr v, ← field "next_hop" asStr v⟩

namespace VpcClient

def VpcInfo.ofJson (v : Json) : Option VpcInfo := do
  return ⟨← field "name" asStr v, ← field "vpc_id" asU16 v, ← field "ipv4_cidr" asStr v⟩

/-- What the agent reads of a response. -/
def VpcResponse.ofJson (v : Json) : Option VpcResponse := do
  let variant ← field "type" asStr v
  if variant = "Allocated" then
    return .allocated (← field "guest_ipv4" asStr v) (← field "ghost_ipv6" asStr v)
      (← field "vpc_id" asU16 v) (← fieldOr "" "vpc_cidr" asStr v)
  else if variant = "Released" then return .released
  else if variant = "Routes" then return .routes (← field "entries" (asList RouteEntry.ofJson) v)
  else if variant = "Reachable" then return .reachable (← field "reachable" asBool v)
  else if variant = "VpcList" then return .vpcList (← field "vpcs" (asList VpcInfo.ofJson) v)
  else if variant = "Pong" then return .pong
  else if variant = "WgPublicKey" then
    return .wgPublicKey (← fieldOr none "public_key" (asOption asStr) v)
      (← fieldOr none "listen_port" (asOption asU16) v)
  else if variant = "Ok" then return .ok
  else if variant = "Error" then return .error (← field "code" asStr v) (← field "message" asStr v)
  else none

end VpcClient

/-! ## What is meant -/

/-- The request that the daemon is to handle. -/
def VpcClient.VpcRequest.meant : VpcClient.VpcRequest → Protocol.Request
  | .allocate podId vpcName => .call (.allocate podId vpcName)
  | .release podId vpcName => .call (.release podId vpcName)
  | .getRoutes vpcId => .getRoutes vpcId
  | .checkReachability srcVpc dstVpc => .call (.checkReachability srcVpc dstVpc)
  | .attachNetkit nkName guestIpv4 ghostIpv6 vpcId vpcCidr containerPid =>
      .call (.attachNetkit nkName guestIpv4 ghostIpv6 vpcId vpcCidr containerPid)
  | .detachNetkit nkName => .call (.detachNetkit nkName)
  | .attachTap tapName guestIpv4 ghostIpv6 vpcId vpcCidr =>
      .call (.attachTap tapName guestIpv4 ghostIpv6 vpcId vpcCidr)
  | .detachTap tapName => .call (.detachTap tapName)
  | .listVpcs => .listVpcs
  | .ping => .call .ping
  | .getWgPublicKey => .getWgPublicKey

/-- What the agent learns of a VPC. -/
def Protocol.VpcInfo.seen (v : Protocol.VpcInfo) : VpcClient.VpcInfo := ⟨v.name, v.vpcId, v.ipv4Cidr⟩

/-- What the agent learns from a response; nothing from an answer to `Query`. -/
def Protocol.Response.seen : Protocol.Response → Option VpcClient.VpcResponse
  | .answer (.allocated guestIpv4 ghostIpv6 vpcId vpcCidr) =>
      some (.allocated guestIpv4 ghostIpv6 vpcId vpcCidr)
  | .answer .released => some .released
  | .answer (.reachable reachable) => some (.reachable reachable)
  | .answer .pong => some .pong
  | .answer .ok => some .ok
  | .answer (.error code message) => some (.error code message)
  | .queryResult _ _ _ _ => none
  | .routes entries => some (.routes entries)
  | .vpcList vpcs => some (.vpcList (vpcs.map Protocol.VpcInfo.seen))
  | .wgPublicKey publicKey listenPort => some (.wgPublicKey publicKey listenPort)

/-! ## Both ends agree -/

/-- **The daemon reads every request as the agent meant it.** -/
theorem VpcClient.VpcRequest.ofJson_toJson (r : VpcClient.VpcRequest) :
    Protocol.Request.ofJson r.toJson = some r.meant := by
  unfold Protocol.Request.ofJson
  cases r <;> simp [toJson, meant, tagged]

theorem RouteEntry.ofJson_toJson (e : RouteEntry) : RouteEntry.ofJson e.toJson = some e := by
  simp [ofJson, toJson]

theorem Protocol.VpcInfo.ofJson_toJson (v : Protocol.VpcInfo) :
    VpcClient.VpcInfo.ofJson v.toJson = some v.seen := by
  simp [VpcClient.VpcInfo.ofJson, toJson, seen]

/-- **The agent reads what the daemon answers.** -/
theorem Protocol.Response.ofJson_toJson (r : Protocol.Response) :
    VpcClient.VpcResponse.ofJson r.toJson = r.seen := by
  have hroutes (entries : List RouteEntry) :
      asList RouteEntry.ofJson (.arr (entries.map RouteEntry.toJson)) = some entries := by
    rw [asList_map RouteEntry.ofJson_toJson, List.map_id']
  have hvpcs (vpcs : List Protocol.VpcInfo) :
      asList VpcClient.VpcInfo.ofJson (.arr (vpcs.map Protocol.VpcInfo.toJson)) =
        some (vpcs.map Protocol.VpcInfo.seen) := asList_map Protocol.VpcInfo.ofJson_toJson vpcs
  have hkey : ∀ key, asOption asStr (ofOption .str key) = some key :=
    asOption_ofOption asStr_str fun _ => Json.noConfusion
  have hport : ∀ port : Option UInt16,
      asOption asU16 (ofOption (fun n => .num n.toNat) port) = some port :=
    asOption_ofOption asU16_num fun _ => Json.noConfusion
  unfold VpcClient.VpcResponse.ofJson
  cases r with
  | answer r => cases r <;> simp [toJson, seen, tagged]
  | queryResult guestIpv4 ghostIpv6 vpcId vpcName => simp [toJson, seen, tagged]
  | routes entries => simp [toJson, seen, tagged, hroutes]
  | vpcList vpcs => simp [toJson, seen, tagged, hvpcs]
  | wgPublicKey publicKey listenPort => simp [toJson, seen, tagged, hkey, hport]

end K3rs
