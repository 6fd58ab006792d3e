import K3rs.Cluster.DaemonSets
import K3rs.Cluster.Nodes

/-!
# Requests about pods

The handlers that create, remove and update pods, those that create and delete VPCs, the agents'
reports, and the eviction controller.

`update_pod_status` and `update_pod_vpc` read a pod and put it back whole, with the reported
fields.  An agent reports on a pod that it fetched earlier for its node; between its fetch and
the request, and between the read and the write of the request, anything may happen.
-/

namespace K3rs

open Programs

/-! ## Answers -/

/-- The body of an answer about a pod. -/
inductive PodBody where
  | empty
  | text (message : String)
  | pod (p : Pod)
  deriving DecidableEq, Repr

/-- What the handlers of pods answer. -/
abbrev PodReply := StatusCode × PodBody

/-- `VpcStatus` as a text. -/
def VpcStatus.display : VpcStatus → String
  | .active => "Active"
  | .terminating => "Terminating"
  | .deleted => "Deleted"

/-- The key of a VPC. -/
def vpcKey (name : String) : String := "/registry/vpcs/" ++ name

/-- The VPC that a pod asks for. -/
def PodSpec.vpcName (spec : PodSpec) : String := spec.vpc.getD "default"

/-- `Scheduler::schedule`, with what the scheduler keeps. -/
abbrev Scheduler := Pod → List Node → Option String

namespace Api

/-! ## Creating and removing -/

/-- The pod of a request, as `create_pod` fills it in. -/
def requestedPod (ns id : String) (now : DateTime) (body : Pod) : Pod :=
  { body with id := id, ns := ns, status := .pending, createdAt := now }

/-- The pod on the node that the scheduler finds, if there is a scheduler. -/
def placePod (scheduler : Option Scheduler) (pod : Pod) : Program Pod :=
  match scheduler with
  | none => pure pod
  | some schedule => do
      let entries ← (listPrefix "/registry/nodes/").attempt
      -- Without a listing there are no nodes.
      let nodes := (entries.toOption.getD []).filterMap fun e => e.2.asNode
      return pod.assign (schedule pod nodes)

/-- `create_pod`. -/
def createPod (scheduler : Option Scheduler) (ns id : String) (now : DateTime) (body : Pod) :
    Program PodReply := do
  let pod := requestedPod ns id now body
  let data ← (Prog.get (vpcKey pod.spec.vpcName)).attempt
  match data.toOption.join.bind Object.asVpc with
  | some vpc =>
      if vpc.status ≠ .active then
        return (.forbidden, .text ("VPC '" ++ pod.spec.vpcName ++ "' is " ++ vpc.status.display ++
          " — cannot create new pods"))
      else storePod pod
  | none => storePod pod
where
  /-- The rest of the request, when the VPC does not forbid it. -/
  storePod (pod : Pod) : Program PodReply := do
    let pod ← placePod scheduler pod
    match ← (Prog.put (podKey ns pod.name) (.pod pod)).attempt with
    | .ok _ => return (.created, .pod pod)
    | .error _ => return (.internalServerError, .text "Failed to create pod")

/-- `delete_pod`. -/
def deletePod (ns podName : String) : Program PodReply := do
  match ← (Prog.delete (podKey ns podName)).attempt with
  | .ok _ => return (.noContent, .empty)
  | .error _ => return (.internalServerError, .empty)

/-! ## Updates -/

/-- A handler that reads a pod and puts it back changed. -/
def updatePod (ns podName : String) (change : Pod → Pod) : Program PodReply := do
  match ← (Prog.get (podKey ns podName)).attempt with
  | .ok (some data) =>
      match data.asPod with
      | some pod =>
          match ← (Prog.put (podKey ns podName) (.pod (change pod))).attempt with
          | .ok _ => return (.ok, .pod (change pod))
          | .error _ => return (.internalServerError, .empty)
      | none => return (.internalServerError, .empty)
  | .ok none => return (.notFound, .empty)
  | .error _ => return (.internalServerError, .empty)

/-- `update_pod_status`. -/
def updatePodStatus (ns podName : String) (status : PodStatus) : Program PodReply :=
  updatePod ns podName fun pod => { pod with status := status }

/-- `update_pod_vpc`. -/
def updatePodVpc (ns podName ghostIpv6 vpcName : String) : Program PodReply :=
  updatePod ns podName fun pod => { pod with ghostIpv6 := some ghostIpv6, vpcName := some vpcName }

/-! ## VPCs -/

/-- `delete_vpc`; the decision is that of `deleteVpc`. -/
def deleteVpc (name : String) : Program StatusCode := do
  if name = "default" then return .badRequest
  else
    match ← (Prog.get (vpcKey name)).attempt with
    | .error _ => return .internalServerError
    | .ok none => return .notFound
    | .ok (some data) =>
        match data.asVpc with
        | none => return .internalServerError
        | some vpc =>
            match K3rs.deleteVpc name (some vpc) with
            | .error _ => return .ok
            | .ok record =>
                match ← (Prog.put (vpcKey name) (.vpc record)).attempt with
                | .ok _ => return .ok
                | .error _ => return .internalServerError

/-- `create_vpc`; the decision is that of `createVpc`. -/
def createVpc (vpc : VpcRecord) (now : ℤ) : Program StatusCode := do
  if (Server.parseCidr vpc.ipv4Cidr).isNone then return .badRequest
  else
    let entries ← (listPrefix "/registry/vpcs/").attempt
    let existing := (entries.toOption.getD []).filterMap fun e => e.2.asVpc
    match K3rs.createVpc vpc existing now with
    | .error (.text status _) => return status
    | .error (.json status _) => return status
    | .ok record =>
        match ← (Prog.put (vpcKey record.name) (.vpc record)).attempt with
        | .ok _ => return .created
        | .error _ => return .internalServerError

end Api

/-- `VpcController::reconcile`; the decision is that of `ensureDefaultVpc`. -/
def reconcileVpcs : Program Unit := do
  let data ← Prog.get (vpcKey "default")
  -- Whatever is there counts, even if it is no VPC.
  if data.isNone then Prog.put (vpcKey "default") (.vpc defaultVpc) else pure ()

/-! ## Agents -/

/-- An agent fetches the pods of its node and makes a request about one of them. -/
def agentRequest (nodeName ns podName : String) (request : Program PodReply) : Program Unit := do
  let entries ← (listPrefix "/registry/pods/").attempt
  if (podsOn nodeName (entries.toOption.getD [])).any fun e =>
      decide (e.2.ns = ns ∧ e.2.name = podName) then do
    let _ ← request
  else pure ()

/-! ## Registration -/

/-- `NodeRegistrationRequest`, without what goes into the certificate. -/
structure NodeRegistrationRequest where
  token : String
  nodeName : String
  address : String
  labels : StringMap
  capacity : Option ResourceRequirements
  wgPublicKey : Option String
  wgListenPort : Option UInt16
  deriving DecidableEq, Repr

/-- `DEFAULT_AGENT_API_PORT`. -/
def DEFAULT_AGENT_API_PORT : UInt16 := 10250

/-- `str::rsplit_once`, the part in front. -/
def beforeLast (c : Char) (s : String) : String :=
  if s.toList.contains c then
    String.ofList (s.toList.reverse.dropWhile (· ≠ c)).tail.reverse
  else s

/-- `HashMap::extend`. -/
def extendMap (labels more : StringMap) : StringMap :=
  (labels.filter fun l => !(more.any fun m => decide (m.1 = l.1))) ++ more

/-- The WireGuard endpoint of a node. -/
def NodeRegistrationRequest.wgEndpoint (payload : NodeRegistrationRequest) : Option String :=
  payload.wgListenPort.map fun port => beforeLast ':' payload.address ++ ":" ++ toString port.toNat

/-- The record of a node that registers, given the one that is there. -/
def NodeRegistrationRequest.node (payload : NodeRegistrationRequest) (id : String) (now : DateTime) :
    Option Node → Node
  | some existing =>
      { existing with
        status := .ready
        lastHeartbeat := now
        address := payload.address
        agentApiPort := DEFAULT_AGENT_API_PORT
        labels := extendMap existing.labels payload.labels
        wgPublicKey := payload.wgPublicKey
        wgEndpoint := payload.wgEndpoint }
  | none =>
      { id := id
        name := payload.nodeName
        address := payload.address
        agentApiPort := DEFAULT_AGENT_API_PORT
        status := .ready
        registeredAt := now
        lastHeartbeat := now
        labels := payload.labels
        taints := []
        capacity := payload.capacity.getD ⟨0, 0⟩
        allocated := ⟨0, 0⟩
        unschedulable := false
        wgPublicKey := payload.wgPublicKey
        wgEndpoint := payload.wgEndpoint }

/-- `register_node`.  The server has a join token, and `issued` says whether it can issue a
certificate. -/
def registerNode (joinToken : String) (issued : Bool) (id : String) (now : DateTime)
    (payload : NodeRegistrationRequest) : Program StatusCode := do
  if payload.token.isEmpty then return .unauthorized
  else if payload.token ≠ joinToken then return .forbidden
  else if !issued then return .internalServerError
  else
    let key := "/registry/nodes/" ++ payload.nodeName
    let data ← (Prog.get key).attempt
    let node := payload.node id now (data.toOption.join.bind Object.asNode)
    match ← (Prog.put key (.node node)).attempt with
    | .ok _ => return .ok
    | .error _ => return .internalServerError

/-! ## The eviction controller -/

/-- `EVICTION_GRACE_PERIOD_SECS`, in milliseconds. -/
def evictionGracePeriod : ℤ := 300 * 1000

/-- The node has failed: its pods are to be evicted. -/
def Node.hasFailed (node : Node) (now : DateTime) : Bool :=
  !node.isMaster && decide (node.status = .unknown) &&
    decide (evictionGracePeriod ≤ max (now - node.lastHeartbeat) 0)

/-- The pod is on one of the nodes and is evicted from it. -/
def Pod.isEvictable (p : Pod) (failedNodeNames : List String) : Bool :=
  (p.nodeName.any fun nodeName => failedNodeNames.contains nodeName) &&
    decide (p.status ≠ .pending) && decide (p.status ≠ .succeeded) && decide (p.status ≠ .failed)

/-- A pass over one listed pod. -/
def evictPod (failedNodeNames : List String) (entry : String × Object) : Program Unit :=
  match entry.2.asPod with
  | none => pure ()
  | some p =>
      if p.isEvictable failedNodeNames then Prog.put entry.1 (.pod p.evicted) else pure ()

/-- `EvictionController::reconcile`. -/
def reconcileEvictions (now : DateTime) : Program Unit := do
  let nodeEntries ← listPrefix "/registry/nodes/"
  let failedNodeNames := (nodeEntries.filterMap fun e => e.2.asNode).filterMap fun node =>
    if node.hasFailed now then some node.name else none
  if failedNodeNames.isEmpty then pure ()
  else do
    let podEntries ← listPrefix "/registry/pods/"
    Prog.forEach (evictPod failedNodeNames) podEntries

end K3rs
