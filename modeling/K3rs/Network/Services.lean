import K3rs.Cluster.Objects
import K3rs.Lib.LastWins

/-!
# Services and their routes

The routing table of a node maps `clusterIP:port` of a service to the addresses of its backends.  It
is derived twice from the same lists of services and endpoints: by `ServiceProxy::update_routes` for
the running proxy, and by `AgentStateCache::derive_routes_map` for a start without the server.

Both go through the service ports in the same order and skip those without backends, so that a key
is always routed for the same service port (`routeOwners`).  They differ in how they write an
address (`derive_routes_map_iff`).
-/

namespace K3rs

open Tables

/-! ## Services -/

/-- `ServiceType`. -/
inductive ServiceType where
  | clusterIP
  | nodePort
  | loadBalancer
  deriving DecidableEq, Repr

/-- `ServicePort`. -/
structure ServicePort where
  name : String
  port : UInt16
  targetPort : UInt16
  nodePort : Option UInt16
  deriving DecidableEq, Repr

/-- `ServiceSpec`. -/
structure ServiceSpec where
  selector : StringMap
  ports : List ServicePort
  serviceType : ServiceType
  deriving DecidableEq, Repr

/-- `Service`. -/
structure Service where
  id : String
  name : String
  ns : String
  spec : ServiceSpec
  clusterIp : Option String
  vpc : Option String
  createdAt : DateTime
  deriving DecidableEq, Repr

/-- `EndpointAddress`. -/
structure EndpointAddress where
  ip : String
  nodeName : Option String
  podId : Option String
  deriving DecidableEq, Repr

/-- `EndpointPort`. -/
structure EndpointPort where
  name : String
  port : UInt16
  protocol : String
  deriving DecidableEq, Repr

/-- `Endpoint`. -/
structure Endpoint where
  id : String
  serviceId : String
  serviceName : String
  ns : String
  addresses : List EndpointAddress
  ports : List EndpointPort
  createdAt : DateTime
  deriving DecidableEq, Repr

/-- The VPC of a service. -/
def Service.vpcName (svc : Service) : String := svc.vpc.getD "default"

/-- The addresses of the endpoints of a service that pass a test. -/
def Service.addresses (svc : Service) (keep : String → Bool) (endpoints : List Endpoint) :
    List String :=
  let matchingEps := endpoints.filter fun ep => decide (ep.serviceId = svc.id ∧ ep.ns = svc.ns)
  matchingEps.flatMap fun ep => (ep.addresses.map EndpointAddress.ip).filter keep

/-- `CLUSTER_IP_PREFIX`. -/
def CLUSTER_IP_PREFIX : String := "10.43.0."

/-! ## Names -/

/-- `DNS_DOMAIN_SUFFIX`. -/
def DNS_DOMAIN_SUFFIX : String := "svc.cluster.local"

/-- The name of a service in the DNS. -/
def Service.fqdn (svc : Service) : String := svc.name ++ "." ++ svc.ns ++ "." ++ DNS_DOMAIN_SUFFIX

/-- The services that have a cluster IP, each with its name. -/
def namedServices (services : List Service) : List (String × Service × String) :=
  services.filterMap fun svc => svc.clusterIp.map fun clusterIp => (svc.fqdn, svc, clusterIp)

/-- The cluster IPs of the services, by their names. -/
def dnsEntries (services : List Service) : List (String × String) :=
  (namedServices services).map fun e => (e.1, e.2.2)

/-! ## Routes -/

/-- The key of a service port in the routing table. -/
def routeKey (clusterIp : String) (port : UInt16) : String := clusterIp ++ ":" ++ toString port.toNat

/-- The service ports that have backends, each with its key, in the order in which the loops come
upon them. -/
def routedPorts (keep : Service → String → Bool) (services : List Service)
    (endpoints : List Endpoint) : List (String × Service × ServicePort) :=
  services.flatMap fun svc =>
    match svc.clusterIp with
    | none => []
    | some clusterIp =>
        svc.spec.ports.flatMap fun p =>
          if (svc.addresses (keep svc) endpoints).isEmpty then []
          else [(routeKey clusterIp p.port, svc, p)]

/-- For which service port a key is routed. -/
def routeOwners (keep : Service → String → Bool) (services : List Service)
    (endpoints : List Endpoint) : AList fun _ : String => Service × ServicePort :=
  fill (routedPorts keep services endpoints)

/-- The backends of a service port. -/
def backends (write : String → UInt16 → String) (keep : Service → String → Bool)
    (endpoints : List Endpoint) (owner : Service × ServicePort) : List String :=
  (owner.1.addresses (keep owner.1) endpoints).map fun ip => write ip owner.2.targetPort

/-- A routing table, given how an address is written and which addresses are kept. -/
def routes (write : String → UInt16 → String) (keep : Service → String → Bool)
    (services : List Service) (endpoints : List Endpoint) : AList fun _ : String => List String :=
  fill ((routedPorts keep services endpoints).map fun e => (e.1, backends write keep endpoints e.2))

/-- An address in socket notation: IPv6 addresses need brackets. -/
def socketNotation (ip : String) (port : UInt16) : String :=
  if ':' ∈ ip.toList then "[" ++ ip ++ "]:" ++ toString port.toNat
  else ip ++ ":" ++ toString port.toNat

/-- An address as the cache writes it. -/
def plainNotation (ip : String) (port : UInt16) : String := ip ++ ":" ++ toString port.toNat

/-- The pods of each VPC, by their addresses. -/
abbrev VpcPodIps := AList fun _ : String => Finset String

/-- The VPC filter: without VPCs every address passes. -/
def inServiceVpc (vpcPodIps : VpcPodIps) (svc : Service) (ip : String) : Bool :=
  if vpcPodIps.entries.isEmpty then true
  else
    match vpcPodIps.lookup svc.vpcName with
    | some ips => decide (ip ∈ ips)
    | none => false

/-- `ServiceProxy::update_routes`: the new table. -/
def updateRoutes (services : List Service) (endpoints : List Endpoint) (vpcPodIps : VpcPodIps) :
    AList fun _ : String => List String :=
  routes socketNotation (inServiceVpc vpcPodIps) services endpoints

/-- `AgentStateCache::derive_routes_map`. -/
def deriveRoutesMap (services : List Service) (endpoints : List Endpoint) :
    AList fun _ : String => List String :=
  routes plainNotation (fun _ _ => true) services endpoints

section Routes

variable {write : String → UInt16 → String} {keep : Service → String → Bool} {services : List Service}
  {endpoints : List Endpoint} {key : String} {svc : Service} {p : ServicePort}

/-- **What is routed** under a key are the backends of its owner. -/
theorem lookup_routes (key : String) : (routes write keep services endpoints).lookup key =
    ((routeOwners keep services endpoints).lookup key).map (backends write keep endpoints) :=
  lookup_fill_map _ _ _

theorem mem_addresses {test : String → Bool} {ip : String} : ip ∈ svc.addresses test endpoints ↔
    test ip = true ∧ ∃ ep ∈ endpoints, ep.serviceId = svc.id ∧ ep.ns = svc.ns ∧
      ∃ addr ∈ ep.addresses, addr.ip = ip := by
  simp only [Service.addresses, List.mem_flatMap, List.mem_filter, decide_eq_true_eq, List.mem_map]
  constructor
  · rintro ⟨ep, ⟨hep, hid, hns⟩, ⟨addr, haddr, rfl⟩, htest⟩
    exact ⟨htest, ep, hep, hid, hns, addr, haddr, rfl⟩
  · rintro ⟨htest, ep, hep, hid, hns, addr, haddr, rfl⟩
    exact ⟨ep, ⟨hep, hid, hns⟩, ⟨addr, haddr, rfl⟩, htest⟩

theorem mem_routedPorts : (key, svc, p) ∈ routedPorts keep services endpoints ↔
    svc ∈ services ∧ p ∈ svc.spec.ports ∧ svc.addresses (keep svc) endpoints ≠ [] ∧
      ∃ clusterIp, svc.clusterIp = some clusterIp ∧ key = routeKey clusterIp p.port := by
  rw [routedPorts, List.mem_flatMap]
  constructor
  · rintro ⟨svc', hsvc', hmem⟩
    cases hip : svc'.clusterIp with
    | none =>
        rw [hip] at hmem
        exact absurd hmem List.not_mem_nil
    | some clusterIp =>
        rw [hip] at hmem
        obtain ⟨p', hp', hmem⟩ := List.mem_flatMap.mp hmem
        split_ifs at hmem with hempty
        · exact absurd hmem List.not_mem_nil
        · obtain ⟨rfl, rfl, rfl⟩ := List.mem_singleton.mp hmem
          rw [List.isEmpty_iff] at hempty
          exact ⟨hsvc', hp', hempty, clusterIp, hip, rfl⟩
  · rintro ⟨hsvc, hp, hne, clusterIp, hip, rfl⟩
    refine ⟨svc, hsvc, ?_⟩
    rw [hip]
    refine List.mem_flatMap.mpr ⟨p, hp, ?_⟩
    rw [if_neg (mt List.isEmpty_iff.mp hne)]
    exact List.mem_singleton_self _

/-- Without VPCs the filter lets everything pass. -/
theorem inServiceVpc_empty : inServiceVpc ∅ = fun _ _ => true := rfl

end Routes

/-! ## The two derivations -/

/-- The two notations agree on an address exactly if it has no colon. -/
theorem plainNotation_eq_iff {ip : String} {port : UInt16} :
    plainNotation ip port = socketNotation ip port ↔ ':' ∉ ip.toList := by
  rw [plainNotation, socketNotation]
  split_ifs with hcolon
  · refine iff_of_false (fun heq => ?_) (not_not_intro hcolon)
    -- With the brackets the text is longer.
    have hlength := congrArg String.length heq
    simp only [String.length_append] at hlength
    have hbrackets : "[".length = 1 ∧ "]:".length = 2 ∧ ":".length = 1 := by decide
    omega
  · exact iff_of_true rfl hcolon

/-- Both tables have the same backends under every key. -/
def SameRoutes (table table' : AList fun _ : String => List String) : Prop :=
  ∀ key, table.lookup key = table'.lookup key

/-- Every backend of the one table can be parsed if that of the other can. -/
def ParsesLike (parses : String → Prop) (table table' : AList fun _ : String => List String) : Prop :=
  ∀ key bs bs', table.lookup key = some bs → table'.lookup key = some bs' →
    ∀ (i : ℕ) (b b' : String), bs[i]? = some b → bs'[i]? = some b' → parses b' → parses b

/-- No key is routed to an address with a colon. -/
def NoColons (services : List Service) (endpoints : List Endpoint) : Prop :=
  ∀ key owner, (routeOwners (fun _ _ => true) services endpoints).lookup key = some owner →
    ∀ ip ∈ owner.1.addresses (fun _ => true) endpoints, ':' ∉ ip.toList

theorem sameRoutes_iff (services : List Service) (endpoints : List Endpoint) :
    SameRoutes (deriveRoutesMap services endpoints) (updateRoutes services endpoints ∅) ↔
      NoColons services endpoints := by
  refine forall_congr' fun key => ?_
  rw [deriveRoutesMap, updateRoutes, inServiceVpc_empty, lookup_routes, lookup_routes]
  cases (routeOwners (fun _ _ => true) services endpoints).lookup key with
  | none => exact iff_of_true rfl fun owner howner => nomatch howner
  | some owner =>
      simp only [Option.map_some, Option.some_inj, backends, List.map_inj_left, plainNotation_eq_iff]
      constructor
      · rintro h _ rfl
        exact h
      · exact fun h => h owner rfl

/-- **The persisted routes.**  The table of the cache is that of the proxy, and its backends can be
parsed where those of the proxy can, if and only if no key is routed to an address with a colon. -/
theorem derive_routes_map_iff (parses : String → Prop) (services : List Service)
    (endpoints : List Endpoint) :
    (SameRoutes (deriveRoutesMap services endpoints) (updateRoutes services endpoints ∅) ∧
      ParsesLike parses (deriveRoutesMap services endpoints) (updateRoutes services endpoints ∅)) ↔
      NoColons services endpoints := by
  rw [← sameRoutes_iff]
  refine and_iff_left_of_imp fun hsame key bs bs' hbs hbs' i b b' hb hb' hparses => ?_
  rw [hsame key, hbs'] at hbs
  obtain rfl := Option.some_inj.mp hbs
  obtain rfl := Option.some_inj.mp (hb.symm.trans hb')
  exact hparses

/-- A service with one port. -/
def webService (id clusterIp : String) : Service where
  id := id
  name := id
  ns := "default"
  spec := ⟨[], [⟨"http", 80, 8080, none⟩], .clusterIP⟩
  clusterIp := some clusterIp
  vpc := some "default"
  createdAt := 0

/-- An endpoint of a service, with the addresses of its pods. -/
def webEndpoint (serviceId : String) (ips : List String) : Endpoint where
  id := serviceId
  serviceId := serviceId
  serviceName := serviceId
  ns := "default"
  addresses := ips.map fun ip => ⟨ip, none, none⟩
  ports := [⟨"http", 8080, "TCP"⟩]
  createdAt := 0

/-- A pod with an IPv6 address is not persisted as a socket address. -/
theorem derive_routes_map_differs :
    (updateRoutes [webService "web" "10.43.0.2"] [webEndpoint "web" ["fd00::1"]] ∅).lookup
        "10.43.0.2:80" = some ["[fd00::1]:8080"] ∧
      (deriveRoutesMap [webService "web" "10.43.0.2"] [webEndpoint "web" ["fd00::1"]]).lookup
        "10.43.0.2:80" = some ["fd00::1:8080"] ∧
      ¬SameRoutes (deriveRoutesMap [webService "web" "10.43.0.2"] [webEndpoint "web" ["fd00::1"]])
        (updateRoutes [webService "web" "10.43.0.2"] [webEndpoint "web" ["fd00::1"]] ∅) := by
  refine ⟨by decide, by decide, fun h => ?_⟩
  exact absurd (h "10.43.0.2:80") (by decide)

end K3rs
