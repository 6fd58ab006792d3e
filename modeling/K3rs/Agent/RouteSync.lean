import K3rs.Agent.Store
import K3rs.Network.DnsIsolation

/-!
# The route sync loop

A pass of the loop asks the server for the namespaces, for the services and the endpoints of each,
and for the peerings, and the VPC daemon for the VPCs and their pods.  Then it replaces the routing
table, the tables of the DNS server and what is persisted.

Only a transport error of the first request ends a pass.  A response that cannot be parsed counts as
an empty list, a namespace whose requests fail is left out, and so are the pods of a VPC whose
request fails.  So a failed request may look like a deletion; `fail_static_iff` says which
combinations of outcomes never do.
-/

namespace K3rs

open Tables

/-! ## Requests -/

/-- What becomes of a request to the server. -/
inductive RequestOutcome where
  | transportError
  | errorStatus
  | unparsable
  | ok
  deriving DecidableEq, Repr

/-- What the loop makes of a response: `r.json().await.unwrap_or_default()`. -/
def RequestOutcome.body {α : Type} (outcome : RequestOutcome) (list : List α) : Option (List α) :=
  match outcome with
  | .transportError => none
  | .errorStatus => some []
  | .unparsable => some []
  | .ok => some list

/-- What the server has. -/
structure ServerLists where
  namespaces : List String
  services : String → List Service
  endpoints : String → List Endpoint
  peerings : List VpcPeering

/-- `VpcInfo`, without the CIDR. -/
structure VpcInfo where
  name : String
  vpcId : UInt16
  deriving DecidableEq, Repr

/-- `RouteEntry`. -/
structure RouteEntry where
  destination : String
  nextHop : String
  deriving DecidableEq, Repr

/-- What the VPC daemon of the node has. -/
structure DaemonLists where
  vpcs : List VpcInfo
  routes : UInt16 → List RouteEntry

/-- The outcomes of the requests of a pass. -/
structure SyncOutcomes where
  namespaces : RequestOutcome
  services : String → RequestOutcome
  endpoints : String → RequestOutcome
  peerings : RequestOutcome
  vpcs : Bool
  routes : UInt16 → Bool

/-- All requests succeed. -/
def SyncOutcomes.allOk : SyncOutcomes := ⟨.ok, fun _ => .ok, fun _ => .ok, .ok, true, fun _ => true⟩

section Requests

variable (srv : ServerLists) (daemon : DaemonLists) (out : SyncOutcomes)

/-- The services and endpoints of a namespace; if one of the requests fails, the namespace is
skipped. -/
def fetchNamespace (ns : String) : List Service × List Endpoint :=
  match (out.services ns).body (srv.services ns) with
  | none => ([], [])
  | some services =>
      match (out.endpoints ns).body (srv.endpoints ns) with
      | none => ([], [])
      | some endpoints => (services, endpoints)

/-- The namespaces that are asked for. -/
def nsNames (namespaces : List String) : List String :=
  if namespaces.isEmpty then ["default"] else namespaces

/-- The services of all namespaces. -/
def allServices (namespaces : List String) : List Service :=
  (nsNames namespaces).flatMap fun ns => (fetchNamespace srv out ns).1

/-- The endpoints of all namespaces. -/
def allEndpoints (namespaces : List String) : List Endpoint :=
  (nsNames namespaces).flatMap fun ns => (fetchNamespace srv out ns).2

/-- The VPCs that the daemon lists; without its answer there are none. -/
def listedVpcs : List VpcInfo := if out.vpcs then daemon.vpcs else []

/-- The VPCs whose pods the daemon lists. -/
def answeredVpcs : List VpcInfo := (listedVpcs daemon out).filter fun v => out.routes v.vpcId

/-- `vpc_pod_ips`. -/
def vpcPodIps : VpcPodIps :=
  fill ((answeredVpcs daemon out).map fun v =>
    (v.name, ((daemon.routes v.vpcId).flatMap fun e => [e.destination, e.nextHop]).toFinset))

/-- `ip_to_vpc`. -/
def ipToVpc : AList fun _ : String => String :=
  fill ((answeredVpcs daemon out).flatMap fun v =>
    (daemon.routes v.vpcId).flatMap fun e => [(e.destination, v.name), (e.nextHop, v.name)])

/-- `vpc_name_to_id`. -/
def vpcNameToId : AList fun _ : String => UInt16 :=
  fill ((listedVpcs daemon out).map fun v => (v.name, v.vpcId))

end Requests

/-! ## Passes -/

/-- The tables of the agent. -/
structure AgentTables where
  routes : AList fun _ : String => List String
  dns : DnsServer
  cache : AgentStateCache
  db : Option AgentDb

/-- A pass of the loop; `saved` says whether the store could be written. -/
def syncRoutes (srv : ServerLists) (daemon : DaemonLists) (out : SyncOutcomes) (now : DateTime)
    (saved : Bool) (a : AgentTables) : AgentTables :=
  match out.namespaces.body srv.namespaces with
  | none => a
  | some namespaces =>
      let services := allServices srv out namespaces
      let endpoints := allEndpoints srv out namespaces
      -- Without the peerings there are none.
      let peerings := (out.peerings.body srv.peerings).getD []
      let cache :=
        { a.cache with services := services, endpoints := endpoints, lastSyncedAt := now }
      { routes := updateRoutes services endpoints (vpcPodIps daemon out)
        dns := (((a.dns.updateRecords services).updateVpcRecords services
          (vpcNameToId daemon out)).updateVpcMembers (ipToVpc daemon out)).updatePeerings peerings
        cache := cache
        db := if saved then some (AgentStore.save cache) else a.db }

/-- An entry of one of the tables. -/
inductive TableEntry where
  | route (key : String)
  | record (name : String)
  | vpcRecord (name : String)
  | peering (src dst : String)
  | savedRoute (key : String)
  | savedRecord (name : String)

/-- The entry is there. -/
def AgentTables.Has (a : AgentTables) : TableEntry → Prop
  | .route key => (a.routes.lookup key).isSome = true
  | .record name => (a.dns.records.lookup name).isSome = true
  | .vpcRecord name => (a.dns.vpcRecords.lookup name).isSome = true
  | .peering src dst => (src, dst) ∈ a.dns.peeredVpcs
  | .savedRoute key => (a.db.bind fun db => db.routes.lookup key).isSome = true
  | .savedRecord name => (a.db.bind fun db => db.dnsRecords.lookup name).isSome = true

instance (a : AgentTables) : (e : TableEntry) → Decidable (a.Has e)
  | .route _ | .record _ | .vpcRecord _ | .savedRoute _ | .savedRecord _ =>
      inferInstanceAs (Decidable (_ = true))
  | .peering _ _ => inferInstanceAs (Decidable (_ ∈ _))

/-- No entry that was there, and that a pass would keep if all its requests succeeded, is lost. -/
def FailStatic (srv : ServerLists) (daemon : DaemonLists) (out : SyncOutcomes) (now : DateTime)
    (saved : Bool) (a : AgentTables) : Prop :=
  ∀ e, a.Has e → (syncRoutes srv daemon .allOk now saved a).Has e →
    (syncRoutes srv daemon out now saved a).Has e

/-- The outcomes with which nothing is ever lost. -/
def SyncOutcomes.Harmless (out : SyncOutcomes) : Prop :=
  out.namespaces = .transportError ∨
    out.namespaces = .ok ∧ (∀ ns, out.services ns = .ok ∧ out.endpoints ns = .ok) ∧
      out.peerings = .ok ∧
      (out.vpcs = false ∨ (∀ vpcId, out.routes vpcId = true) ∨ ∀ vpcId, out.routes vpcId = false)

/-! ## Harmless outcomes -/

section Harmless

variable {srv : ServerLists} {daemon : DaemonLists} {out : SyncOutcomes}

theorem isSome_lookup_updateRoutes {services : List Service} {endpoints : List Endpoint}
    {ips : VpcPodIps} {key : String} :
    ((updateRoutes services endpoints ips).lookup key).isSome = true ↔
      ∃ svc p, (key, svc, p) ∈ routedPorts (inServiceVpc ips) services endpoints := by
  rw [updateRoutes, lookup_routes, Option.isSome_map, routeOwners, isSome_lookup_fill]
  constructor
  · rintro ⟨⟨key, svc, p⟩, hmem, rfl⟩
    exact ⟨svc, p, hmem⟩
  · rintro ⟨svc, p, hmem⟩
    exact ⟨_, hmem, rfl⟩

/-- A weaker filter keeps more routes. -/
theorem isSome_lookup_updateRoutes_mono {services : List Service} {endpoints : List Endpoint}
    {ips ips' : VpcPodIps} {key : String}
    (hle : ∀ svc ip, inServiceVpc ips svc ip = true → inServiceVpc ips' svc ip = true)
    (h : ((updateRoutes services endpoints ips).lookup key).isSome = true) :
    ((updateRoutes services endpoints ips').lookup key).isSome = true := by
  rw [isSome_lookup_updateRoutes] at h ⊢
  obtain ⟨svc, p, hmem⟩ := h
  obtain ⟨hsvc, hp, hne, hip⟩ := mem_routedPorts.mp hmem
  refine ⟨svc, p, mem_routedPorts.mpr ⟨hsvc, hp, ?_, hip⟩⟩
  obtain ⟨ip, hmem⟩ := List.exists_mem_of_ne_nil _ hne
  obtain ⟨hkeep, hep⟩ := mem_addresses.mp hmem
  exact List.ne_nil_of_mem (mem_addresses.mpr ⟨hle svc ip hkeep, hep⟩)

theorem fetchNamespace_ok {ns : String} (h : out.services ns = .ok ∧ out.endpoints ns = .ok) :
    fetchNamespace srv out ns = (srv.services ns, srv.endpoints ns) := by
  rw [fetchNamespace, h.1, h.2]
  rfl

/-- The filter of a harmless pass is that of a successful one, or lets everything pass. -/
theorem inServiceVpc_of_allOk
    (h : out.vpcs = false ∨ (∀ vpcId, out.routes vpcId = true) ∨ ∀ vpcId, out.routes vpcId = false)
    {svc : Service} {ip : String} (hip : inServiceVpc (vpcPodIps daemon .allOk) svc ip = true) :
    inServiceVpc (vpcPodIps daemon out) svc ip = true := by
  have hnone : answeredVpcs daemon out = [] → inServiceVpc (vpcPodIps daemon out) svc ip = true := by
    intro hempty
    rw [vpcPodIps, hempty]
    rfl
  cases hvpcs : out.vpcs with
  | false =>
      refine hnone ?_
      rw [answeredVpcs, listedVpcs, hvpcs]
      rfl
  | true =>
      rcases h.resolve_left (by rw [hvpcs]; exact Bool.noConfusion) with hall | hall
      · have hsame : answeredVpcs daemon out = answeredVpcs daemon .allOk := by
          simp only [answeredVpcs, listedVpcs, hvpcs, hall]
          rfl
        rw [vpcPodIps, hsame]
        exact hip
      · refine hnone ?_
        simp only [answeredVpcs, hall, List.filter_false]

theorem allServices_ok (h : ∀ ns, out.services ns = .ok ∧ out.endpoints ns = .ok)
    (namespaces : List String) :
    allServices srv out namespaces = allServices srv .allOk namespaces := by
  refine List.flatMap_congr fun ns _ => ?_
  rw [fetchNamespace_ok (h ns), fetchNamespace_ok ⟨rfl, rfl⟩]

theorem allEndpoints_ok (h : ∀ ns, out.services ns = .ok ∧ out.endpoints ns = .ok)
    (namespaces : List String) :
    allEndpoints srv out namespaces = allEndpoints srv .allOk namespaces := by
  refine List.flatMap_congr fun ns _ => ?_
  rw [fetchNamespace_ok (h ns), fetchNamespace_ok ⟨rfl, rfl⟩]

/-- The names of the VPC records do not depend on the ids of the VPCs. -/
theorem isSome_lookup_vpcEntries {services : List Service}
    {vpcNameToId : AList fun _ : String => UInt16} {name : String} :
    ((fill (DnsServer.vpcEntries services vpcNameToId)).lookup name).isSome = true ↔
      ∃ e ∈ namedServices services, e.1 = name := by
  rw [isSome_lookup_fill, DnsServer.vpcEntries]
  constructor
  · rintro ⟨e', he', rfl⟩
    obtain ⟨e, he, rfl⟩ := List.mem_map.mp he'
    exact ⟨e, he, rfl⟩
  · rintro ⟨e, he, rfl⟩
    exact ⟨_, List.mem_map_of_mem he, rfl⟩

/-- With harmless outcomes nothing is lost. -/
theorem SyncOutcomes.Harmless.failStatic (h : out.Harmless) (srv : ServerLists)
    (daemon : DaemonLists) (now : DateTime) (saved : Bool) (a : AgentTables) :
    FailStatic srv daemon out now saved a := by
  intro e hbefore hok
  rcases h with htransport | ⟨hns, hlists, hpeerings, hdaemon⟩
  · rw [syncRoutes, htransport]
    exact hbefore
  · rw [syncRoutes, hns, RequestOutcome.body] at *
    simp only [allServices_ok hlists, allEndpoints_ok hlists, hpeerings]
    cases e with
    | route key => exact isSome_lookup_updateRoutes_mono (fun _ _ => inServiceVpc_of_allOk hdaemon) hok
    | record name => exact hok
    | vpcRecord name => exact isSome_lookup_vpcEntries.mpr (isSome_lookup_vpcEntries.mp hok)
    | peering src dst => exact hok
    | savedRoute key => exact hok
    | savedRecord name => exact hok

/-! ## Harmful outcomes -/

theorem mem_fetchNamespace_services {ns : String} {svc : Service}
    (h : svc ∈ (fetchNamespace srv out ns).1) :
    out.services ns = .ok ∧ svc ∈ srv.services ns := by
  rw [fetchNamespace] at h
  cases hsvcs : out.services ns <;> cases hepts : out.endpoints ns <;>
    simp only [hsvcs, hepts, RequestOutcome.body, List.not_mem_nil] at h
  all_goals exact ⟨rfl, h⟩

theorem mem_fetchNamespace_endpoints {ns : String} {ep : Endpoint}
    (h : ep ∈ (fetchNamespace srv out ns).2) :
    out.endpoints ns = .ok ∧ ep ∈ srv.endpoints ns := by
  rw [fetchNamespace] at h
  cases hsvcs : out.services ns <;> cases hepts : out.endpoints ns <;>
    simp only [hsvcs, hepts, RequestOutcome.body, List.not_mem_nil] at h
  all_goals exact ⟨rfl, h⟩

/-- A pass that has a route has fetched a service and an endpoint. -/
theorem fetched_of_route {now : DateTime} {saved : Bool} {a : AgentTables} {key : String}
    (htransport : out.namespaces ≠ .transportError)
    (h : (syncRoutes srv daemon out now saved a).Has (.route key)) :
    ∃ namespaces, out.namespaces.body srv.namespaces = some namespaces ∧
      (∃ ns ∈ nsNames namespaces, out.services ns = .ok ∧ srv.services ns ≠ []) ∧
      ∃ ns ∈ nsNames namespaces, out.endpoints ns = .ok ∧ srv.endpoints ns ≠ [] := by
  rw [syncRoutes] at h
  cases hbody : out.namespaces.body srv.namespaces with
  | none =>
      cases houtcome : out.namespaces with
      | transportError => exact absurd houtcome htransport
      | errorStatus | unparsable | ok =>
          rw [houtcome] at hbody
          exact nomatch hbody
  | some namespaces =>
      rw [hbody] at h
      obtain ⟨svc, p, hmem⟩ := isSome_lookup_updateRoutes.mp h
      obtain ⟨hsvc, -, hne, -⟩ := mem_routedPorts.mp hmem
      obtain ⟨ip, hip⟩ := List.exists_mem_of_ne_nil _ hne
      obtain ⟨-, ep, hep, -⟩ := mem_addresses.mp hip
      obtain ⟨ns, hns, hsvc⟩ := List.mem_flatMap.mp hsvc
      obtain ⟨ns', hns', hep⟩ := List.mem_flatMap.mp hep
      have hsvc := mem_fetchNamespace_services hsvc
      have hep := mem_fetchNamespace_endpoints hep
      exact ⟨namespaces, rfl, ⟨ns, hns, hsvc.1, List.ne_nil_of_mem hsvc.2⟩,
        ns', hns', hep.1, List.ne_nil_of_mem hep.2⟩

end Harmless

/-- A service of the VPC `red`, in a given namespace. -/
def redServiceIn (ns : String) : Service := { redService with ns := ns }

/-- Its endpoint. -/
def redEndpointIn (ns : String) : Endpoint := { webEndpoint "web" ["10.0.0.5"] with ns := ns }

/-- A server with one namespace, which has the service. -/
def oneNamespace (ns : String) : ServerLists where
  namespaces := [ns]
  services n := if n = ns then [redServiceIn ns] else []
  endpoints n := if n = ns then [redEndpointIn ns] else []
  peerings := [⟨"blue-red", "blue", "red", .bidirectional, .active⟩]

/-- A daemon without VPCs. -/
def noVpcs : DaemonLists := ⟨[], fun _ => []⟩

/-- A daemon with the VPCs `red` and `blue`. -/
def twoVpcs (red blue : UInt16) : DaemonLists where
  vpcs := [⟨"red", red⟩, ⟨"blue", blue⟩]
  routes _ := [⟨"10.0.0.5", "fd00::5"⟩]

/-- An agent that is up to date. -/
def upToDate : AgentTables where
  routes := fill [("10.43.0.2:80", ["10.0.0.5:8080"])]
  dns := DnsServer.new.updatePeerings (oneNamespace "default").peerings
  cache := emptyCache
  db := none

section Harmful

variable {out : SyncOutcomes}

theorem lists_oneNamespace (ns : String) :
    allServices (oneNamespace ns) .allOk [ns] = [redServiceIn ns] ∧
      allEndpoints (oneNamespace ns) .allOk [ns] = [redEndpointIn ns] := by
  have hfetch : fetchNamespace (oneNamespace ns) .allOk ns = ([redServiceIn ns], [redEndpointIn ns]) := by
    rw [fetchNamespace_ok ⟨rfl, rfl⟩]
    exact Prod.ext (if_pos rfl) (if_pos rfl)
  constructor
  · rw [allServices, nsNames, if_neg (by exact Bool.false_ne_true), List.flatMap_singleton, hfetch]
  · rw [allEndpoints, nsNames, if_neg (by exact Bool.false_ne_true), List.flatMap_singleton, hfetch]

/-- The service is routed in a pass whose requests all succeed, if its pod is known. -/
theorem route_oneNamespace (ns : String) {daemon : DaemonLists}
    (hips : inServiceVpc (vpcPodIps daemon .allOk) (redServiceIn ns) "10.0.0.5" = true) :
    (syncRoutes (oneNamespace ns) daemon .allOk 0 true upToDate).Has (.route "10.43.0.2:80") := by
  show ((updateRoutes (allServices (oneNamespace ns) .allOk [ns])
    (allEndpoints (oneNamespace ns) .allOk [ns]) (vpcPodIps daemon .allOk)).lookup
      "10.43.0.2:80").isSome = true
  rw [(lists_oneNamespace ns).1, (lists_oneNamespace ns).2, isSome_lookup_updateRoutes]
  have haddr : "10.0.0.5" ∈ (redServiceIn ns).addresses
      (inServiceVpc (vpcPodIps daemon .allOk) (redServiceIn ns)) [redEndpointIn ns] :=
    mem_addresses.mpr ⟨hips, redEndpointIn ns, List.mem_singleton_self _, rfl, rfl,
      _, List.mem_singleton_self _, rfl⟩
  exact ⟨redServiceIn ns, _, mem_routedPorts.mpr ⟨List.mem_singleton_self _,
    List.mem_singleton_self _, List.ne_nil_of_mem haddr, _, rfl, by decide⟩⟩

/-- The lists of a namespace are lost unless both of its requests succeed, and so do the
namespaces. -/
theorem requests_ok_of_failStatic (htransport : out.namespaces ≠ .transportError) {ns : String}
    (h : FailStatic (oneNamespace ns) noVpcs out 0 true upToDate) :
    (out.services ns = .ok ∧ out.endpoints ns = .ok) ∧ (ns = "default" ∨ out.namespaces = .ok) := by
  have hroute := h (.route "10.43.0.2:80") rfl (route_oneNamespace ns rfl)
  obtain ⟨namespaces, hbody, ⟨ns', hns', hsvc, hne⟩, ns'', -, hep, hne'⟩ :=
    fetched_of_route htransport hroute
  have hns : ns' = ns := by
    by_contra hother
    exact hne (if_neg hother)
  have hns'' : ns'' = ns := by
    by_contra hother
    exact hne' (if_neg hother)
  rw [hns] at hsvc hns'
  rw [hns''] at hep
  refine ⟨⟨hsvc, hep⟩, ?_⟩
  cases houtcome : out.namespaces with
  | transportError => exact absurd houtcome htransport
  | ok => exact Or.inr rfl
  | errorStatus | unparsable =>
      -- The list counts as empty, so that only one namespace is asked for.
      rw [houtcome] at hbody
      obtain rfl : [] = namespaces := Option.some_inj.mp hbody
      exact Or.inl (List.mem_singleton.mp hns')

/-- The peerings are lost unless their request succeeds. -/
theorem peerings_ok_of_failStatic (hns : out.namespaces = .ok)
    (h : FailStatic (oneNamespace "default") noVpcs out 0 true upToDate) : out.peerings = .ok := by
  have hpeering := h (.peering "blue" "red") (by decide) (by decide)
  rw [syncRoutes, hns] at hpeering
  cases houtcome : out.peerings with
  | ok => rfl
  | transportError | errorStatus | unparsable =>
      rw [houtcome] at hpeering
      exact absurd hpeering (Finset.notMem_empty _)

/-- With two VPCs, the pods of one are lost if only the other is answered. -/
theorem not_failStatic_of_mixed (hns : out.namespaces = .ok)
    (hlists : ∀ ns, out.services ns = .ok ∧ out.endpoints ns = .ok) (hvpcs : out.vpcs = true)
    {red blue : UInt16} (hred : out.routes red = false) (hblue : out.routes blue = true) :
    ¬FailStatic (oneNamespace "default") (twoVpcs red blue) out 0 true upToDate := by
  intro h
  have hroute := h (.route "10.43.0.2:80") rfl (route_oneNamespace "default" (by
    show inServiceVpc (fill [("red", {"10.0.0.5", "fd00::5"}), ("blue", {"10.0.0.5", "fd00::5"})])
      (redServiceIn "default") "10.0.0.5" = true
    decide))
  have hips : vpcPodIps (twoVpcs red blue) out = fill [("blue", {"10.0.0.5", "fd00::5"})] := by
    have hanswered : answeredVpcs (twoVpcs red blue) out = [⟨"blue", blue⟩] := by
      rw [answeredVpcs, listedVpcs, hvpcs]
      simp only [twoVpcs, if_true, List.filter_cons, hred, hblue, List.filter_nil]
      rfl
    rw [vpcPodIps, hanswered]
    rfl
  rw [syncRoutes, hns] at hroute
  change ((updateRoutes (allServices (oneNamespace "default") out ["default"])
    (allEndpoints (oneNamespace "default") out ["default"])
    (vpcPodIps (twoVpcs red blue) out)).lookup "10.43.0.2:80").isSome = true at hroute
  rw [allServices_ok hlists, allEndpoints_ok hlists, hips] at hroute
  exact absurd hroute (by decide)

/-- **Fail-static routes.**  Nothing is ever lost in a pass with the given outcomes if and only if
they are harmless. -/
theorem fail_static_iff (out : SyncOutcomes) :
    (∀ srv daemon now saved a, FailStatic srv daemon out now saved a) ↔ out.Harmless := by
  refine ⟨fun h => ?_, fun h => h.failStatic⟩
  by_cases htransport : out.namespaces = .transportError
  · exact Or.inl htransport
  have hns : out.namespaces = .ok :=
    (requests_ok_of_failStatic htransport (h (oneNamespace "other") _ _ _ _)).2.resolve_left
      (by decide)
  have hlists : ∀ ns, out.services ns = .ok ∧ out.endpoints ns = .ok :=
    fun ns => (requests_ok_of_failStatic htransport (h (oneNamespace ns) _ _ _ _)).1
  refine Or.inr ⟨hns, hlists, peerings_ok_of_failStatic hns (h _ _ _ _ _), ?_⟩
  by_cases hvpcs : out.vpcs = true
  · by_contra hmixed
    simp only [not_or, not_forall, Bool.not_eq_true, Bool.not_eq_false] at hmixed
    obtain ⟨-, ⟨red, hred⟩, blue, hblue⟩ := hmixed
    exact not_failStatic_of_mixed hns hlists hvpcs hred hblue (h _ _ _ _ _)
  · exact Or.inl (Bool.eq_false_of_not_eq_true hvpcs)

end Harmful

/-- The services of a namespace cannot be fetched, everything else can. -/
def servicesFail : SyncOutcomes := { SyncOutcomes.allOk with services := fun _ => .transportError }

/-- The service is still there, but its route, its record and what is persisted of them are gone. -/
theorem fail_static_fails :
    let before := syncRoutes (oneNamespace "default") noVpcs .allOk 0 true upToDate
    let after := syncRoutes (oneNamespace "default") noVpcs servicesFail 10 true before
    (∀ e ∈ [.route "10.43.0.2:80", .record redService.fqdn, .savedRoute "10.43.0.2:80"],
      before.Has e ∧ ¬after.Has e) ∧
      ¬FailStatic (oneNamespace "default") noVpcs servicesFail 10 true before := by
  refine ⟨by decide, fun h => ?_⟩
  exact absurd (h (.route "10.43.0.2:80") (by decide) (by decide)) (by decide)

end K3rs
