import K3rs.Agent.RouteSync
import K3rs.Vpc.AddressLeases
import K3rs.Vpc.Durability

/-!
# Backends on other nodes

The endpoints of a service are those of the whole cluster, but the VPC filter of a node is filled
with the allocations of its own daemon.  A backend on another node is thus dropped, unless the
local daemon happens to have given out the same address.

`backends_across_nodes_iff` is the exact condition: what the pods of the VPC hold is listed by the
daemon of the node that syncs.
-/

namespace K3rs

open Net Tables Transition

/-! ## The daemon's answers -/

/-- `get_routes`, as the socket sends them: the allocations of the first pool with this id. -/
def GhostAllocator.getRoutes (a : GhostAllocator) (vpcId : UInt16) : List RouteEntry :=
  match a.pools.entries.find? fun e => decide (e.2.vpcId = vpcId) with
  | none => []
  | some e => e.2.allocations.entries.map fun alloc =>
      ⟨ipv4ToString alloc.2.guestIpv4, ipv6ToString alloc.2.ghostIpv6⟩

namespace NodeState

/-- `ListVpcs` and `GetRoutes`. -/
def lists (s : NodeState) : DaemonLists where
  vpcs := s.store.loadVpcs.map fun vpc => ⟨vpc.name, vpc.vpcId⟩
  routes := s.allocator.getRoutes

/-- The daemon lists the address for a VPC, or has no VPCs. -/
def Lists (s : NodeState) (vpcName ip : String) : Prop :=
  s.store.loadVpcs = [] ∨ ∃ vpcId, (vpcNameToId s.lists .allOk).lookup vpcName = some vpcId ∧
    ∃ e ∈ s.allocator.getRoutes vpcId, ip = e.destination ∨ ip = e.nextHop

/-- What passes the VPC filter is what the daemon of the node lists. -/
theorem inServiceVpc_lists (s : NodeState) (svc : Service) (ip : String) :
    inServiceVpc (vpcPodIps s.lists .allOk) svc ip = true ↔ s.Lists svc.vpcName ip := by
  have hanswered : answeredVpcs s.lists .allOk = s.lists.vpcs := List.filter_true _
  have hlookup : (vpcPodIps s.lists .allOk).lookup svc.vpcName =
      ((vpcNameToId s.lists .allOk).lookup svc.vpcName).map fun vpcId =>
        ((s.allocator.getRoutes vpcId).flatMap fun e => [e.destination, e.nextHop]).toFinset := by
    rw [vpcPodIps, vpcNameToId, hanswered, ← lookup_fill_map, List.map_map]
    rfl
  have hempty : (vpcPodIps s.lists .allOk).entries.isEmpty = true ↔ s.store.loadVpcs = [] := by
    rw [vpcPodIps, hanswered, isEmpty_entries_fill, List.map_eq_nil_iff, lists, List.map_eq_nil_iff]
  rw [inServiceVpc, Lists, ← hempty]
  split_ifs with he
  · exact iff_of_true rfl (Or.inl he)
  · rw [hlookup, or_iff_right he]
    cases (vpcNameToId s.lists .allOk).lookup svc.vpcName with
    | none =>
        refine iff_of_false Bool.false_ne_true ?_
        rintro ⟨vpcId, hsome, _⟩
        cases hsome
    | some vpcId =>
        simp only [Option.map_some, decide_eq_true_eq, List.mem_toFinset, List.mem_flatMap,
          List.mem_cons, List.not_mem_nil, or_false, Option.some_inj, exists_eq_left']

end NodeState

/-! ## The cluster -/

theorem toString_port_inj {port port' : UInt16}
    (h : (toString port.toNat).toList = (toString port'.toNat).toList) : port = port' := by
  rw [Nat.toString_eq_repr, Nat.toString_eq_repr, Nat.toList_repr, Nat.toList_repr] at h
  have hvalue := congrArg (digitsValue 10) h
  rw [(toDigits_spec (by decide) (by decide) _).2, (toDigits_spec (by decide) (by decide) _).2] at hvalue
  exact UInt16.toNat_inj.mp hvalue

theorem colon_notMem_port (port : UInt16) : ':' ∉ (toString port.toNat).toList := by
  intro hmem
  rw [Nat.toString_eq_repr, Nat.toList_repr] at hmem
  exact absurd (Nat.isDigit_of_mem_toDigits (by decide) (by decide) hmem) (by decide)

/-- The part of the socket notation in front of the port. -/
def hostText (ip : String) : List Char :=
  if ':' ∈ ip.toList then '[' :: ip.toList ++ [']'] else ip.toList

theorem toList_socketNotation (ip : String) (port : UInt16) :
    (socketNotation ip port).toList = hostText ip ++ ':' :: (toString port.toNat).toList := by
  rw [socketNotation, hostText]
  split_ifs
  · simp only [String.toList_append, List.cons_append, List.append_assoc]
    rfl
  · simp only [String.toList_append, List.append_assoc]
    rfl

theorem hostText_inj {ip ip' : String} (h : hostText ip = hostText ip') : ip = ip' := by
  rw [hostText, hostText] at h
  split_ifs at h with hcolon hcolon' hcolon'
  · exact String.toList_inj.mp (List.append_cancel_right (List.cons.inj h).2)
  -- Only one of the two is in brackets: then the other has no colon.
  · exact absurd (h ▸ List.mem_append_left _ (List.mem_cons_of_mem _ hcolon)) hcolon'
  · exact absurd (h ▸ List.mem_append_left _ (List.mem_cons_of_mem _ hcolon')) hcolon
  · exact String.toList_inj.mp h

/-- Address and port can be read off the socket notation. -/
theorem socketNotation_inj {ip ip' : String} {port port' : UInt16}
    (h : socketNotation ip port = socketNotation ip' port') : ip = ip' ∧ port = port' := by
  have hrev := congrArg (fun s => s.toList.reverse) h
  simp only [toList_socketNotation, List.reverse_append, List.reverse_cons, List.append_assoc,
    List.singleton_append] at hrev
  obtain ⟨hport, hhost⟩ := append_separator_inj
    (mt List.mem_reverse.mp (colon_notMem_port port))
    (mt List.mem_reverse.mp (colon_notMem_port port')) hrev
  exact ⟨hostText_inj (List.reverse_injective hhost), toString_port_inj (List.reverse_injective hport)⟩

theorem mem_addresses_iff {svc : Service} {test : String → Bool} {endpoints : List Endpoint}
    {ip : String} : ip ∈ svc.addresses test endpoints ↔
      test ip = true ∧ ip ∈ svc.addresses (fun _ => true) endpoints := by
  rw [mem_addresses, mem_addresses, and_iff_right (rfl : (fun _ => true) ip = true)]

section Cluster

variable {ν : Type*} (c : ν → NodeState)

/-- A pod of the VPC holds the address, on some node. -/
def HeldIn (vpcName ip : String) : Prop :=
  ∃ n podId alloc, (c n).live vpcName podId = some alloc ∧
    (ip = ipv4ToString alloc.guestIpv4 ∨ ip = ipv6ToString alloc.ghostIpv6)

/-- The route of a service port has every endpoint address that a pod of the VPC holds, and none
that a pod of another VPC holds. -/
def CompleteRoute (endpoints : List Endpoint) (svc : Service) (p : ServicePort)
    (route : List String) : Prop :=
  (∀ ip ∈ svc.addresses (fun _ => true) endpoints, HeldIn c svc.vpcName ip →
    socketNotation ip p.targetPort ∈ route) ∧
  ∀ vpcName ip port, HeldIn c vpcName ip → vpcName ≠ svc.vpcName → socketNotation ip port ∉ route

/-- All service ports have complete routes. -/
def CompleteRoutes (services : List Service) (endpoints : List Endpoint)
    (table : AList fun _ : String => List String) : Prop :=
  ∀ svc ∈ services, ∀ p ∈ svc.spec.ports, ∀ clusterIp, svc.clusterIp = some clusterIp →
    CompleteRoute c endpoints svc p ((table.lookup (routeKey clusterIp p.port)).getD [])

variable (n : ν)

/-- The service port for which the node routes a key. -/
def ownerOn (services : List Service) (endpoints : List Endpoint) (key : String) :
    Option (Service × ServicePort) :=
  (routeOwners (inServiceVpc (vpcPodIps (c n).lists .allOk)) services endpoints).lookup key

/-- Every endpoint address that a pod of the VPC holds is listed by the daemon of the node itself,
and no listed one is held by a pod of another VPC; `owner` has the key of the service port. -/
def ListedLocally (endpoints : List Endpoint) (svc : Service) (p : ServicePort)
    (owner : Option (Service × ServicePort)) : Prop :=
  (∀ ip ∈ svc.addresses (fun _ => true) endpoints, HeldIn c svc.vpcName ip →
    ∃ o ∈ owner, ip ∈ o.1.addresses (fun _ => true) endpoints ∧ o.2.targetPort = p.targetPort ∧
      (c n).Lists o.1.vpcName ip) ∧
  ∀ o ∈ owner, ∀ ip ∈ o.1.addresses (fun _ => true) endpoints, (c n).Lists o.1.vpcName ip →
    ∀ vpcName, HeldIn c vpcName ip → vpcName = svc.vpcName

variable {c n}

theorem completeRoute_iff {services : List Service} {endpoints : List Endpoint} {svc : Service}
    {p : ServicePort} {key : String} :
    CompleteRoute c endpoints svc p
        (((updateRoutes services endpoints (vpcPodIps (c n).lists .allOk)).lookup key).getD []) ↔
      ListedLocally c n endpoints svc p (ownerOn c n services endpoints key) := by
  rw [updateRoutes, lookup_routes, ownerOn]
  cases (routeOwners (inServiceVpc (vpcPodIps (c n).lists .allOk)) services endpoints).lookup key with
  | none =>
      -- There is no route, so that no address must be held.
      refine and_congr (forall₃_congr fun ip hip hheld => ?_) ?_
      · refine iff_of_false List.not_mem_nil ?_
        rintro ⟨o, ho, _⟩
        cases ho
      · refine iff_of_true (fun _ _ _ _ _ => List.not_mem_nil) fun o ho => ?_
        cases ho
  | some owner =>
      have hroute : ∀ {ip port}, socketNotation ip port ∈ backends socketNotation
          (inServiceVpc (vpcPodIps (c n).lists .allOk)) endpoints owner ↔
          ip ∈ owner.1.addresses (fun _ => true) endpoints ∧ owner.2.targetPort = port ∧
            (c n).Lists owner.1.vpcName ip := by
        intro ip port
        rw [backends, List.mem_map]
        constructor
        · rintro ⟨ip', hip', heq⟩
          obtain ⟨rfl, rfl⟩ := socketNotation_inj heq
          rw [mem_addresses_iff, NodeState.inServiceVpc_lists] at hip'
          exact ⟨hip'.2, rfl, hip'.1⟩
        · rintro ⟨hip, rfl, hlists⟩
          refine ⟨ip, mem_addresses_iff.mpr ⟨?_, hip⟩, rfl⟩
          exact (NodeState.inServiceVpc_lists _ _ _).mpr hlists
      simp only [CompleteRoute, ListedLocally, Option.map_some, Option.getD_some, hroute,
        Option.mem_some_iff, exists_eq_left', forall_eq']
      refine and_congr_right fun _ => ⟨fun h ip hip hlists vpcName hheld => ?_, ?_⟩
      · by_contra hother
        exact h vpcName ip owner.2.targetPort hheld hother ⟨hip, rfl, hlists⟩
      · rintro h vpcName ip port hheld hother ⟨hip, -, hlists⟩
        exact hother (h ip hip hlists vpcName hheld)

/-- **Backends across nodes.**  After a pass whose requests all succeed, the routes of a node are
complete if and only if for each service port what the pods of its VPC hold is listed by the daemon
of this node. -/
theorem backends_across_nodes_iff (c : ν → NodeState) (n : ν) (srv : ServerLists) (now : DateTime)
    (saved : Bool) (a : AgentTables) :
    CompleteRoutes c (allServices srv .allOk srv.namespaces) (allEndpoints srv .allOk srv.namespaces)
        (syncRoutes srv (c n).lists .allOk now saved a).routes ↔
      ∀ svc ∈ allServices srv .allOk srv.namespaces, ∀ p ∈ svc.spec.ports, ∀ clusterIp,
        svc.clusterIp = some clusterIp →
          ListedLocally c n (allEndpoints srv .allOk srv.namespaces) svc p
            (ownerOn c n (allServices srv .allOk srv.namespaces)
              (allEndpoints srv .allOk srv.namespaces) (routeKey clusterIp p.port)) := by
  rw [CompleteRoutes]
  exact forall₄_congr fun svc _ p _ => forall₂_congr fun clusterIp _ => completeRoute_iff

end Cluster

/-- Two nodes that have fetched the VPC `blue`; a pod of it is started on the second. -/
def podOnSecond : Bool → NodeState :=
  run clusterCall
    (fun _ => { (NodeState.init PLATFORM_PREFIX 1).call (.syncVpcs [exampleVpc]) with
      store := VpcStore.saveVpcs {} [exampleVpc] })
    [(true, .allocate "pod" "blue")]

/-- What it is given. -/
def podAllocation : Allocation :=
  ⟨.ofOctets 10 0 0 1, construct PLATFORM_PREFIX 1 5 (.ofOctets 10 0 0 1)⟩

/-- A service of the VPC, with this pod. -/
def blueServer : ServerLists where
  namespaces := ["default"]
  services _ := [{ webService "web" "10.43.0.2" with vpc := some "blue" }]
  endpoints _ := [webEndpoint "web" [ipv6ToString podAllocation.ghostIpv6]]
  peerings := []

/-- The second node has the route, the first has not. -/
theorem backends_across_nodes_fail :
    (∃ alloc, (podOnSecond true).live "blue" "pod" = some alloc ∧
      (syncRoutes blueServer (podOnSecond true).lists .allOk 0 true upToDate).routes.lookup
        "10.43.0.2:80" = some [socketNotation (ipv6ToString alloc.ghostIpv6) 8080]) ∧
    (syncRoutes blueServer (podOnSecond false).lists .allOk 0 true upToDate).routes.lookup
      "10.43.0.2:80" = none ∧
    ¬CompleteRoutes podOnSecond (allServices blueServer .allOk blueServer.namespaces)
      (allEndpoints blueServer .allOk blueServer.namespaces)
      (syncRoutes blueServer (podOnSecond false).lists .allOk 0 true upToDate).routes := by
  have hpod : (podOnSecond true).live "blue" "pod" = some podAllocation := by decide
  have hnone : (syncRoutes blueServer (podOnSecond false).lists .allOk 0 true upToDate).routes.lookup
      "10.43.0.2:80" = none := by decide
  refine ⟨⟨podAllocation, hpod, by decide⟩, hnone, fun h => ?_⟩
  have hroute := h _ (List.mem_singleton_self _) _ (List.mem_singleton_self _) "10.43.0.2" rfl
  have hkey : routeKey "10.43.0.2" 80 = "10.43.0.2:80" := by decide
  have hmem := hroute.1 _ (List.mem_singleton_self _) ⟨true, "pod", podAllocation, hpod, Or.inr rfl⟩
  rw [show routeKey "10.43.0.2" _ = "10.43.0.2:80" from hkey, hnone] at hmem
  exact absurd hmem List.not_mem_nil

end K3rs
