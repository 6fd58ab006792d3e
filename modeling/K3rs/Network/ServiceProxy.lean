import K3rs.Network.Services

/-!
# The service proxy

A request is routed by its `Host` header.  If the header is the key of a route, one of its backends
is taken; else the proxy goes through all routes, in the order of a hash map, and takes a backend of
the first whose key starts with the header.

The cluster IPs come from a random byte, and a header may be the beginning of several keys.  So a
request may reach another service than the one it names; `upstream_peer_iff` says when it does not.
-/

namespace K3rs

open Tables

/-! ## Creating services -/

/-- A request to create a service, with what the server draws for it: an id, the time, and a random
byte. -/
structure CreateService where
  ns : String
  body : Service
  id : String
  now : DateTime
  byte : UInt8
  deriving DecidableEq, Repr

namespace CreateService

/-- The service that `create_service` stores. -/
def service (r : CreateService) : Service :=
  { r.body with
    id := r.id
    ns := r.ns
    createdAt := r.now
    vpc := some (r.body.vpc.getD "default")
    clusterIp := some (r.body.clusterIp.getD
      (CLUSTER_IP_PREFIX ++ toString (r.byte % 250 + 2).toNat)) }

/-- The key under which it is stored. -/
def key (r : CreateService) : String := "/registry/services/" ++ r.ns ++ "/" ++ r.body.name

end CreateService

/-- The services that are stored after some requests. -/
def storedServices (requests : List CreateService) : List Service :=
  (fill (requests.map fun r => (r.key, r.service))).entries.map Sigma.snd

/-! ## Choosing a backend -/

/-- The backends of a route that its load balancer has: those that can be parsed. -/
def usable (canParse : String → Bool) (table : AList fun _ : String => List String) (key : String) :
    List String :=
  ((table.lookup key).getD []).filter canParse

/-- `LoadBalancer::select`: the backends are taken in turn. -/
def select (turn : ℕ) (bs : List String) : Option String := bs[turn % bs.length]?

/-- `upstream_peer`, with the keys of the routes in the order in which they are iterated. -/
def upstreamPeer (canParse : String → Bool) (table : AList fun _ : String => List String)
    (keys : List String) (turns : String → ℕ) (host : String) : Option String :=
  match select (turns host) (usable canParse table host) with
  | some upstream => some upstream
  | none =>
      -- Fallback: try without port matching
      keys.findSome? fun key =>
        if startsWith key host then select (turns key) (usable canParse table key) else none

/-- The host may be served by the route of a key. -/
def Reaches (canParse : String → Bool) (table : AList fun _ : String => List String)
    (host key : String) : Prop :=
  key = host ∨ usable canParse table host = [] ∧ startsWith key host = true

section Selection

variable {canParse : String → Bool} {table : AList fun _ : String => List String} {host key b : String}

theorem mem_of_select {turn : ℕ} {bs : List String} (h : select turn bs = some b) : b ∈ bs :=
  List.mem_of_getElem? h

theorem select_eq_none_iff {turn : ℕ} {bs : List String} : select turn bs = none ↔ bs = [] := by
  rw [select, List.getElem?_eq_none_iff]
  constructor
  · intro hle
    by_contra hne
    exact absurd (Nat.mod_lt turn (List.length_pos_iff.mpr hne)) (Nat.not_lt.mpr hle)
  · rintro rfl
    exact Nat.zero_le _

/-- Every backend has its turn. -/
theorem exists_select {bs : List String} (h : b ∈ bs) : ∃ turn, select turn bs = some b := by
  obtain ⟨i, hi, rfl⟩ := List.mem_iff_getElem.mp h
  refine ⟨i, ?_⟩
  rw [select, Nat.mod_eq_of_lt hi, List.getElem?_eq_getElem hi]

/-- **What is selected** is of a route that the host reaches. -/
theorem reaches_of_upstreamPeer {keys : List String} {turns : String → ℕ}
    (h : upstreamPeer canParse table keys turns host = some b) :
    ∃ key, Reaches canParse table host key ∧ b ∈ usable canParse table key := by
  rw [upstreamPeer] at h
  cases hexact : select (turns host) (usable canParse table host) with
  | some upstream =>
      rw [hexact] at h
      obtain rfl := Option.some_inj.mp h
      exact ⟨host, Or.inl rfl, mem_of_select hexact⟩
  | none =>
      rw [hexact] at h
      obtain ⟨key, -, hkey⟩ := List.exists_of_findSome?_eq_some h
      split_ifs at hkey with hstart
      exact ⟨key, Or.inr ⟨select_eq_none_iff.mp hexact, hstart⟩, mem_of_select hkey⟩

/-- **Whatever the host reaches** may be selected, in some order and at some turn. -/
theorem exists_upstreamPeer (hreaches : Reaches canParse table host key)
    (hb : b ∈ usable canParse table key) : ∃ keys turns, keys.Perm table.keys ∧
      upstreamPeer canParse table keys turns host = some b := by
  obtain ⟨turn, hturn⟩ := exists_select hb
  rcases hreaches with rfl | ⟨hnone, hstart⟩
  · refine ⟨table.keys, fun _ => turn, List.Perm.refl _, ?_⟩
    rw [upstreamPeer, hturn]
  · -- The key comes first.
    have hkey : key ∈ table.keys := by
      rw [← AList.mem_keys, ← AList.lookup_isSome]
      cases hlookup : table.lookup key with
      | some bs => rfl
      | none =>
          rw [usable, hlookup] at hb
          exact absurd hb List.not_mem_nil
    refine ⟨key :: table.keys.erase key, fun _ => turn, (List.perm_cons_erase hkey).symm, ?_⟩
    rw [upstreamPeer, select_eq_none_iff.mpr hnone]
    dsimp only
    rw [List.findSome?_cons, if_pos hstart, hturn]

end Selection

/-! ## Services and hosts -/

/-- The host is the cluster IP of the service, with or without one of its ports. -/
def Addresses (host : String) (svc : Service) : Prop :=
  ∃ clusterIp ∈ svc.clusterIp,
    host = clusterIp ∨ ∃ p ∈ svc.spec.ports, host = routeKey clusterIp p.port

/-- The backend is an endpoint of the service. -/
def IsBackendOf (endpoints : List Endpoint) (svc : Service) (b : String) : Prop :=
  ∃ p ∈ svc.spec.ports, ∃ ip ∈ svc.addresses (fun _ => true) endpoints,
    b = socketNotation ip p.targetPort

/-- The service is the only one that the host addresses. -/
def IsSole (services : List Service) (host : String) (svc : Service) : Prop :=
  Addresses host svc ∧ ∀ svc' ∈ services, Addresses host svc' → svc' = svc

/-- Every route that the host reaches leads to the only service that it addresses. -/
def LeadsHome (canParse : String → Bool) (services : List Service) (endpoints : List Endpoint)
    (vpcPodIps : VpcPodIps) (host : String) : Prop :=
  ∀ key owner, (routeOwners (inServiceVpc vpcPodIps) services endpoints).lookup key = some owner →
    Reaches canParse (updateRoutes services endpoints vpcPodIps) host key →
      ∀ b ∈ (backends socketNotation (inServiceVpc vpcPodIps) endpoints owner).filter canParse,
        ∃ svc ∈ services, IsSole services host svc ∧ (owner.1 = svc ∨ IsBackendOf endpoints svc b)

instance (host : String) (svc : Service) : Decidable (Addresses host svc) := by
  unfold Addresses
  infer_instance

instance (endpoints : List Endpoint) (svc : Service) (b : String) :
    Decidable (IsBackendOf endpoints svc b) := by
  unfold IsBackendOf
  infer_instance

instance (services : List Service) (host : String) (svc : Service) :
    Decidable (IsSole services host svc) := inferInstanceAs (Decidable (_ ∧ _))

section Owners

variable {services : List Service} {endpoints : List Endpoint} {vpcPodIps : VpcPodIps} {key b : String}
  {owner : Service × ServicePort}

/-- The backends of a route are those of its owner. -/
theorem mem_usable_iff {canParse : String → Bool} :
    b ∈ usable canParse (updateRoutes services endpoints vpcPodIps) key ↔
      ∃ owner, (routeOwners (inServiceVpc vpcPodIps) services endpoints).lookup key = some owner ∧
        b ∈ (backends socketNotation (inServiceVpc vpcPodIps) endpoints owner).filter canParse := by
  rw [usable, updateRoutes, lookup_routes]
  cases (routeOwners (inServiceVpc vpcPodIps) services endpoints).lookup key with
  | none =>
      refine iff_of_false List.not_mem_nil ?_
      rintro ⟨_, howner, _⟩
      cases howner
  | some owner =>
      constructor
      · exact fun hb => ⟨owner, rfl, hb⟩
      · rintro ⟨_, howner, hb⟩
        obtain rfl := Option.some_inj.mp howner
        exact hb

theorem isBackendOf_owner
    (howner : (routeOwners (inServiceVpc vpcPodIps) services endpoints).lookup key = some owner)
    (hb : b ∈ backends socketNotation (inServiceVpc vpcPodIps) endpoints owner) :
    IsBackendOf endpoints owner.1 b := by
  obtain ⟨ip, hip, rfl⟩ := List.mem_map.mp hb
  obtain ⟨-, hp, -⟩ := mem_routedPorts.mp (mem_of_lookup_fill howner)
  exact ⟨owner.2, hp, ip, mem_addresses.mpr ⟨rfl, (mem_addresses.mp hip).2⟩, rfl⟩

end Owners

/-- **Service traffic.**  After any requests and an update of the routes, whatever the proxy selects
for a host is a backend of the only service that the host addresses, if and only if every route that
the host reaches leads there. -/
theorem upstream_peer_iff (canParse : String → Bool) (requests : List CreateService)
    (services : List Service) (hservices : services.Perm (storedServices requests))
    (endpoints : List Endpoint) (vpcPodIps : VpcPodIps) (host : String) :
    (∀ keys turns b, keys.Perm (updateRoutes services endpoints vpcPodIps).keys →
      upstreamPeer canParse (updateRoutes services endpoints vpcPodIps) keys turns host = some b →
        ∃ svc ∈ storedServices requests,
          IsSole (storedServices requests) host svc ∧ IsBackendOf endpoints svc b) ↔
      LeadsHome canParse services endpoints vpcPodIps host := by
  have hsole : ∀ {svc}, IsSole (storedServices requests) host svc ↔ IsSole services host svc := by
    intro svc
    simp only [IsSole, hservices.mem_iff]
  simp only [hsole, ← hservices.mem_iff]
  constructor
  · intro h key owner howner hreaches b hb
    obtain ⟨keys, turns, hkeys, hpeer⟩ :=
      exists_upstreamPeer hreaches (mem_usable_iff.mpr ⟨owner, howner, hb⟩)
    obtain ⟨svc, hsvc, hone, hbackend⟩ := h keys turns b hkeys hpeer
    exact ⟨svc, hsvc, hone, Or.inr hbackend⟩
  · intro h keys turns b _ hpeer
    obtain ⟨key, hreaches, hb⟩ := reaches_of_upstreamPeer hpeer
    obtain ⟨owner, howner, hb⟩ := mem_usable_iff.mp hb
    obtain ⟨svc, hsvc, hone, rfl | hbackend⟩ := h key owner howner hreaches b hb
    · exact ⟨owner.1, hsvc, hone, isBackendOf_owner howner (List.mem_filter.mp hb).1⟩
    · exact ⟨svc, hsvc, hone, hbackend⟩

/-! ## Hosts that reach another service -/

/-- A request for a service without a cluster IP. -/
def createWeb (name : String) (byte : UInt8) : CreateService where
  ns := "default"
  body := { webService name "" with clusterIp := none }
  id := name
  now := 0
  byte := byte

/-- One service alone. -/
theorem upstream_peer_iff_alone :
    (∀ keys turns b, keys.Perm (updateRoutes (storedServices [createWeb "web" 0])
        [webEndpoint "web" ["10.0.0.8"]] ∅).keys →
      upstreamPeer (fun _ => true) (updateRoutes (storedServices [createWeb "web" 0])
        [webEndpoint "web" ["10.0.0.8"]] ∅) keys turns "10.43.0.2" = some b →
        ∃ svc ∈ storedServices [createWeb "web" 0],
          IsSole (storedServices [createWeb "web" 0]) "10.43.0.2" svc ∧
            IsBackendOf [webEndpoint "web" ["10.0.0.8"]] svc b) ↔
      LeadsHome (fun _ => true) (storedServices [createWeb "web" 0]) [webEndpoint "web" ["10.0.0.8"]]
        ∅ "10.43.0.2" :=
  upstream_peer_iff (fun _ => true) [createWeb "web" 0] _ (List.Perm.refl _)
    [webEndpoint "web" ["10.0.0.8"]] ∅ "10.43.0.2"

/-- Two services, with the cluster IPs `10.43.0.2` and `10.43.0.20`. -/
def twoServices : List CreateService := [createWeb "web" 0, createWeb "api" 18]

/-- Two services with the cluster IP `10.43.0.2`. -/
def collidingServices : List CreateService := [createWeb "web" 0, createWeb "api" 250]

/-- Their pods. -/
def twoEndpoints : List Endpoint := [webEndpoint "web" ["10.0.0.8"], webEndpoint "api" ["10.0.0.9"]]

/-- The host `10.43.0.2` reaches the backend of the service at `10.43.0.20`, and of two services with
one cluster IP one gets all requests. -/
theorem upstream_peer_reaches_another :
    (∃ keys turns b, keys.Perm (updateRoutes (storedServices twoServices) twoEndpoints ∅).keys ∧
      upstreamPeer (fun _ => true) (updateRoutes (storedServices twoServices) twoEndpoints ∅) keys
        turns "10.43.0.2" = some b ∧
      ¬∃ svc ∈ storedServices twoServices, IsSole (storedServices twoServices) "10.43.0.2" svc ∧
        IsBackendOf twoEndpoints svc b) ∧
    ∃ keys turns b, keys.Perm (updateRoutes (storedServices collidingServices) twoEndpoints ∅).keys ∧
      upstreamPeer (fun _ => true) (updateRoutes (storedServices collidingServices) twoEndpoints ∅)
        keys turns "10.43.0.2:80" = some b ∧
      ¬∃ svc ∈ storedServices collidingServices,
        IsSole (storedServices collidingServices) "10.43.0.2:80" svc ∧
          IsBackendOf twoEndpoints svc b :=
  ⟨⟨["10.43.0.20:80", "10.43.0.2:80"], fun _ => 0, "10.0.0.9:8080", by decide,
      by decide, by decide⟩,
    ⟨["10.43.0.2:80"], fun _ => 0, "10.0.0.8:8080", by decide, by decide,
      by decide⟩⟩

end K3rs
