import K3rs.Server.RegistryKeys

/-!
# The endpoint controller

A pass of `EndpointController` lists the services, lists the pods, and writes an endpoint for each
service that has a selector.  The endpoint is stored under the id of the service.  Nobody removes
it: a service that is deleted, or created again with another id, leaves its endpoint behind.

A pass that runs alone makes the endpoints mirror the services, in every state of a run, if and only
if no service is deleted or replaced that has an endpoint or is going to get one
(`endpoints_mirror_iff`).
-/

namespace K3rs

open Programs Transition Joins

/-! ## Requests about services -/

namespace Api

/-- `delete_resource`, for services: nothing is removed with them. -/
def deleteService (ns name : String) : Prog String Service StatusCode := do
  let _ ← (Prog.get (serviceKey ns name)).attempt
  match ← (Prog.delete (serviceKey ns name)).attempt with
  | .ok () => return .noContent
  | .error _ => return .internalServerError

end Api

/-! ## The pass -/

/-- `matches_selector`. -/
def matchesSelector (labels selector : StringMap) : Bool :=
  selector.all fun e => decide (labels.lookup e.1 = some e.2)

/-- The VPC of a pod. -/
def Pod.effectiveVpc (p : Pod) : String := (p.vpcName.or p.spec.vpc).getD "default"

/-- The pod is a backend of the service. -/
def Service.matchesPod (svc : Service) (p : Pod) : Bool :=
  decide (p.ns = svc.ns) && decide (p.status = .running) &&
    matchesSelector p.labels svc.spec.selector && decide (p.effectiveVpc = svc.vpcName)

/-- The addresses of the backends of a service. -/
def Service.endpointAddresses (svc : Service) (pods : List Pod) : List EndpointAddress :=
  (pods.filter svc.matchesPod).filterMap fun p =>
    p.ghostIpv6.map fun ip => ⟨ip, p.nodeName, some p.id⟩

/-- The endpoint of a service. -/
def Service.endpoint (svc : Service) (pods : List Pod) (now : DateTime) : Endpoint where
  id := svc.id
  serviceId := svc.id
  serviceName := svc.name
  ns := svc.ns
  addresses := svc.endpointAddresses pods
  ports := svc.spec.ports.map fun sp => ⟨sp.name, sp.targetPort, "TCP"⟩
  createdAt := now

/-- The key of an endpoint. -/
def endpointKey (ns id : String) : String := "/registry/endpoints/" ++ ns ++ "/" ++ id

/-- Where the controller is. -/
inductive EndpointPass where
  | idle
  /-- It has listed the services and lists the pods next. -/
  | listed (services : List Service)
  /-- These services are left. -/
  | writing (services : List Service) (pods : List Pod)

/-- The services that the controller is going to write endpoints for. -/
def EndpointPass.left : EndpointPass → List Service
  | idle => []
  | listed services => services
  | writing services _ => services

/-- The registry, by kinds of objects, the controller, and the services that were created so far. -/
structure EndpointWorld where
  objects : Registry
  services : KeyValue String Service
  endpoints : KeyValue String Endpoint
  pass : EndpointPass
  created : List Service

/-- What happens next. -/
inductive EndpointStep where
  | createService (ns id : String) (now : DateTime) (byte : UInt8) (body : Service)
      (outcomes : List Outcome)
  | deleteService (ns name : String) (outcomes : List Outcome)
  /-- A request about pods: their creation and removal, and the reports about them. -/
  | pods (request : Program PodReply) (outcomes : List Outcome)
  /-- The next operation of the controller. -/
  | pass (now : DateTime) (outcome : Outcome)

namespace EndpointWorld

/-- No services, and the objects that are there. -/
def new (objects : Registry) : EndpointWorld := ⟨objects, ∅, ∅, .idle, []⟩

variable (w : EndpointWorld)

/-- The id is that of a new UUID: no other service had it, and it is a text without slashes. -/
def IsFresh (id : String) : Prop := (∀ svc ∈ w.created, svc.id ≠ id) ∧ '/' ∉ id.toList

instance (id : String) : Decidable (w.IsFresh id) := inferInstanceAs (Decidable (_ ∧ _))

/-- `create_service`. -/
def createService (ns id : String) (now : DateTime) (byte : UInt8) (body : Service)
    (outcomes : List Outcome) : EndpointWorld :=
  let (result, _, store) := (Api.createService ns id now byte body).exec outcomes w.services
  { w with
    services := store
    created := logCreated result (Api.requestedService ns id now byte body) w.created }

/-- The next operation of `EndpointController::reconcile`. -/
def passStep (now : DateTime) (outcome : Outcome) : EndpointWorld :=
  match w.pass with
  | .idle =>
      match (Op.list fun key => startsWith key "/registry/services/").answer w.services outcome with
      | .ok entries => { w with pass := .listed (entries.map Prod.snd) }
      | .error _ => w
  | .listed services =>
      match (Op.list fun key => startsWith key "/registry/pods/").answer w.objects outcome with
      | .ok entries => { w with pass := .writing services (entries.filterMap fun e => e.2.asPod) }
      | .error _ => { w with pass := .idle }
  | .writing [] _ => { w with pass := .idle }
  | .writing (svc :: rest) pods =>
      if svc.spec.selector.isEmpty then { w with pass := .writing rest pods }
      else
        match (Op.put (endpointKey svc.ns svc.id) (svc.endpoint pods now)).answer w.endpoints
            outcome with
        | .ok _ =>
            { w with
              endpoints := w.endpoints.insert (endpointKey svc.ns svc.id) (svc.endpoint pods now)
              pass := .writing rest pods }
        | .error _ => { w with pass := .idle }

/-- One step. -/
def step : EndpointStep → EndpointWorld
  | .createService ns id now byte body outcomes =>
      if w.IsFresh id then w.createService ns id now byte body outcomes else w
  | .deleteService ns name outcomes =>
      { w with services := ((Api.deleteService ns name).exec outcomes w.services).2.2 }
  | .pods request outcomes => { w with objects := (request.exec outcomes w.objects).2.2 }
  | .pass now outcome => w.passStep now outcome

/-! ## A pass alone -/

/-- The controller goes on for some operations, which all succeed, and nobody else writes. -/
def alone (n : ℕ) (now : DateTime) : EndpointWorld :=
  run step w (List.replicate n (.pass now .ok))

/-- A pass that is under way is brought to its end. -/
def finish (now : DateTime) : EndpointWorld :=
  match w.pass with
  | .idle => w
  | .listed services => w.alone (services.length + 2) now
  | .writing services _ => w.alone (services.length + 1) now

/-- A whole pass. -/
def wholePass (now : DateTime) : EndpointWorld := w.alone (w.services.rows.length + 3) now

/-! ## The property -/

/-- The service exists and has a selector. -/
def HasService (svc : Service) : Prop :=
  (∃ key, w.services.lookup key = some svc) ∧ svc.spec.selector ≠ []

/-- The pod exists. -/
def HasPod (p : Pod) : Prop :=
  ∃ key, startsWith key "/registry/pods/" = true ∧ w.objects.lookup key = some (.pod p)

/-- An endpoint has the addresses of the running pods of the service. -/
structure IsEndpointOf (svc : Service) (ep : Endpoint) : Prop where
  serviceId : ep.serviceId = svc.id
  serviceName : ep.serviceName = svc.name
  ns : ep.ns = svc.ns
  addresses : ∀ ip, ip ∈ ep.addresses.map EndpointAddress.ip ↔ ∃ p, w.HasPod p ∧
    p.ns = svc.ns ∧ p.effectiveVpc = svc.vpcName ∧ p.status = .running ∧
      (∀ e ∈ svc.spec.selector, p.labels.lookup e.1 = some e.2) ∧ p.ghostIpv6 = some ip

/-- The endpoints are exactly one for each service with a selector. -/
structure Mirrors : Prop where
  sound : ∀ key ep, w.endpoints.lookup key = some ep →
    ∃ svc, w.HasService svc ∧ key = endpointKey svc.ns svc.id ∧ w.IsEndpointOf svc ep
  complete : ∀ svc, w.HasService svc → ∃ ep, w.endpoints.lookup (endpointKey svc.ns svc.id) = some ep
  distinct : ∀ svc svc', w.HasService svc → w.HasService svc' →
    endpointKey svc.ns svc.id = endpointKey svc'.ns svc'.id → svc = svc'

/-- After a pass without other writers the endpoints mirror the services. -/
def MirrorsAfterPass : Prop := ∀ now now', ((w.finish now).wholePass now').Mirrors

/-- The service has an endpoint or is going to get one. -/
def HasEndpoint (svc : Service) : Prop :=
  svc.spec.selector ≠ [] ∧
    ((w.endpoints.lookup (endpointKey svc.ns svc.id)).isSome = true ∨ svc ∈ w.pass.left)

/-- The condition on a step: a service that is deleted or replaced has no endpoint and is not going
to get one. -/
def Fits : EndpointStep → Prop
  | .createService ns id _ _ body outcomes =>
      w.IsFresh id → KeyHistory.fails (outcomes.headD .ok) = false →
        ∀ svc ∈ w.services.lookup (serviceKey ns body.name), ¬w.HasEndpoint svc
  | .deleteService ns name outcomes =>
      KeyHistory.fails (outcomes.tail.headD .ok) = false →
        ∀ svc ∈ w.services.lookup (serviceKey ns name), ¬w.HasEndpoint svc
  | _ => True

/-! ## The loop over the services -/

/-- What the loop writes. -/
def writeAll (pods : List Pod) (now : DateTime) (services : List Service)
    (endpoints : KeyValue String Endpoint) : KeyValue String Endpoint :=
  services.foldl (fun t svc =>
    if svc.spec.selector.isEmpty then t
    else t.insert (endpointKey svc.ns svc.id) (svc.endpoint pods now)) endpoints

/-- Under a key is the endpoint of a service of the loop, or what was there before. -/
theorem lookup_writeAll (pods : List Pod) (now : DateTime) (services : List Service)
    (endpoints : KeyValue String Endpoint) (key : String) :
    (∃ svc ∈ services, svc.spec.selector ≠ [] ∧ endpointKey svc.ns svc.id = key ∧
        (writeAll pods now services endpoints).lookup key = some (svc.endpoint pods now)) ∨
      (∀ svc ∈ services, svc.spec.selector ≠ [] → endpointKey svc.ns svc.id ≠ key) ∧
        (writeAll pods now services endpoints).lookup key = endpoints.lookup key := by
  induction services generalizing endpoints with
  | nil => exact Or.inr ⟨fun svc hsvc => absurd hsvc List.not_mem_nil, rfl⟩
  | cons svc rest ih =>
      rw [writeAll, List.foldl_cons]
      rcases ih (if svc.spec.selector.isEmpty then endpoints
        else endpoints.insert (endpointKey svc.ns svc.id) (svc.endpoint pods now)) with
        ⟨svc', hmem, hne, hkey, hlookup⟩ | ⟨hnone, hlookup⟩
      · exact Or.inl ⟨svc', List.mem_cons_of_mem svc hmem, hne, hkey, hlookup⟩
      · by_cases hwritten : svc.spec.selector ≠ [] ∧ endpointKey svc.ns svc.id = key
        · obtain ⟨hne, hkey⟩ := hwritten
          refine Or.inl ⟨svc, List.mem_cons_self, hne, hkey, hlookup.trans ?_⟩
          rw [if_neg (by simpa using hne), hkey, KeyValue.lookup_insert_self]
        · refine Or.inr ⟨?_, hlookup.trans ?_⟩
          · intro svc' hmem hne hkey
            rcases List.mem_cons.mp hmem with rfl | hmem
            · exact hwritten ⟨hne, hkey⟩
            · exact hnone svc' hmem hne hkey
          · split_ifs with hempty
            · rfl
            · refine KeyValue.lookup_insert_of_ne fun hkey => hwritten ⟨?_, hkey.symm⟩
              simpa using hempty

/-- The pods that are listed. -/
def listedPods (w : EndpointWorld) : List Pod :=
  (w.objects.scan fun key => startsWith key "/registry/pods/").filterMap fun e => e.2.asPod

variable {w : EndpointWorld}

theorem alone_writing (now : DateTime) (pods : List Pod) (services : List Service) :
    ∀ {w : EndpointWorld}, w.pass = .writing services pods → w.alone (services.length + 1) now =
      { w with pass := .idle, endpoints := writeAll pods now services w.endpoints } := by
  induction services with
  | nil =>
      intro w hpass
      change w.passStep now .ok = _
      rw [passStep, hpass]
      rfl
  | cons svc rest ih =>
      intro w hpass
      change (w.passStep now .ok).alone (rest.length + 1) now = _
      have hstep : w.passStep now .ok = { w with
          pass := .writing rest pods
          endpoints := if svc.spec.selector.isEmpty then w.endpoints
            else w.endpoints.insert (endpointKey svc.ns svc.id) (svc.endpoint pods now) } := by
        rw [passStep, hpass]
        dsimp only
        split_ifs <;> rfl
      rw [hstep, ih rfl]
      rfl

theorem alone_listed (now : DateTime) {services : List Service}
    (hpass : w.pass = .listed services) : w.alone (services.length + 2) now =
      { w with pass := .idle, endpoints := writeAll w.listedPods now services w.endpoints } := by
  change (w.passStep now .ok).alone (services.length + 1) now = _
  have hstep : w.passStep now .ok = { w with pass := .writing services w.listedPods } := by
    rw [passStep, hpass]
    rfl
  rw [hstep, alone_writing now w.listedPods services rfl]

/-- A pass that is brought to its end writes the endpoints of the services that are left. -/
theorem finish_eq (w : EndpointWorld) (now : DateTime) : ∃ pods, w.finish now =
    { w with pass := .idle, endpoints := writeAll pods now w.pass.left w.endpoints } := by
  obtain ⟨objects, services, endpoints, pass, created⟩ := w
  cases pass with
  | idle => exact ⟨[], rfl⟩
  | listed left => exact ⟨_, alone_listed now rfl⟩
  | writing left pods => exact ⟨pods, alone_writing now pods left rfl⟩

/-! ## The invariant -/

/-- Every service and every endpoint goes back to a service that was created, and services differ in
their ids. -/
structure Known (w : EndpointWorld) : Prop where
  keyed : ∀ key svc, w.services.lookup key = some svc →
    key = serviceKey svc.ns svc.name ∧ svc ∈ w.created
  left : ∀ svc ∈ w.pass.left, svc ∈ w.created
  stored : ∀ key ep, w.endpoints.lookup key = some ep →
    ∃ svc ∈ w.created, svc.spec.selector ≠ [] ∧ key = endpointKey svc.ns svc.id
  ids : ∀ svc ∈ w.created, '/' ∉ svc.id.toList
  inj : ∀ a ∈ w.created, ∀ b ∈ w.created, a.id = b.id → a = b

/-- The services that have an endpoint, or are going to get one, exist. -/
def NoneStale (w : EndpointWorld) : Prop :=
  ∀ svc ∈ w.created, w.HasEndpoint svc →
    w.services.lookup (serviceKey svc.ns svc.name) = some svc

/-- An endpoint is that of one service. -/
theorem Known.eq_of_key (hknown : w.Known) {a b : Service} (ha : a ∈ w.created)
    (hb : b ∈ w.created) (hkey : endpointKey a.ns a.id = endpointKey b.ns b.id) : a = b := by
  refine hknown.inj a ha b hb (String.toList_injective ?_)
  exact (join_inj_of_right (hknown.ids a ha) (hknown.ids b hb) (KeyHistory.key_eq_iff.mp hkey)).2

/-- Every service that exists is listed. -/
theorem mem_services (hknown : w.Known) {svc : Service} :
    svc ∈ (w.services.scan fun key => startsWith key "/registry/services/").map Prod.snd ↔
      w.services.lookup (serviceKey svc.ns svc.name) = some svc := by
  rw [List.mem_map]
  constructor
  · rintro ⟨⟨key, svc⟩, hmem, rfl⟩
    obtain ⟨hlookup, -⟩ := KeyValue.mem_scan.mp hmem
    rw [← (hknown.keyed key svc hlookup).1]
    exact hlookup
  · intro hlookup
    refine ⟨(serviceKey svc.ns svc.name, svc), KeyValue.mem_scan.mpr ⟨hlookup, ?_⟩, rfl⟩
    exact startsWith_append_left (startsWith_append_left (startsWith_append _ _) _) _

theorem hasService_iff (hknown : w.Known) {svc : Service} : w.HasService svc ↔
    w.services.lookup (serviceKey svc.ns svc.name) = some svc ∧ svc.spec.selector ≠ [] := by
  refine and_congr_left fun _ => ⟨?_, fun hlookup => ⟨_, hlookup⟩⟩
  rintro ⟨key, hlookup⟩
  rw [← (hknown.keyed key svc hlookup).1]
  exact hlookup

/-- All services are below their directory. -/
theorem scan_services (hknown : w.Known) :
    (w.services.scan fun key => startsWith key "/registry/services/") = w.services.rows := by
  refine List.filter_eq_self.mpr ?_
  rintro ⟨key, svc⟩ hmem
  rw [(hknown.keyed key svc (KeyValue.lookup_eq_some.mpr hmem)).1]
  exact startsWith_append_left (startsWith_append_left (startsWith_append _ _) _) _

/-- A whole pass writes the endpoints of all services. -/
theorem wholePass_eq (hknown : w.Known) (hidle : w.pass = .idle) (now : DateTime) :
    w.wholePass now = { w with
      endpoints := writeAll w.listedPods now (w.services.rows.map Prod.snd) w.endpoints } := by
  change (w.passStep now .ok).alone (w.services.rows.length + 2) now = _
  have hstep : w.passStep now .ok =
      { w with pass := .listed (w.services.rows.map Prod.snd) } := by
    rw [passStep, hidle, ← scan_services hknown]
    rfl
  have hlength : w.services.rows.length = (w.services.rows.map Prod.snd).length := by simp
  rw [hstep, hlength, alone_listed now rfl, ← hidle]
  rfl

theorem mem_listedPods {p : Pod} : p ∈ w.listedPods ↔ w.HasPod p := by
  rw [listedPods, List.mem_filterMap]
  constructor
  · rintro ⟨⟨key, v⟩, hmem, hv⟩
    obtain ⟨hlookup, hdir⟩ := KeyValue.mem_scan.mp hmem
    rw [Object.asPod_eq_some.mp hv] at hlookup
    exact ⟨key, hdir, hlookup⟩
  · rintro ⟨key, hdir, hlookup⟩
    exact ⟨(key, .pod p), KeyValue.mem_scan.mpr ⟨hlookup, hdir⟩, rfl⟩

theorem matchesPod_iff {svc : Service} {p : Pod} : svc.matchesPod p = true ↔
    p.ns = svc.ns ∧ p.effectiveVpc = svc.vpcName ∧ p.status = .running ∧
      ∀ e ∈ svc.spec.selector, p.labels.lookup e.1 = some e.2 := by
  rw [Service.matchesPod, matchesSelector, Bool.and_eq_true, Bool.and_eq_true, Bool.and_eq_true,
    decide_eq_true_eq, decide_eq_true_eq, decide_eq_true_eq, List.all_eq_true]
  simp only [decide_eq_true_eq]
  tauto

/-- **What the controller writes** is the endpoint of the service. -/
theorem isEndpointOf_endpoint (svc : Service) (now : DateTime) :
    w.IsEndpointOf svc (svc.endpoint w.listedPods now) where
  serviceId := rfl
  serviceName := rfl
  ns := rfl
  addresses ip := by
    change ip ∈ (svc.endpointAddresses w.listedPods).map EndpointAddress.ip ↔ _
    rw [Service.endpointAddresses, List.mem_map]
    constructor
    · rintro ⟨a, ha, rfl⟩
      obtain ⟨p, hp, hghost⟩ := List.mem_filterMap.mp ha
      obtain ⟨hlisted, hmatches⟩ := List.mem_filter.mp hp
      obtain ⟨ip, hip, rfl⟩ := Option.map_eq_some_iff.mp hghost
      obtain ⟨hns, hvpc, hrunning, hlabels⟩ := matchesPod_iff.mp hmatches
      exact ⟨p, mem_listedPods.mp hlisted, hns, hvpc, hrunning, hlabels, hip⟩
    · rintro ⟨p, hpod, hns, hvpc, hrunning, hlabels, hip⟩
      refine ⟨⟨ip, p.nodeName, some p.id⟩, List.mem_filterMap.mpr ⟨p, List.mem_filter.mpr
        ⟨mem_listedPods.mpr hpod, matchesPod_iff.mpr ⟨hns, hvpc, hrunning, hlabels⟩⟩, ?_⟩, rfl⟩
      rw [hip]
      rfl

/-! ## What is stale -/

/-- The endpoints behind a whole pass. -/
def passEndpoints (w : EndpointWorld) (pods : List Pod) (now now' : DateTime) :
    KeyValue String Endpoint :=
  writeAll w.listedPods now' (w.services.rows.map Prod.snd)
    (writeAll pods now w.pass.left w.endpoints)

theorem wholePass_finish (hknown : w.Known) (now now' : DateTime) : ∃ pods,
    (w.finish now).wholePass now' =
      { w with pass := .idle, endpoints := w.passEndpoints pods now now' } := by
  obtain ⟨pods, hfinish⟩ := w.finish_eq now
  refine ⟨pods, ?_⟩
  have hidle : Known
      { w with pass := .idle, endpoints := writeAll pods now w.pass.left w.endpoints } := by
    refine ⟨hknown.keyed, fun svc hsvc => absurd hsvc List.not_mem_nil, fun key ep hlookup => ?_,
      hknown.ids, hknown.inj⟩
    rcases lookup_writeAll pods now w.pass.left w.endpoints key with
      ⟨svc, hsvc, hne, hkey, -⟩ | ⟨-, hold⟩
    · exact ⟨svc, hknown.left svc hsvc, hne, hkey.symm⟩
    · exact hknown.stored key ep (hold.symm.trans hlookup)
  rw [hfinish, wholePass_eq hidle rfl]
  rfl

/-- **A pass alone** makes the endpoints mirror the services if and only if none is stale. -/
theorem mirrorsAfterPass_iff (hknown : w.Known) : w.MirrorsAfterPass ↔ w.NoneStale := by
  have hrows : ∀ svc, svc ∈ w.services.rows.map Prod.snd ↔
      w.services.lookup (serviceKey svc.ns svc.name) = some svc := by
    intro svc
    rw [← scan_services hknown]
    exact mem_services hknown
  constructor
  · intro hmirrors svc hcreated hendpoint
    obtain ⟨hne, hthere⟩ := hendpoint
    obtain ⟨pods, hpass⟩ := wholePass_finish hknown 0 0
    have hsound := (hmirrors 0 0).sound
    rw [hpass] at hsound
    -- the endpoint is still there behind the pass
    have hsome : ((w.passEndpoints pods 0 0).lookup (endpointKey svc.ns svc.id)).isSome = true := by
      rcases lookup_writeAll w.listedPods 0 (w.services.rows.map Prod.snd)
        (writeAll pods 0 w.pass.left w.endpoints) (endpointKey svc.ns svc.id) with
        ⟨svc', -, -, -, hlookup⟩ | ⟨-, hlookup⟩
      · exact Option.isSome_of_eq_some hlookup
      · rw [passEndpoints, hlookup]
        rcases lookup_writeAll pods 0 w.pass.left w.endpoints (endpointKey svc.ns svc.id) with
          ⟨svc', -, -, -, hlookup'⟩ | ⟨hnone, hlookup'⟩
        · exact Option.isSome_of_eq_some hlookup'
        · rw [hlookup']
          exact hthere.resolve_right fun hleft => hnone svc hleft hne rfl
    obtain ⟨ep, hep⟩ := Option.isSome_iff_exists.mp hsome
    obtain ⟨svc', hservice, hkey, -⟩ := hsound _ ep hep
    obtain ⟨hlookup, -⟩ := (hasService_iff hknown).mp hservice
    obtain rfl : svc = svc' := hknown.eq_of_key hcreated (hknown.keyed _ _ hlookup).2 hkey
    exact hlookup
  · intro hnone now now'
    obtain ⟨pods, hpass⟩ := wholePass_finish hknown now now'
    rw [hpass]
    refine ⟨fun key ep hlookup => ?_, fun svc hservice => ?_, fun svc svc' hs hs' hkey => ?_⟩
    · rcases lookup_writeAll w.listedPods now' (w.services.rows.map Prod.snd)
        (writeAll pods now w.pass.left w.endpoints) key with
        ⟨svc, hsvc, hne, rfl, hnew⟩ | ⟨hother, hold⟩
      · refine ⟨svc, ⟨⟨_, (hrows svc).mp hsvc⟩, hne⟩, rfl, ?_⟩
        obtain rfl : svc.endpoint w.listedPods now' = ep :=
          Option.some_inj.mp (hnew.symm.trans hlookup)
        exact isEndpointOf_endpoint svc now'
      · -- what was there before is stale
        have hstale : ∀ svc ∈ w.created, w.HasEndpoint svc → endpointKey svc.ns svc.id ≠ key :=
          fun svc hcreated hendpoint =>
            hother svc ((hrows svc).mpr (hnone svc hcreated hendpoint)) hendpoint.1
        rcases lookup_writeAll pods now w.pass.left w.endpoints key with
          ⟨svc, hleft, hne, hkey, -⟩ | ⟨-, hthere⟩
        · exact absurd hkey (hstale svc (hknown.left svc hleft) ⟨hne, Or.inr hleft⟩)
        · have hep : w.endpoints.lookup key = some ep :=
            hthere.symm.trans (hold.symm.trans hlookup)
          obtain ⟨svc, hcreated, hne, hkey⟩ := hknown.stored key ep hep
          refine absurd hkey.symm (hstale svc hcreated ⟨hne, Or.inl ?_⟩)
          rw [← hkey, hep]
          rfl
    · obtain ⟨hlookup, hne⟩ := (hasService_iff hknown).mp hservice
      rcases lookup_writeAll w.listedPods now' (w.services.rows.map Prod.snd)
        (writeAll pods now w.pass.left w.endpoints) (endpointKey svc.ns svc.id) with
        ⟨svc', -, -, -, hnew⟩ | ⟨hother, -⟩
      · exact ⟨_, hnew⟩
      · exact absurd rfl (hother svc ((hrows svc).mpr hlookup) hne)
    · obtain ⟨hlookup, -⟩ := (hasService_iff hknown).mp hs
      obtain ⟨hlookup', -⟩ := (hasService_iff hknown).mp hs'
      exact hknown.eq_of_key (hknown.keyed _ _ hlookup).2 (hknown.keyed _ _ hlookup').2 hkey

/-! ## Every step -/

/-- Nothing becomes stale if the services remain and no other service gets an endpoint. -/
theorem NoneStale.mono {w' : EndpointWorld} (hnone : w.NoneStale) (hcreated : w'.created = w.created)
    (hservices : w'.services = w.services)
    (hendpoint : ∀ svc ∈ w.created, w'.HasEndpoint svc → w.HasEndpoint svc ∨
      w.services.lookup (serviceKey svc.ns svc.name) = some svc) : w'.NoneStale := by
  intro svc hsvc hthere
  rw [hcreated] at hsvc
  rw [hservices]
  exact (hendpoint svc hsvc hthere).elim (hnone svc hsvc) id

/-- What one operation of the controller does: it writes an endpoint of a service that was left, or
none. -/
theorem passStep_cases (w : EndpointWorld) (now : DateTime) (outcome : Outcome) :
    ((w.passStep now outcome).services = w.services ∧
      (w.passStep now outcome).created = w.created) ∧
    (((w.passStep now outcome).endpoints = w.endpoints ∧
        ∀ svc ∈ (w.passStep now outcome).pass.left, svc ∈ w.pass.left ∨
          ∃ key, w.services.lookup key = some svc) ∨
      ∃ svc ∈ w.pass.left, svc.spec.selector ≠ [] ∧
        (∃ ep, (w.passStep now outcome).endpoints =
          w.endpoints.insert (endpointKey svc.ns svc.id) ep) ∧
        ∀ svc' ∈ (w.passStep now outcome).pass.left, svc' ∈ w.pass.left) := by
  rw [passStep]
  cases hpass : w.pass with
  | idle =>
      dsimp only
      cases outcome with
      | fail e =>
          refine ⟨⟨rfl, rfl⟩, Or.inl ⟨rfl, fun svc hsvc => Or.inl ?_⟩⟩
          rw [← hpass]
          exact hsvc
      | ok =>
          refine ⟨⟨rfl, rfl⟩, Or.inl ⟨rfl, fun svc hsvc => Or.inr ?_⟩⟩
          obtain ⟨e, he, rfl⟩ := List.mem_map.mp hsvc
          exact ⟨e.1, (KeyValue.mem_scan.mp he).1⟩
      | cut n =>
          refine ⟨⟨rfl, rfl⟩, Or.inl ⟨rfl, fun svc hsvc => Or.inr ?_⟩⟩
          obtain ⟨e, he, rfl⟩ := List.mem_map.mp hsvc
          exact ⟨e.1, (KeyValue.mem_scan.mp (List.mem_of_mem_take he)).1⟩
  | listed services =>
      cases outcome with
      | fail e => exact ⟨⟨rfl, rfl⟩, Or.inl ⟨rfl, fun svc hsvc => absurd hsvc List.not_mem_nil⟩⟩
      | ok => exact ⟨⟨rfl, rfl⟩, Or.inl ⟨rfl, fun svc hsvc => Or.inl hsvc⟩⟩
      | cut n => exact ⟨⟨rfl, rfl⟩, Or.inl ⟨rfl, fun svc hsvc => Or.inl hsvc⟩⟩
  | writing services pods =>
      cases services with
      | nil => exact ⟨⟨rfl, rfl⟩, Or.inl ⟨rfl, fun svc hsvc => absurd hsvc List.not_mem_nil⟩⟩
      | cons svc rest =>
          have hrest : ∀ svc' ∈ rest, svc' ∈ (EndpointPass.writing (svc :: rest) pods).left :=
            fun svc' => List.mem_cons_of_mem svc
          dsimp only
          split_ifs with hempty
          · exact ⟨⟨rfl, rfl⟩, Or.inl ⟨rfl, fun svc' hsvc' => Or.inl (hrest svc' hsvc')⟩⟩
          · have hne : svc.spec.selector ≠ [] := by simpa using hempty
            cases outcome with
            | fail e =>
                exact ⟨⟨rfl, rfl⟩, Or.inl ⟨rfl, fun svc hsvc => absurd hsvc List.not_mem_nil⟩⟩
            | ok =>
                exact ⟨⟨rfl, rfl⟩, Or.inr ⟨svc, List.mem_cons_self, hne, ⟨_, rfl⟩, hrest⟩⟩
            | cut n =>
                exact ⟨⟨rfl, rfl⟩, Or.inr ⟨svc, List.mem_cons_self, hne, ⟨_, rfl⟩, hrest⟩⟩

theorem Known.passStep (hknown : w.Known) (now : DateTime) (outcome : Outcome) :
    (w.passStep now outcome).Known := by
  obtain ⟨⟨hservices, hcreated⟩, hcases⟩ := w.passStep_cases now outcome
  have hleft : ∀ svc ∈ (w.passStep now outcome).pass.left, svc ∈ w.created := by
    intro svc hsvc
    rcases hcases with ⟨-, hleft⟩ | ⟨-, -, -, -, hleft⟩
    · rcases hleft svc hsvc with hold | ⟨key, hlookup⟩
      · exact hknown.left svc hold
      · exact (hknown.keyed key svc hlookup).2
    · exact hknown.left svc (hleft svc hsvc)
  refine ⟨?_, ?_, ?_, ?_, ?_⟩
  · rw [hservices, hcreated]
    exact hknown.keyed
  · rw [hcreated]
    exact hleft
  · rw [hcreated]
    intro key ep hlookup
    rcases hcases with ⟨hendpoints, -⟩ | ⟨svc, hsvc, hne, ⟨ep', hendpoints⟩, -⟩
    · rw [hendpoints] at hlookup
      exact hknown.stored key ep hlookup
    · rw [hendpoints] at hlookup
      by_cases hkey : key = endpointKey svc.ns svc.id
      · exact ⟨svc, hknown.left svc hsvc, hne, hkey⟩
      · rw [KeyValue.lookup_insert_of_ne hkey] at hlookup
        exact hknown.stored key ep hlookup
  · rw [hcreated]
    exact hknown.ids
  · rw [hcreated]
    exact hknown.inj

/-- The controller writes endpoints of services that exist. -/
theorem NoneStale.passStep (hknown : w.Known) (hnone : w.NoneStale) (now : DateTime)
    (outcome : Outcome) : (w.passStep now outcome).NoneStale := by
  obtain ⟨⟨hservices, hcreated⟩, hcases⟩ := w.passStep_cases now outcome
  refine hnone.mono hcreated hservices fun svc hsvc hthere => ?_
  obtain ⟨hne, hthere⟩ := hthere
  rcases hcases with ⟨hendpoints, hleft⟩ | ⟨svc', hsvc', hne', ⟨ep, hendpoints⟩, hleft⟩
  · rcases hthere with hstored | hpending
    · rw [hendpoints] at hstored
      exact Or.inl ⟨hne, Or.inl hstored⟩
    · rcases hleft svc hpending with hold | ⟨key, hlookup⟩
      · exact Or.inl ⟨hne, Or.inr hold⟩
      · rw [← (hknown.keyed key svc hlookup).1]
        exact Or.inr hlookup
  · rcases hthere with hstored | hpending
    · rw [hendpoints] at hstored
      by_cases hkey : endpointKey svc.ns svc.id = endpointKey svc'.ns svc'.id
      · obtain rfl := hknown.eq_of_key hsvc (hknown.left svc' hsvc') hkey
        exact Or.inl ⟨hne', Or.inr hsvc'⟩
      · rw [KeyValue.lookup_insert_of_ne hkey] at hstored
        exact Or.inl ⟨hne, Or.inl hstored⟩
    · exact Or.inl ⟨hne, Or.inr (hleft svc hpending)⟩

theorem exec_deleteService (ns name : String) (outcomes : List Outcome)
    (store : KeyValue String Service) :
    ((Api.deleteService ns name).exec outcomes store).2.2 =
      if KeyHistory.fails (outcomes.tail.headD .ok) = true then store
      else store.erase (serviceKey ns name) := by
  have hget : (Op.get (serviceKey ns name)).apply store (outcomes.headD .ok) = store := by
    cases outcomes.headD .ok <;> rfl
  rw [Api.deleteService, Prog.exec_bind, Prog.exec_attempt, Prog.get, Prog.exec]
  dsimp only [Prog.exec]
  rw [Prog.exec_bind, Prog.exec_attempt, hget, Prog.delete, Prog.exec]
  cases outcomes.tail.headD .ok <;> rfl

/-- What a request to create a service leaves. -/
theorem createService_cases (w : EndpointWorld) (ns id : String) (now : DateTime) (byte : UInt8)
    (body : Service) (outcomes : List Outcome) :
    (KeyHistory.fails (outcomes.headD .ok) = true ∧
        w.createService ns id now byte body outcomes = w) ∨
      KeyHistory.fails (outcomes.headD .ok) = false ∧
        w.createService ns id now byte body outcomes =
          { w with
            services := w.services.insert (serviceKey ns body.name)
              (Api.requestedService ns id now byte body)
            created := Api.requestedService ns id now byte body :: w.created } := by
  rw [EndpointWorld.createService, Api.createService, KeyHistory.exec_storeObject]
  cases hfails : KeyHistory.fails (outcomes.headD .ok) with
  | true => exact Or.inl ⟨rfl, rfl⟩
  | false => exact Or.inr ⟨rfl, rfl⟩

/-- A new service. -/
theorem Known.insert (hknown : w.Known) (svc : Service) (hfresh : w.IsFresh svc.id) :
    Known { w with
      services := w.services.insert (serviceKey svc.ns svc.name) svc
      created := svc :: w.created } := by
  obtain ⟨hnew, hslash⟩ := hfresh
  refine ⟨fun key svc' hlookup => ?_, fun svc' hsvc' => ?_, fun key ep hlookup => ?_,
    List.forall_mem_cons.mpr ⟨hslash, hknown.ids⟩, fun a ha b hb hids => ?_⟩
  · by_cases hkey : key = serviceKey svc.ns svc.name
    · rw [hkey, KeyValue.lookup_insert_self, Option.some_inj] at hlookup
      rw [← hlookup]
      exact ⟨hkey, List.mem_cons_self⟩
    · rw [KeyValue.lookup_insert_of_ne hkey] at hlookup
      obtain ⟨hown, hmem⟩ := hknown.keyed key svc' hlookup
      exact ⟨hown, List.mem_cons_of_mem svc hmem⟩
  · exact List.mem_cons_of_mem svc (hknown.left svc' hsvc')
  · obtain ⟨svc', hmem, hne, hkey⟩ := hknown.stored key ep hlookup
    exact ⟨svc', List.mem_cons_of_mem svc hmem, hne, hkey⟩
  · rcases List.mem_cons.mp ha with rfl | haOld
    · rcases List.mem_cons.mp hb with rfl | hbOld
      · rfl
      · exact absurd hids.symm (hnew b hbOld)
    · rcases List.mem_cons.mp hb with rfl | hbOld
      · exact absurd hids (hnew a haOld)
      · exact hknown.inj a haOld b hbOld hids

/-- A new service makes stale the one that it replaces. -/
theorem noneStale_insert_iff (hknown : w.Known) (hnone : w.NoneStale) (svc : Service)
    (hfresh : w.IsFresh svc.id) :
    NoneStale { w with
      services := w.services.insert (serviceKey svc.ns svc.name) svc
      created := svc :: w.created } ↔
    ∀ old ∈ w.services.lookup (serviceKey svc.ns svc.name), ¬w.HasEndpoint old := by
  constructor
  · intro hafter old hold hthere
    obtain ⟨hkey, hmem⟩ := hknown.keyed _ old hold
    have hlookup := hafter old (List.mem_cons_of_mem svc hmem) hthere
    rw [← hkey, KeyValue.lookup_insert_self, Option.some_inj] at hlookup
    exact hfresh.1 old hmem (congrArg Service.id hlookup.symm)
  · intro hfits svc' hsvc' hthere
    rcases List.mem_cons.mp hsvc' with rfl | hmem
    · exact KeyValue.lookup_insert_self _ _ _
    · have hlookup := hnone svc' hmem hthere
      by_cases hkey : serviceKey svc'.ns svc'.name = serviceKey svc.ns svc.name
      · rw [hkey] at hlookup
        exact absurd hthere (hfits svc' hlookup)
      · exact (KeyValue.lookup_insert_of_ne hkey).trans hlookup

/-- A removal makes the service stale. -/
theorem noneStale_erase_iff (hknown : w.Known) (hnone : w.NoneStale) {key : String} :
    NoneStale { w with services := w.services.erase key } ↔
      ∀ old ∈ w.services.lookup key, ¬w.HasEndpoint old := by
  constructor
  · intro hafter old hold hthere
    obtain ⟨hkey, hmem⟩ := hknown.keyed key old hold
    have hlookup := hafter old hmem hthere
    rw [← hkey, KeyValue.lookup_erase_self] at hlookup
    cases hlookup
  · intro hfits svc hmem hthere
    have hlookup := hnone svc hmem hthere
    by_cases hkey : serviceKey svc.ns svc.name = key
    · rw [hkey] at hlookup
      exact absurd hthere (hfits svc hlookup)
    · exact (KeyValue.lookup_erase_of_ne hkey).trans hlookup

theorem Known.step (hknown : w.Known) (i : EndpointStep) : (w.step i).Known := by
  cases i with
  | createService ns id now byte body outcomes =>
      rw [EndpointWorld.step]
      split_ifs with hfresh
      · rcases w.createService_cases ns id now byte body outcomes with ⟨-, hsame⟩ | ⟨-, hnew⟩
        · rw [hsame]
          exact hknown
        · rw [hnew]
          exact hknown.insert (Api.requestedService ns id now byte body) hfresh
      · exact hknown
  | deleteService ns name outcomes =>
      rw [EndpointWorld.step, exec_deleteService]
      refine ⟨fun key svc hlookup => ?_, hknown.left, hknown.stored, hknown.ids, hknown.inj⟩
      dsimp only at hlookup
      split_ifs at hlookup
      · exact hknown.keyed key svc hlookup
      · rw [KeyValue.lookup_erase] at hlookup
        split_ifs at hlookup
        exact hknown.keyed key svc hlookup
  | pods request outcomes =>
      exact ⟨hknown.keyed, hknown.left, hknown.stored, hknown.ids, hknown.inj⟩
  | pass now outcome => exact hknown.passStep now outcome

theorem noneStale_step_iff (hknown : w.Known) (hnone : w.NoneStale) (i : EndpointStep) :
    (w.step i).NoneStale ↔ w.Fits i := by
  cases i with
  | createService ns id now byte body outcomes =>
      rw [EndpointWorld.step]
      split_ifs with hfresh
      · rcases w.createService_cases ns id now byte body outcomes with
          ⟨hfails, hsame⟩ | ⟨hfails, hnew⟩
        · rw [hsame]
          refine iff_of_true hnone fun _ hok => ?_
          rw [hfails] at hok
          cases hok
        · rw [hnew]
          refine (noneStale_insert_iff hknown hnone
            (Api.requestedService ns id now byte body) hfresh).trans ?_
          exact ⟨fun hfits _ _ => hfits, fun hfits => hfits hfresh hfails⟩
      · exact iff_of_true hnone fun hfresh' => absurd hfresh' hfresh
  | deleteService ns name outcomes =>
      rw [EndpointWorld.step, exec_deleteService]
      cases hfails : KeyHistory.fails (outcomes.tail.headD .ok) with
      | true =>
          refine iff_of_true hnone fun hok => ?_
          rw [hfails] at hok
          cases hok
      | false =>
          refine (noneStale_erase_iff hknown hnone).trans ?_
          exact ⟨fun hfits _ => hfits, fun hfits => hfits hfails⟩
  | pods request outcomes => exact iff_of_true hnone trivial
  | pass now outcome => exact iff_of_true (hnone.passStep hknown now outcome) trivial

theorem known_new (objects : Registry) : (new objects).Known where
  keyed key svc hlookup := by cases hlookup
  left svc hsvc := by cases hsvc
  stored key ep hlookup := by cases hlookup
  ids svc hsvc := by cases hsvc
  inj a ha := by cases ha

/-- **Endpoints mirror services** after a pass alone, in every state of a run, exactly if no service
is deleted or replaced that has an endpoint or is going to get one. -/
theorem endpoints_mirror_iff (objects : Registry) (steps : List EndpointStep) :
    Along step MirrorsAfterPass (new objects) steps ↔ Admitted step Fits (new objects) steps := by
  refine along_iff_admitted Known MirrorsAfterPass (fun _ i hknown => hknown.step i)
    (fun w i hknown hmirrors => ?_) (known_new objects) ?_
  · rw [mirrorsAfterPass_iff (hknown.step i)]
    exact noneStale_step_iff hknown ((mirrorsAfterPass_iff hknown).mp hmirrors) i
  · rw [mirrorsAfterPass_iff (known_new objects)]
    exact fun svc hsvc => absurd hsvc List.not_mem_nil

/-! ## A service that is deleted -/

/-- A service with a selector. -/
def webService : Service := ⟨"", "web", "", ⟨[("app", "web")], [], .clusterIP⟩, none, none, 0⟩

/-- The service gets an endpoint and is deleted. -/
def deletedService : List EndpointStep :=
  [.createService "default" "1" 0 0 webService [], .pass 0 .ok, .pass 0 .ok, .pass 0 .ok,
    .pass 0 .ok, .deleteService "default" "web" []]

/-- **A service that is deleted** leaves its endpoint behind. -/
theorem endpoints_remain : ¬∀ objects steps, Along step MirrorsAfterPass (new objects) steps := by
  intro hall
  have hmirrors := hall ∅ deletedService _ List.prefix_rfl 0 0
  have hservices : (((run step (new ∅) deletedService).finish 0).wholePass 0).services.rows = [] := by
    decide
  have hendpoint : ∃ ep, (((run step (new ∅) deletedService).finish 0).wholePass 0).endpoints.lookup
      (endpointKey "default" "1") = some ep := Option.isSome_iff_exists.mp (by decide)
  obtain ⟨ep, hep⟩ := hendpoint
  obtain ⟨svc, ⟨⟨key, hlookup⟩, -⟩, -⟩ := hmirrors.sound _ ep hep
  have hmem := KeyValue.lookup_eq_some.mp hlookup
  rw [hservices] at hmem
  cases hmem

end EndpointWorld

end K3rs
