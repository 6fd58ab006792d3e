import K3rs.Cluster.Pods
import K3rs.Lib.Joins
import K3rs.Lib.Words
import K3rs.Network.Services

/-!
# Registry keys

An object of a namespace is stored under `/registry/{kind}/{namespace}/{name}`, and the pods of a
namespace are those under `/registry/pods/{namespace}/`.  Neither namespaces nor names are checked
for the separator when an object is created.

Objects have keys of their own, and a namespace lists its own pods only, in every state of a run, if
and only if no pod is created with the separator in its namespace or its name, and no two services
overlap in their keys (`registryKeys_iff`).
-/

namespace K3rs

open Programs Transition Joins

/-! ## Handlers -/

/-- `Namespace`. -/
structure Namespace where
  name : String
  labels : StringMap
  createdAt : DateTime
  deriving DecidableEq, Repr

/-- The body of an answer: a text or an object. -/
inductive ObjectBody (α : Type) where
  | text (message : String)
  | json (value : α)
  deriving DecidableEq, Repr

/-- What the handlers answer. -/
abbrev ObjectReply (α : Type) := StatusCode × ObjectBody α

/-- The key of a namespace. -/
def namespaceKey (name : String) : String := "/registry/namespaces/" ++ name

/-- The key of a service. -/
def serviceKey (ns name : String) : String := "/registry/services/" ++ ns ++ "/" ++ name

namespace Api

/-- Write an object and answer with it. -/
def storeObject {ν : Type} (key : String) (v : ν) (failure : String) : Prog String ν (ObjectReply ν) := do
  match ← (Prog.put key v).attempt with
  | .ok _ => return (.created, .json v)
  | .error _ => return (.internalServerError, .text failure)

/-- `create_namespace`. -/
def createNamespace (now : DateTime) (ns : Namespace) : Prog String Namespace (ObjectReply Namespace) :=
  let ns := { ns with createdAt := now }
  storeObject (namespaceKey ns.name) ns "Failed to create namespace"

/-- The service of a request, as `create_service` fills it in.  The cluster IP is made from a random
byte. -/
def requestedService (ns id : String) (now : DateTime) (byte : UInt8) (body : Service) : Service :=
  { body with
    id := id
    ns := ns
    createdAt := now
    vpc := some (body.vpc.getD DEFAULT_VPC_NAME)
    clusterIp := some (body.clusterIp.getD (CLUSTER_IP_PREFIX ++ toString (byte % 250 + 2).toNat)) }

/-- `create_service`. -/
def createService (ns id : String) (now : DateTime) (byte : UInt8) (body : Service) :
    Prog String Service (ObjectReply Service) :=
  let svc := requestedService ns id now byte body
  storeObject (serviceKey ns svc.name) svc "Failed"

/-- `parse_field_selector`. -/
def parseFieldSelector (selector : String) : List (String × String) :=
  (selector.toList.splitOn ',').filterMap fun kv => do
    let (field, value) ← Words.splitOnce '=' kv
    if (Words.trim field).isEmpty then none
    else some (String.ofList (Words.trim field), String.ofList (Words.trim value))

/-- One condition of a field selector; an unknown one is ignored. -/
def retainPods (pods : List Pod) (condition : String × String) : List Pod :=
  match condition.1 with
  | "spec.nodeName" => pods.filter fun p => decide (p.nodeName = some condition.2)
  | "metadata.namespace" => pods.filter fun p => decide (p.ns = condition.2)
  | _ => pods

/-- `apply_pod_field_selector`. -/
def applyPodFieldSelector (pods : List Pod) (selector : String) : List Pod :=
  (parseFieldSelector selector).foldl retainPods pods

/-- `list_pods`. -/
def listPods (ns : String) (fieldSelector : Option String) : Program (List Pod) := do
  let entries ← (listPrefix (podPrefixOf ns)).attempt
  let pods := (entries.toOption.getD []).filterMap fun e => e.2.asPod
  return match fieldSelector with
    | some selector => applyPodFieldSelector pods selector
    | none => pods

end Api

/-! ## Runs of requests -/

/-- The registry, by kinds of objects, and what has been created so far. -/
structure KeyHistory where
  objects : Registry
  services : KeyValue String Service
  namespaces : KeyValue String Namespace
  createdPods : List (String × String)
  createdServices : List (String × String)
  createdNamespaces : List String

/-- A request, with how the store treats its operations. -/
inductive KeyRequest where
  | createNamespace (now : DateTime) (ns : Namespace) (outcomes : List Outcome)
  | createPod (ns id : String) (now : DateTime) (body : Pod) (outcomes : List Outcome)
  | createService (ns id : String) (now : DateTime) (byte : UInt8) (body : Service)
      (outcomes : List Outcome)
  /-- What else is written, a VPC or a node for example. -/
  | elsewhere (key : String) (v : Object)

/-- The request was answered with `CREATED`. -/
def isCreated {β : Type} : Except String (StatusCode × β) → Bool
  | .ok reply => decide (reply.1 = .created)
  | .error _ => false

/-- An element is added if the request was answered with `CREATED`. -/
def logCreated {α β : Type} (result : Except String (StatusCode × β)) (a : α) (log : List α) :
    List α :=
  if isCreated result then a :: log else log

namespace KeyHistory

/-- An empty registry. -/
def new : KeyHistory := ⟨∅, ∅, ∅, [], [], []⟩

/-- One request. -/
def step (scheduler : Option Scheduler) (s : KeyHistory) : KeyRequest → KeyHistory
  | .createNamespace now ns outcomes =>
      let (result, _, store) := (Api.createNamespace now ns).exec outcomes s.namespaces
      { s with
        namespaces := store
        createdNamespaces := logCreated result ns.name s.createdNamespaces }
  | .createPod ns id now body outcomes =>
      let (result, _, store) := (Api.createPod scheduler ns id now body).exec outcomes s.objects
      { s with
        objects := store
        createdPods := logCreated result (ns, body.name) s.createdPods }
  | .createService ns id now byte body outcomes =>
      let (result, _, store) := (Api.createService ns id now byte body).exec outcomes s.services
      { s with
        services := store
        createdServices := logCreated result (ns, body.name) s.createdServices }
  | .elsewhere key v =>
      if startsWith key "/registry/pods/" then s else { s with objects := s.objects.insert key v }

/-- The pods that a namespace lists. -/
def listed (s : KeyHistory) (ns : String) : List Pod :=
  ((Api.listPods ns none).exec [] s.objects).1.toOption.getD []

/-- The pod is stored. -/
def Stores (s : KeyHistory) (p : Pod) : Prop :=
  ∃ key, startsWith key "/registry/pods/" = true ∧ s.objects.lookup key = some (.pod p)

/-- Objects have keys of their own, and a namespace lists its own pods. -/
structure Isolated (s : KeyHistory) : Prop where
  namespaces : ∀ a ∈ s.createdNamespaces, ∀ b ∈ s.createdNamespaces, a ≠ b →
    namespaceKey a ≠ namespaceKey b
  pods : ∀ a ∈ s.createdPods, ∀ b ∈ s.createdPods, a ≠ b → podKey a.1 a.2 ≠ podKey b.1 b.2
  services : ∀ a ∈ s.createdServices, ∀ b ∈ s.createdServices, a ≠ b →
    serviceKey a.1 a.2 ≠ serviceKey b.1 b.2
  lists : ∀ ns p, p ∈ s.listed ns ↔ s.Stores p ∧ p.ns = ns

/-! ## When a request is accepted -/

/-- The operation fails. -/
def fails : Outcome → Bool
  | .fail _ => true
  | _ => false

/-- The VPC of the pod, if it is read. -/
def vpcRead (s : KeyHistory) (body : Pod) (outcomes : List Outcome) : Option VpcRecord :=
  if fails (outcomes.headD .ok) then none
  else (s.objects.lookup (vpcKey body.spec.vpcName)).bind Object.asVpc

/-- The VPC of the pod is read, and it is not active. -/
def forbids (s : KeyHistory) (body : Pod) (outcomes : List Outcome) : Bool :=
  (s.vpcRead body outcomes).any fun vpc => decide (vpc.status ≠ .active)

/-- The outcomes that are left when a node has been looked for. -/
def afterPlacing (scheduler : Option Scheduler) (outcomes : List Outcome) : List Outcome :=
  match scheduler with
  | none => outcomes
  | some _ => outcomes.tail

/-- The write of a pod, behind the reads, fails. -/
def podFails (scheduler : Option Scheduler) (outcomes : List Outcome) : Bool :=
  fails ((afterPlacing scheduler outcomes.tail).headD .ok)

/-- The condition on a request that is not turned down.  A pod has no separator in its namespace or
its name.  The key of a service does not overlap with that of another one. -/
def Fits (scheduler : Option Scheduler) (s : KeyHistory) : KeyRequest → Prop
  | .createPod ns _ _ body outcomes =>
      s.forbids body outcomes = false → podFails scheduler outcomes = false →
        '/' ∉ ns.toList ∧ '/' ∉ body.name.toList
  | .createService ns _ _ _ body outcomes =>
      fails (outcomes.headD .ok) = false → ∀ b ∈ s.createdServices,
        ¬Overlaps '/' ns.toList body.name.toList b.1.toList b.2.toList ∧
          ¬Overlaps '/' b.1.toList b.2.toList ns.toList body.name.toList
  | _ => True

/-! ## What the requests do -/

theorem exec_put {ν : Type} (key : String) (v : ν) (outcomes : List Outcome)
    (store : KeyValue String ν) : (Prog.put key v).attempt.exec outcomes store =
      if fails (outcomes.headD .ok) = true then
        (.ok ((Op.put key v).answer store (outcomes.headD .ok)), outcomes.tail, store)
      else (.ok (.ok ()), outcomes.tail, store.insert key v) := by
  rw [Prog.exec_attempt, Prog.put, Prog.exec]
  cases outcomes.headD .ok <;> rfl

/-- A handler that stores an object. -/
theorem exec_storeObject {ν : Type} (key : String) (v : ν) (failure : String)
    (outcomes : List Outcome) (store : KeyValue String ν) :
    (Api.storeObject key v failure).exec outcomes store =
      if fails (outcomes.headD .ok) = true then
        (.ok (.internalServerError, .text failure), outcomes.tail, store)
      else (.ok (.created, .json v), outcomes.tail, store.insert key v) := by
  rw [Api.storeObject, Prog.exec_bind, exec_put]
  cases outcomes.headD .ok <;> rfl

theorem exec_placePod (scheduler : Option Scheduler) (pod : Pod) (outcomes : List Outcome)
    (store : Registry) : ∃ node, (Api.placePod scheduler pod).exec outcomes store =
      (.ok (pod.assign node), afterPlacing scheduler outcomes, store) := by
  cases scheduler with
  | none => exact ⟨none, rfl⟩
  | some schedule =>
      rw [Api.placePod, Prog.exec_bind, Prog.exec_attempt, listPrefix, Prog.list, Prog.exec,
        Op.apply_of_not_writes id]
      exact ⟨_, rfl⟩

theorem exec_storePod (scheduler : Option Scheduler) (ns : String) (pod : Pod)
    (outcomes : List Outcome) (store : Registry) : ∃ node,
      (Api.createPod.storePod scheduler ns pod).exec outcomes store =
        if fails ((afterPlacing scheduler outcomes).headD .ok) = true then
          (.ok (.internalServerError, .text "Failed to create pod"),
            (afterPlacing scheduler outcomes).tail, store)
        else (.ok (.created, .pod (pod.assign node)), (afterPlacing scheduler outcomes).tail,
          store.insert (podKey ns pod.name) (.pod (pod.assign node))) := by
  obtain ⟨node, hplace⟩ := exec_placePod scheduler pod outcomes store
  have hname : (pod.assign node).name = pod.name := by cases node <;> rfl
  refine ⟨node, ?_⟩
  rw [Api.createPod.storePod, Prog.exec_bind_ok hplace, Prog.exec_bind, exec_put, hname]
  cases (afterPlacing scheduler outcomes).headD .ok <;> rfl

/-- **Creating a pod** writes it under its key, if no VPC forbids it and the write succeeds. -/
theorem exec_createPod (s : KeyHistory) (scheduler : Option Scheduler) (ns id : String)
    (now : DateTime) (body : Pod) (outcomes : List Outcome) : ∃ node reply rest,
      (Api.createPod scheduler ns id now body).exec outcomes s.objects =
        (.ok reply, rest, if s.forbids body outcomes = false ∧ podFails scheduler outcomes = false then
          s.objects.insert (podKey ns body.name)
            (.pod ((Api.requestedPod ns id now body).assign node)) else s.objects) ∧
      (reply.1 = .created ↔ s.forbids body outcomes = false ∧ podFails scheduler outcomes = false) := by
  obtain ⟨node, hstore⟩ := exec_storePod scheduler ns (Api.requestedPod ns id now body)
    outcomes.tail s.objects
  have hanswer : ((Op.get (vpcKey (Api.requestedPod ns id now body).spec.vpcName)).answer s.objects
      (outcomes.headD .ok)).toOption.join.bind Object.asVpc = s.vpcRead body outcomes := by
    rw [vpcRead]
    cases outcomes.headD .ok <;> rfl
  have hget : (Op.get (vpcKey (Api.requestedPod ns id now body).spec.vpcName)).apply s.objects
      (outcomes.headD .ok) = s.objects := by cases outcomes.headD .ok <;> rfl
  rw [Api.createPod, Prog.exec_bind, Prog.exec_attempt, Prog.get, Prog.exec]
  dsimp only [Prog.exec]
  rw [hget, forbids]
  -- the VPC decides whether the pod is written
  rw [hanswer]
  have hwrite : ∃ node' reply rest,
      (Api.createPod.storePod scheduler ns (Api.requestedPod ns id now body)).exec outcomes.tail
        s.objects = (.ok reply, rest, if podFails scheduler outcomes = false then
          s.objects.insert (podKey ns body.name)
            (.pod ((Api.requestedPod ns id now body).assign node')) else s.objects) ∧
      (reply.1 = .created ↔ podFails scheduler outcomes = false) := by
    rw [hstore, podFails]
    cases fails ((afterPlacing scheduler outcomes.tail).headD .ok) with
    | true => exact ⟨node, _, _, rfl, by simp⟩
    | false => exact ⟨node, _, _, rfl, by simp⟩
  cases s.vpcRead body outcomes with
  | none => simpa using hwrite
  | some vpc =>
      by_cases hactive : vpc.status = .active
      · simpa [hactive] using hwrite
      · simp only [ne_eq, hactive, not_false_eq_true, if_true]
        exact ⟨none, _, _, by simp [hactive]; rfl, by simp [hactive]⟩

/-! ## Keys -/

theorem namespaceKey_inj {a b : String} (h : namespaceKey a = namespaceKey b) : a = b :=
  (String.append_right_inj _).mp h

/-- The characters of a key. -/
theorem toList_key (dir ns name : String) :
    (dir ++ ns ++ "/" ++ name).toList = dir.toList ++ join '/' ns.toList name.toList := by
  rw [String.toList_append, String.toList_append, String.toList_append, join, List.append_assoc,
    List.append_assoc]
  rfl

/-- Keys below one directory are equal if the joins are. -/
theorem key_eq_iff {dir ns name ns' name' : String} :
    dir ++ ns ++ "/" ++ name = dir ++ ns' ++ "/" ++ name' ↔
      join '/' ns.toList name.toList = join '/' ns'.toList name'.toList := by
  rw [← String.toList_inj, toList_key, toList_key]
  exact List.append_right_inj _

theorem toList_podKey (ns name : String) : (podKey ns name).toList =
    "/registry/pods/".toList ++ join '/' ns.toList name.toList := toList_key _ ns name

theorem toList_podPrefixOf (ns : String) : (podPrefixOf ns).toList =
    "/registry/pods/".toList ++ join '/' ns.toList [] := by
  have hkey := toList_key "/registry/pods/" ns ""
  rwa [String.append_empty] at hkey

/-- Keys of services with different names are equal only if they overlap. -/
theorem serviceKey_eq_iff {a b : String × String} (hne : a ≠ b) :
    serviceKey a.1 a.2 = serviceKey b.1 b.2 ↔
      Overlaps '/' a.1.toList a.2.toList b.1.toList b.2.toList ∨
        Overlaps '/' b.1.toList b.2.toList a.1.toList a.2.toList := by
  refine key_eq_iff.trans (join_eq_join_iff.trans (or_iff_right fun hsame => hne ?_))
  exact Prod.ext (String.toList_injective hsame.1) (String.toList_injective hsame.2)

/-- Below which namespaces a pod is listed. -/
theorem startsWith_podKey_iff (ns : String) (p : Pod) :
    startsWith (podKey p.ns p.name) (podPrefixOf ns) = true ↔
      join '/' ns.toList [] <+: join '/' p.ns.toList p.name.toList := by
  rw [startsWith_iff, toList_podPrefixOf, toList_podKey, List.prefix_append_right_inj]

/-! ## The invariant -/

/-- Pods are stored under their own keys, and were created; and under the key of a pod that was
created there is a pod. -/
structure Keyed (s : KeyHistory) : Prop where
  own : ∀ key p, s.objects.lookup key = some (.pod p) → startsWith key "/registry/pods/" = true →
    key = podKey p.ns p.name ∧ (p.ns, p.name) ∈ s.createdPods
  held : ∀ a ∈ s.createdPods, ∃ p, s.objects.lookup (podKey a.1 a.2) = some (.pod p)

theorem keyed_new : new.Keyed where
  own key p h := by cases h
  held a ha := by cases ha

variable {scheduler : Option Scheduler} {s : KeyHistory}

/-- The namespace and the name of a pod that is created. -/
theorem ns_assign_requestedPod (ns id : String) (now : DateTime) (body : Pod)
    (node : Option String) : ((Api.requestedPod ns id now body).assign node).ns = ns ∧
      ((Api.requestedPod ns id now body).assign node).name = body.name := by
  cases node <;> exact ⟨rfl, rfl⟩

theorem startsWith_podKey (ns name : String) :
    startsWith (podKey ns name) "/registry/pods/" = true :=
  startsWith_append_left (startsWith_podPrefixOf ns) name

/-- What a request to create a pod leaves. -/
theorem step_createPod (s : KeyHistory) (scheduler : Option Scheduler) (ns id : String)
    (now : DateTime) (body : Pod) (outcomes : List Outcome) :
    (¬(s.forbids body outcomes = false ∧ podFails scheduler outcomes = false) ∧
        s.step scheduler (.createPod ns id now body outcomes) = s) ∨
      (s.forbids body outcomes = false ∧ podFails scheduler outcomes = false) ∧ ∃ p : Pod,
        p.ns = ns ∧ p.name = body.name ∧ s.step scheduler (.createPod ns id now body outcomes) =
          { s with
            objects := s.objects.insert (podKey ns body.name) (.pod p)
            createdPods := (ns, body.name) :: s.createdPods } := by
  obtain ⟨node, reply, rest, hexec, hcreated⟩ := s.exec_createPod scheduler ns id now body outcomes
  by_cases hok : s.forbids body outcomes = false ∧ podFails scheduler outcomes = false
  · refine Or.inr ⟨hok, (Api.requestedPod ns id now body).assign node, ?_⟩
    obtain ⟨hns, hname⟩ := ns_assign_requestedPod ns id now body node
    refine ⟨hns, hname, ?_⟩
    rw [step, hexec]
    simp [logCreated, isCreated, hcreated, hok]
  · refine Or.inl ⟨hok, ?_⟩
    rw [step, hexec]
    simp only [logCreated, isCreated, hcreated, hok, decide_false, Bool.false_eq_true, if_false]

theorem Keyed.step (hkeyed : s.Keyed) (r : KeyRequest) : (s.step scheduler r).Keyed := by
  cases r with
  | createNamespace now ns outcomes => exact ⟨hkeyed.own, hkeyed.held⟩
  | createService ns id now byte body outcomes => exact ⟨hkeyed.own, hkeyed.held⟩
  | elsewhere key v =>
      rw [KeyHistory.step]
      split_ifs with hkey
      · exact hkeyed
      · have hne : ∀ key', startsWith key' "/registry/pods/" = true → key' ≠ key := by
          rintro key' hdir rfl
          exact hkey hdir
        refine ⟨fun key' p hp hdir => ?_, fun a ha => ?_⟩
        · rw [KeyValue.lookup_insert_of_ne (hne key' hdir)] at hp
          exact hkeyed.own key' p hp hdir
        · rw [KeyValue.lookup_insert_of_ne (hne _ (startsWith_podKey a.1 a.2))]
          exact hkeyed.held a ha
  | createPod ns id now body outcomes =>
      rcases s.step_createPod scheduler ns id now body outcomes with
        ⟨-, hsame⟩ | ⟨-, p, hns, hname, hstep⟩
      · rw [hsame]
        exact hkeyed
      · rw [hstep]
        refine ⟨fun key q hq hdir => ?_, fun a ha => ?_⟩
        · by_cases hkey : key = podKey ns body.name
          · subst hkey
            rw [KeyValue.lookup_insert_self] at hq
            cases hq
            rw [hns, hname]
            exact ⟨rfl, List.mem_cons_self⟩
          · rw [KeyValue.lookup_insert_of_ne hkey] at hq
            obtain ⟨hown, hmem⟩ := hkeyed.own key q hq hdir
            exact ⟨hown, List.mem_cons_of_mem _ hmem⟩
        · by_cases hkey : podKey a.1 a.2 = podKey ns body.name
          · exact ⟨p, by rw [hkey, KeyValue.lookup_insert_self]⟩
          · rw [KeyValue.lookup_insert_of_ne hkey]
            rcases List.mem_cons.mp ha with rfl | ha
            · exact absurd rfl hkey
            · exact hkeyed.held a ha

/-! ## Listings -/

theorem mem_listed {ns : String} {p : Pod} : p ∈ s.listed ns ↔ ∃ key,
    s.objects.lookup key = some (.pod p) ∧ startsWith key (podPrefixOf ns) = true := by
  change p ∈ (s.objects.scan fun key => startsWith key (podPrefixOf ns)).filterMap
    (fun e => e.2.asPod) ↔ _
  rw [List.mem_filterMap]
  constructor
  · rintro ⟨⟨key, v⟩, hmem, hv⟩
    obtain ⟨hlookup, hdir⟩ := KeyValue.mem_scan.mp hmem
    rw [Object.asPod_eq_some.mp hv] at hlookup
    exact ⟨key, hlookup, hdir⟩
  · rintro ⟨key, hlookup, hdir⟩
    exact ⟨(key, .pod p), KeyValue.mem_scan.mpr ⟨hlookup, hdir⟩, rfl⟩

/-- **A namespace lists its own pods** if and only if the separator is in no namespace and no name
of a pod. -/
theorem lists_iff (hkeyed : s.Keyed) : (∀ ns p, p ∈ s.listed ns ↔ s.Stores p ∧ p.ns = ns) ↔
    ∀ p, s.Stores p → '/' ∉ p.ns.toList ∧ '/' ∉ p.name.toList := by
  have hlisted : ∀ ns p, p ∈ s.listed ns ↔
      s.Stores p ∧ join '/' ns.toList [] <+: join '/' p.ns.toList p.name.toList := by
    intro ns p
    rw [mem_listed, ← startsWith_podKey_iff]
    constructor
    · rintro ⟨key, hlookup, hdir⟩
      have hpods := startsWith_trans hdir (startsWith_podPrefixOf ns)
      rw [← (hkeyed.own key p hlookup hpods).1]
      exact ⟨⟨key, hpods, hlookup⟩, hdir⟩
    · rintro ⟨⟨key, hpods, hlookup⟩, hdir⟩
      refine ⟨key, hlookup, ?_⟩
      rw [(hkeyed.own key p hlookup hpods).1]
      exact hdir
  constructor
  · intro hexact p hstores
    refine below_only_iff.mp fun a hbelow => ?_
    have hmem := (hlisted (String.ofList a) p).mpr ⟨hstores, by rwa [String.toList_ofList]⟩
    rw [((hexact _ _).mp hmem).2, String.toList_ofList]
  · intro hfree ns p
    rw [hlisted]
    refine and_congr_right fun hstores => ?_
    constructor
    · intro hbelow
      exact (String.toList_injective (below_only_iff.mpr (hfree p hstores) _ hbelow)).symm
    · rintro rfl
      exact below_iff.mpr (Or.inl rfl)

/-! ## Every request -/

/-- The pods that are stored have no separator in their namespaces and names. -/
theorem Isolated.free (hiso : s.Isolated) (hkeyed : s.Keyed) {p : Pod} (hstores : s.Stores p) :
    '/' ∉ p.ns.toList ∧ '/' ∉ p.name.toList :=
  (lists_iff hkeyed).mp hiso.lists p hstores

/-- The same for those that were created, since each is stored. -/
theorem Isolated.createdFree (hiso : s.Isolated) (hkeyed : s.Keyed) {a : String × String}
    (ha : a ∈ s.createdPods) : '/' ∉ a.1.toList ∧ '/' ∉ a.2.toList := by
  obtain ⟨p, hp⟩ := hkeyed.held a ha
  obtain ⟨hkey, hmem⟩ := hkeyed.own _ p hp (startsWith_podKey a.1 a.2)
  have hsame : a = (p.ns, p.name) := by
    by_contra hne
    exact hiso.pods a ha _ hmem hne hkey
  rw [hsame]
  exact hiso.free hkeyed ⟨_, startsWith_podKey a.1 a.2, hp⟩

theorem podKey_ne {a b : String × String} (ha : '/' ∉ a.1.toList) (hb : '/' ∉ b.1.toList)
    (hne : a ≠ b) : podKey a.1 a.2 ≠ podKey b.1 b.2 := by
  intro hkey
  obtain ⟨hns, hname⟩ := join_inj ha hb (key_eq_iff.mp hkey)
  exact hne (Prod.ext (String.toList_injective hns) (String.toList_injective hname))

/-- **Creating a pod** keeps the isolation if the separator is not in it. -/
theorem isolated_createPod_iff (hkeyed : s.Keyed) (hiso : s.Isolated) {ns id : String}
    {now : DateTime} {body : Pod} {outcomes : List Outcome} :
    (s.step scheduler (.createPod ns id now body outcomes)).Isolated ↔
      s.Fits scheduler (.createPod ns id now body outcomes) := by
  have hkeyed' : (s.step scheduler (.createPod ns id now body outcomes)).Keyed := hkeyed.step _
  rcases s.step_createPod scheduler ns id now body outcomes with
    ⟨hno, hsame⟩ | ⟨⟨hforbids, hwrites⟩, p, hns, hname, hstep⟩
  · rw [hsame]
    exact iff_of_true hiso fun hforbids hwrites => absurd ⟨hforbids, hwrites⟩ hno
  · constructor
    · intro hafter _ _
      refine hafter.createdFree hkeyed' (a := (ns, body.name)) ?_
      rw [hstep]
      exact List.mem_cons_self
    · intro hfits
      obtain ⟨hfreeNs, hfreeName⟩ := hfits hforbids hwrites
      have hfree : ∀ a ∈ (ns, body.name) :: s.createdPods, '/' ∉ a.1.toList := by
        intro a ha
        rcases List.mem_cons.mp ha with rfl | ha
        · exact hfreeNs
        · exact (hiso.createdFree hkeyed ha).1
      have hlists := lists_iff hkeyed'
      rw [hstep] at hlists ⊢
      refine ⟨hiso.namespaces, fun a ha b hb hne => podKey_ne (hfree a ha) (hfree b hb) hne,
        hiso.services, hlists.mpr ?_⟩
      rintro q ⟨key, hdir, hq⟩
      by_cases hkey : key = podKey ns body.name
      · subst hkey
        rw [KeyValue.lookup_insert_self] at hq
        cases hq
        rw [hns, hname]
        exact ⟨hfreeNs, hfreeName⟩
      · rw [KeyValue.lookup_insert_of_ne hkey] at hq
        exact hiso.free hkeyed ⟨key, hdir, hq⟩

/-- What a request to create a service leaves. -/
theorem step_createService (s : KeyHistory) (scheduler : Option Scheduler) (ns id : String)
    (now : DateTime) (byte : UInt8) (body : Service) (outcomes : List Outcome) :
    (fails (outcomes.headD .ok) = true ∧
        s.step scheduler (.createService ns id now byte body outcomes) = s) ∨
      fails (outcomes.headD .ok) = false ∧
        ∃ store, s.step scheduler (.createService ns id now byte body outcomes) =
          { s with
            services := store
            createdServices := (ns, body.name) :: s.createdServices } := by
  rw [step, Api.createService, exec_storeObject]
  cases hfails : fails (outcomes.headD .ok) with
  | true => exact Or.inl ⟨rfl, rfl⟩
  | false => exact Or.inr ⟨rfl, _, rfl⟩

/-- **Creating a service** keeps the isolation if its key overlaps with no other. -/
theorem isolated_createService_iff (hiso : s.Isolated) {ns id : String} {now : DateTime}
    {byte : UInt8} {body : Service} {outcomes : List Outcome} :
    (s.step scheduler (.createService ns id now byte body outcomes)).Isolated ↔
      s.Fits scheduler (.createService ns id now byte body outcomes) := by
  rcases s.step_createService scheduler ns id now byte body outcomes with
    ⟨hfails, hsame⟩ | ⟨hfails, store, hstep⟩
  · rw [hsame]
    refine iff_of_true hiso fun hok => ?_
    rw [hfails] at hok
    cases hok
  · rw [hstep]
    constructor
    · intro hafter _ b hb
      rw [← not_or]
      intro hoverlap
      have hne : (ns, body.name) ≠ b := by
        rintro rfl
        exact hoverlap.elim (fun h => h.ne rfl) fun h => h.ne rfl
      exact hafter.services _ List.mem_cons_self b (List.mem_cons_of_mem _ hb) hne
        ((serviceKey_eq_iff hne).mpr hoverlap)
    · intro hfits
      have hnew : ∀ b ∈ s.createdServices, (ns, body.name) ≠ b →
          serviceKey ns body.name ≠ serviceKey b.1 b.2 := by
        intro b hb hne hkey
        obtain ⟨hleft, hright⟩ := hfits hfails b hb
        exact ((serviceKey_eq_iff hne).mp hkey).elim hleft hright
      refine ⟨hiso.namespaces, hiso.pods, fun a ha b hb hne => ?_, hiso.lists⟩
      rcases List.mem_cons.mp ha with rfl | ha
      · rcases List.mem_cons.mp hb with rfl | hb
        · exact absurd rfl hne
        · exact hnew b hb hne
      · rcases List.mem_cons.mp hb with rfl | hb
        · exact (hnew a ha hne.symm).symm
        · exact hiso.services a ha b hb hne

/-- Keys of namespaces are always different. -/
theorem Isolated.createNamespace (hiso : s.Isolated) (now : DateTime) (ns : Namespace)
    (outcomes : List Outcome) : (s.step scheduler (.createNamespace now ns outcomes)).Isolated where
  namespaces _ _ _ _ hne hkey := hne (namespaceKey_inj hkey)
  pods := hiso.pods
  services := hiso.services
  lists := hiso.lists

/-- What is written elsewhere is in no listing. -/
theorem Isolated.elsewhere (hkeyed : s.Keyed) (hiso : s.Isolated) (key : String) (v : Object) :
    (s.step scheduler (.elsewhere key v)).Isolated := by
  have hkeyed' : (s.step scheduler (.elsewhere key v)).Keyed := hkeyed.step _
  rw [KeyHistory.step] at hkeyed' ⊢
  split_ifs at hkeyed' ⊢ with hkey
  · exact hiso
  · refine ⟨hiso.namespaces, hiso.pods, hiso.services, (lists_iff hkeyed').mpr ?_⟩
    rintro p ⟨key', hdir, hp⟩
    have hne : key' ≠ key := by
      rintro rfl
      exact hkey hdir
    rw [KeyValue.lookup_insert_of_ne hne] at hp
    exact hiso.free hkeyed ⟨key', hdir, hp⟩

theorem isolated_step_iff (hkeyed : s.Keyed) (hiso : s.Isolated) (r : KeyRequest) :
    (s.step scheduler r).Isolated ↔ s.Fits scheduler r := by
  cases r with
  | createNamespace now ns outcomes => exact iff_of_true (hiso.createNamespace now ns outcomes) trivial
  | createPod ns id now body outcomes => exact isolated_createPod_iff hkeyed hiso
  | createService ns id now byte body outcomes => exact isolated_createService_iff hiso
  | elsewhere key v => exact iff_of_true (hiso.elsewhere hkeyed key v) trivial

theorem isolated_new : new.Isolated where
  namespaces _ ha := by cases ha
  pods _ ha := by cases ha
  services _ ha := by cases ha
  lists := (lists_iff keyed_new).mpr fun p hstores => by
    obtain ⟨key, -, hp⟩ := hstores
    cases hp

/-- **Registry keys** keep objects and namespaces apart in every state of a run exactly if every
request of it fits. -/
theorem registryKeys_iff (scheduler : Option Scheduler) (requests : List KeyRequest) :
    Along (step scheduler) Isolated new requests ↔
      Admitted (step scheduler) (Fits scheduler) new requests :=
  along_iff_admitted Keyed Isolated (fun _ r hkeyed => hkeyed.step r)
    (fun _ r hkeyed hiso => isolated_step_iff hkeyed hiso r) keyed_new isolated_new

/-! ## A name with the separator -/

/-- A pod as it stands in a request. -/
def plainPod (name : String) : Pod :=
  ⟨"", name, "", ⟨[], none, [], [], [], none⟩, .pending, none, none, none, [], none, 0, none, none,
    none, 0⟩

/-- Two pods whose names are joined to the same key. -/
def sameKeys : List KeyRequest :=
  [.createPod "a" "1" 0 (plainPod "b/c") [], .createPod "a/b" "2" 0 (plainPod "c") []]

/-- **A separator in a name** gives two pods one key. -/
theorem registryKeys_fail : ¬∀ (scheduler : Option Scheduler) (requests : List KeyRequest),
    Along (step scheduler) Isolated new requests := by
  intro hall
  have hiso := hall none sameKeys sameKeys List.prefix_rfl
  have hcreated : (run (step none) new sameKeys).createdPods = [("a/b", "c"), ("a", "b/c")] := rfl
  refine hiso.pods ("a/b", "c") ?_ ("a", "b/c") ?_ (by decide) rfl
  · rw [hcreated]
    simp
  · rw [hcreated]
    simp

end KeyHistory

end K3rs
