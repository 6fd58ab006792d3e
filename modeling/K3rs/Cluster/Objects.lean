import K3rs.Server.Listing
import K3rs.Server.VpcRegistry

/-!
# Objects of the cluster

The records that the API and the controllers keep in the registry.  A `HashMap` is the list of
its entries in the order in which it iterates; that order is chosen anew each time a value is
decoded.  Numbers have the widths of the source, and times are milliseconds.

The store of this part of the development holds objects instead of their JSON texts: every
value under these keys is written by `serde_json::to_vec` from such an object, and reading it
gives the object back.  Reading an object as one of another kind fails.
-/

namespace K3rs

open Programs

/-- A time. -/
abbrev DateTime := ℤ

/-- The entries of a `HashMap<String, String>`, in the order of its iterator. -/
abbrev StringMap := List (String × String)

/-! ## Pods -/

/-- `ResourceRequirements`. -/
structure ResourceRequirements where
  cpuMillis : UInt64
  memoryBytes : UInt64
  deriving DecidableEq, Repr

/-- `VolumeMount`. -/
structure VolumeMount where
  name : String
  mountPath : String
  readOnly : Bool
  deriving DecidableEq, Repr

/-- `VolumeSource`. -/
inductive VolumeSource where
  | hostPath (path : String)
  | emptyDir
  | persistentVolumeClaim (claimName : String)
  | configMap (name : String)
  | secret (secretName : String)
  deriving DecidableEq, Repr

/-- `Volume`. -/
structure Volume where
  name : String
  source : VolumeSource
  deriving DecidableEq, Repr

/-- `ContainerSpec`. -/
structure ContainerSpec where
  name : String
  image : String
  command : List String
  args : List String
  env : StringMap
  resources : ResourceRequirements
  volumeMounts : List VolumeMount
  deriving DecidableEq, Repr

/-- `TolerationOperator`. -/
inductive TolerationOperator where
  | equal
  | exists_
  deriving DecidableEq, Repr

/-- `TaintEffect`. -/
inductive TaintEffect where
  | noSchedule
  | preferNoSchedule
  | noExecute
  deriving DecidableEq, Repr

/-- `Toleration`. -/
structure Toleration where
  key : String
  operator : TolerationOperator
  value : String
  effect : TaintEffect
  deriving DecidableEq, Repr

/-- `PodSpec`. -/
structure PodSpec where
  containers : List ContainerSpec
  runtime : Option String
  nodeAffinity : StringMap
  tolerations : List Toleration
  volumes : List Volume
  vpc : Option String
  deriving DecidableEq, Repr

/-- `PodStatus`. -/
inductive PodStatus where
  | pending
  | scheduled
  | containerCreating
  | running
  | succeeded
  | failed
  | unknown
  deriving DecidableEq, Repr

/-- `PodRuntimeInfo`. -/
structure PodRuntimeInfo where
  backend : String
  version : String
  deriving DecidableEq, Repr

/-- `Pod`. -/
structure Pod where
  id : String
  name : String
  ns : String
  spec : PodSpec
  status : PodStatus
  statusMessage : Option String
  containerId : Option String
  nodeName : Option String
  labels : StringMap
  ownerRef : Option String
  restartCount : UInt32
  runtimeInfo : Option PodRuntimeInfo
  ghostIpv6 : Option String
  vpcName : Option String
  createdAt : DateTime
  deriving DecidableEq, Repr

/-- `DEFAULT_VPC_NAME`. -/
def DEFAULT_VPC_NAME : String := "default"

/-! ## Deployments and ReplicaSets -/

/-- `DeploymentStrategy`. -/
inductive DeploymentStrategy where
  | rollingUpdate (maxSurge maxUnavailable : UInt32)
  | recreate
  | blueGreen
  | canary (weight : UInt32)
  deriving DecidableEq, Repr

/-- `DeploymentStatus`. -/
structure DeploymentStatus where
  readyReplicas : UInt32
  availableReplicas : UInt32
  updatedReplicas : UInt32
  deriving DecidableEq, Repr

/-- `DeploymentSpec`. -/
structure DeploymentSpec where
  replicas : UInt32
  template : PodSpec
  strategy : DeploymentStrategy
  selector : StringMap
  deriving DecidableEq, Repr

/-- `Deployment`. -/
structure Deployment where
  id : String
  name : String
  ns : String
  spec : DeploymentSpec
  status : DeploymentStatus
  generation : UInt64
  observedGeneration : UInt64
  createdAt : DateTime
  deriving DecidableEq, Repr

/-- `ReplicaSetStatus`. -/
structure ReplicaSetStatus where
  replicas : UInt32
  readyReplicas : UInt32
  availableReplicas : UInt32
  deriving DecidableEq, Repr

/-- `ReplicaSetStatus::default`. -/
def ReplicaSetStatus.default : ReplicaSetStatus := ⟨0, 0, 0⟩

/-- `ReplicaSetSpec`. -/
structure ReplicaSetSpec where
  replicas : UInt32
  selector : StringMap
  template : PodSpec
  deriving DecidableEq, Repr

/-- `ReplicaSet`. -/
structure ReplicaSet where
  id : String
  name : String
  ns : String
  spec : ReplicaSetSpec
  status : ReplicaSetStatus
  ownerRef : Option String
  templateHash : String
  createdAt : DateTime
  deriving DecidableEq, Repr

/-! ## Autoscalers -/

/-- `MetricTarget`. -/
structure MetricTarget where
  cpuUtilizationPercent : Option UInt32
  memoryUtilizationPercent : Option UInt32
  deriving DecidableEq, Repr

/-- `HPAStatus`. -/
structure HPAStatus where
  currentReplicas : UInt32
  desiredReplicas : UInt32
  currentCpuUtilizationPercent : Option UInt32
  currentMemoryUtilizationPercent : Option UInt32
  lastScaleTime : Option DateTime
  deriving DecidableEq, Repr

/-- `HPASpec`. -/
structure HPASpec where
  targetDeployment : String
  minReplicas : UInt32
  maxReplicas : UInt32
  metrics : MetricTarget
  deriving DecidableEq, Repr

/-- `HorizontalPodAutoscaler`. -/
structure HorizontalPodAutoscaler where
  id : String
  name : String
  ns : String
  spec : HPASpec
  status : HPAStatus
  createdAt : DateTime
  deriving DecidableEq, Repr

/-! ## Jobs and DaemonSets -/

/-- `JobCondition`. -/
inductive JobCondition where
  | running
  | complete
  | failed
  deriving DecidableEq, Repr

/-- `JobStatus`. -/
structure JobStatus where
  active : UInt32
  succeeded : UInt32
  failed : UInt32
  condition : JobCondition
  startTime : Option DateTime
  completionTime : Option DateTime
  deriving DecidableEq, Repr

/-- `JobSpec`. -/
structure JobSpec where
  template : PodSpec
  completions : UInt32
  parallelism : UInt32
  backoffLimit : UInt32
  deriving DecidableEq, Repr

/-- `Job`. -/
structure Job where
  id : String
  name : String
  ns : String
  spec : JobSpec
  status : JobStatus
  ownerRef : Option String
  createdAt : DateTime
  deriving DecidableEq, Repr

/-- `DaemonSetStatus`. -/
structure DaemonSetStatus where
  desiredNumberScheduled : UInt32
  currentNumberScheduled : UInt32
  numberReady : UInt32
  deriving DecidableEq, Repr

/-- `DaemonSetSpec`. -/
structure DaemonSetSpec where
  template : PodSpec
  nodeSelector : StringMap
  deriving DecidableEq, Repr

/-- `DaemonSet`. -/
structure DaemonSet where
  id : String
  name : String
  ns : String
  spec : DaemonSetSpec
  status : DaemonSetStatus
  createdAt : DateTime
  deriving DecidableEq, Repr

/-! ## Nodes -/

/-- `NodeStatus`. -/
inductive NodeStatus where
  | ready
  | notReady
  | unknown
  deriving DecidableEq, Repr

/-- `Taint`. -/
structure Taint where
  key : String
  value : String
  effect : TaintEffect
  deriving DecidableEq, Repr

/-- `Node`. -/
structure Node where
  id : String
  name : String
  address : String
  agentApiPort : UInt16
  status : NodeStatus
  registeredAt : DateTime
  lastHeartbeat : DateTime
  labels : StringMap
  taints : List Taint
  capacity : ResourceRequirements
  allocated : ResourceRequirements
  unschedulable : Bool
  wgPublicKey : Option String
  wgEndpoint : Option String
  deriving DecidableEq, Repr

/-! ## The store -/

/-- What is under a key. -/
inductive Object where
  | deployment (deploy : Deployment)
  | replicaSet (rs : ReplicaSet)
  | pod (p : Pod)
  | hpa (h : HorizontalPodAutoscaler)
  | node (n : Node)
  | job (j : Job)
  | daemonSet (ds : DaemonSet)
  | vpc (v : VpcRecord)
  /-- Anything else, a namespace for example. -/
  | other (text : String)
  deriving DecidableEq, Repr

namespace Object

/-- `serde_json::from_slice::<Deployment>`. -/
def asDeployment : Object → Option Deployment
  | deployment deploy => some deploy
  | _ => none

/-- `serde_json::from_slice::<ReplicaSet>`. -/
def asReplicaSet : Object → Option ReplicaSet
  | replicaSet rs => some rs
  | _ => none

/-- `serde_json::from_slice::<Pod>`. -/
def asPod : Object → Option Pod
  | .pod p => some p
  | _ => none

/-- `serde_json::from_slice::<HorizontalPodAutoscaler>`. -/
def asHpa : Object → Option HorizontalPodAutoscaler
  | .hpa h => some h
  | _ => none

/-- `serde_json::from_slice::<Node>`. -/
def asNode : Object → Option Node
  | .node n => some n
  | _ => none

/-- `serde_json::from_slice::<Job>`. -/
def asJob : Object → Option Job
  | .job j => some j
  | _ => none

/-- `serde_json::from_slice::<DaemonSet>`. -/
def asDaemonSet : Object → Option DaemonSet
  | .daemonSet ds => some ds
  | _ => none

/-- `serde_json::from_slice::<Vpc>`. -/
def asVpc : Object → Option VpcRecord
  | .vpc v => some v
  | _ => none

theorem asDeployment_eq_some {v : Object} {deploy : Deployment} :
    v.asDeployment = some deploy ↔ v = .deployment deploy := by
  cases v <;> simp [asDeployment]

theorem asReplicaSet_eq_some {v : Object} {rs : ReplicaSet} :
    v.asReplicaSet = some rs ↔ v = .replicaSet rs := by
  cases v <;> simp [asReplicaSet]

theorem asPod_eq_some {v : Object} {p : Pod} : v.asPod = some p ↔ v = .pod p := by
  cases v <;> simp [asPod]

theorem asHpa_eq_some {v : Object} {h : HorizontalPodAutoscaler} :
    v.asHpa = some h ↔ v = .hpa h := by
  cases v <;> simp [asHpa]

theorem asNode_eq_some {v : Object} {n : Node} : v.asNode = some n ↔ v = .node n := by
  cases v <;> simp [asNode]

theorem asJob_eq_some {v : Object} {j : Job} : v.asJob = some j ↔ v = .job j := by
  cases v <;> simp [asJob]

theorem asDaemonSet_eq_some {v : Object} {ds : DaemonSet} :
    v.asDaemonSet = some ds ↔ v = .daemonSet ds := by
  cases v <;> simp [asDaemonSet]

theorem asVpc_eq_some {v : Object} {vpc : VpcRecord} : v.asVpc = some vpc ↔ v = .vpc vpc := by
  cases v <;> simp [asVpc]

end Object

/-- The contents of the store. -/
abbrev Registry := KeyValue String Object

/-- A program over the registry. -/
abbrev Program (α : Type) := Prog String Object α

/-- The name of a namespace, of its key. -/
def namespaceOf (key : String) : String :=
  if startsWith key "/registry/namespaces/" then
    String.ofList (key.toList.drop "/registry/namespaces/".length)
  else ""

/-- Different keys are of different namespaces. -/
theorem namespaceOf_inj {key key' : String} (h : startsWith key "/registry/namespaces/" = true)
    (h' : startsWith key' "/registry/namespaces/" = true) (heq : namespaceOf key = namespaceOf key') :
    key = key' := by
  rw [namespaceOf, namespaceOf, if_pos h, if_pos h'] at heq
  obtain ⟨rest, hrest⟩ := startsWith_iff.mp h
  obtain ⟨rest', hrest'⟩ := startsWith_iff.mp h'
  have hdrop := String.ofList_injective heq
  rw [← hrest, ← hrest'] at hdrop
  have hlength : "/registry/namespaces/".length = "/registry/namespaces/".toList.length := by decide
  rw [hlength, List.drop_left, List.drop_left] at hdrop
  exact String.toList_injective (hrest.symm.trans (hdrop ▸ hrest'))

/-- The `reconcile` of the controllers that go through the namespaces. -/
def reconcileNamespaces (reconcileNamespace : String → Program Unit) : Program Unit := do
  let nsEntries ← listPrefix "/registry/namespaces/"
  Prog.forEach (fun e =>
    if (namespaceOf e.1).isEmpty then pure () else reconcileNamespace (namespaceOf e.1)) nsEntries

/-- The rule for such a `reconcile`. -/
theorem reconcileNamespaces_meets {P : Seen String Object → Op String Object → Prop}
    {reconcileNamespace : String → Program Unit} (hlist : ∀ s p, P s (.list p))
    (h : ∀ ns s, (reconcileNamespace ns).Meets P (fun _ _ => True) s) (seen : Seen String Object) :
    (reconcileNamespaces reconcileNamespace).Meets P (fun _ _ => True) seen := by
  refine Prog.Meets.seq (Prog.Meets.list (hlist _ _) (fun _ _ _ => trivial) fun _ => trivial) ?_
  intro entries s _
  refine Prog.Meets.loop (fun e _ s _ => ?_) trivial
  split_ifs
  · trivial
  · exact h _ s

/-! ## Namespaces -/

/-- The namespace is registered. -/
def Registers (s : Registry) (ns : String) : Prop :=
  ∃ key v, s.lookup key = some v ∧ startsWith key "/registry/namespaces/" = true ∧
    namespaceOf key = ns

/-- No namespace is listed twice. -/
theorem nodup_namespaces (s : Registry) :
    ((s.scan fun key => startsWith key "/registry/namespaces/").map
      fun e => namespaceOf e.1).Nodup := by
  have hkeys : (s.scan fun key => startsWith key "/registry/namespaces/").Nodup :=
    List.Nodup.of_map Prod.fst (s.nodup_scan _)
  refine hkeys.map_on fun e he e' he' heq => ?_
  have hkey := namespaceOf_inj (KeyValue.mem_scan.mp he).2 (KeyValue.mem_scan.mp he').2 heq
  refine Prod.ext hkey (Option.some_inj.mp ?_)
  rw [← (KeyValue.mem_scan.mp he).1, ← (KeyValue.mem_scan.mp he').1, hkey]

/-- Both stores have something under the same keys of namespaces. -/
def SameNamespaces (s s' : Registry) : Prop :=
  ∀ key, startsWith key "/registry/namespaces/" = true → (s'.lookup key).isSome = (s.lookup key).isSome

theorem SameNamespaces.trans {s s' s'' : Registry} (h : SameNamespaces s s')
    (h' : SameNamespaces s' s'') : SameNamespaces s s'' :=
  fun key hdir => (h' key hdir).trans (h key hdir)

theorem SameNamespaces.registers {s s' : Registry} (h : SameNamespaces s s') {ns : String} :
    Registers s' ns ↔ Registers s ns := by
  have hkeys : ∀ {s s' : Registry}, SameNamespaces s s' → Registers s ns → Registers s' ns := by
    rintro s s' h ⟨key, v, hlookup, hdir, hname⟩
    have hsome := h key hdir
    rw [hlookup] at hsome
    obtain ⟨w, hw⟩ := Option.isSome_iff_exists.mp hsome
    exact ⟨key, w, hw, hdir, hname⟩
  exact ⟨hkeys fun key hdir => (h key hdir).symm, hkeys h⟩

theorem sameNamespaces_insert {s : Registry} {key : String} {v : Object}
    (hkey : startsWith key "/registry/namespaces/" = false) : SameNamespaces s (s.insert key v) := by
  intro key' hdir
  have hne : key' ≠ key := by
    rintro rfl
    exact nomatch hkey.symm.trans hdir
  rw [KeyValue.lookup_insert_of_ne hne]

end K3rs
