import K3rs.Lib.Transition
import K3rs.Network.Services

/-!
# The store of the agent

`AgentStateCache` is what the agent knows of the cluster; two loops update it, the one of the pods
and the one of the services, and after each update the loop takes a snapshot of the cache and saves
it in the `AgentStore`.  All keys are written in one batch.

The loops run beside each other.  A loop that has taken a snapshot may save it when the other loop
has saved a newer one, and then what is stored is older than the cache.  If the snapshots are saved
in the order in which they were taken, what is stored is the cache whenever no loop is busy
(`store_follows_cache`).
-/

namespace K3rs

open Tables Transition

/-! ## What is stored -/

/-- `PathType`. -/
inductive PathType where
  | prefixed
  | exact
  deriving DecidableEq, Repr

/-- `IngressBackend`. -/
structure IngressBackend where
  serviceName : String
  servicePort : UInt16
  deriving DecidableEq, Repr

/-- `IngressPath`. -/
structure IngressPath where
  path : String
  pathType : PathType
  backend : IngressBackend
  deriving DecidableEq, Repr

/-- `IngressRule`. -/
structure IngressRule where
  host : String
  paths : List IngressPath
  deriving DecidableEq, Repr

/-- `IngressTLS`. -/
structure IngressTLS where
  hosts : List String
  secretName : String
  deriving DecidableEq, Repr

/-- `Ingress`, with its `IngressSpec`. -/
structure Ingress where
  id : String
  name : String
  ns : String
  rules : List IngressRule
  tls : Option (List IngressTLS)
  createdAt : DateTime
  deriving DecidableEq, Repr

/-- `AgentMeta`. -/
structure AgentMeta where
  nodeName : String
  nodeId : Option String
  agentApiPort : Option UInt16
  serverSeq : UInt64
  lastSyncedAt : DateTime
  deriving DecidableEq, Repr

/-- `AgentStateCache`; its first fields are those of `AgentMeta`. -/
structure AgentStateCache extends AgentMeta where
  pods : List Pod
  services : List Service
  endpoints : List Endpoint
  ingresses : List Ingress
  deriving DecidableEq, Repr

/-- `AgentStateCache::derive_dns_map`. -/
def deriveDnsMap (services : List Service) : AList fun _ : String => String := fill (dnsEntries services)

/-- The keys of the store, all written in one batch. -/
structure AgentDb where
  info : AgentMeta
  pods : List Pod
  services : List Service
  endpoints : List Endpoint
  ingresses : List Ingress
  routes : AList fun _ : String => List String
  dnsRecords : AList fun _ : String => String

namespace AgentStore

/-- `AgentStore::save`: the batch. -/
def save (cache : AgentStateCache) : AgentDb where
  info := cache.toAgentMeta
  pods := cache.pods
  services := cache.services
  endpoints := cache.endpoints
  ingresses := cache.ingresses
  routes := deriveRoutesMap cache.services cache.endpoints
  dnsRecords := deriveDnsMap cache.services

/-- `AgentStore::load`; nothing is there before the first save. -/
def load (db : Option AgentDb) : Option AgentStateCache :=
  db.map fun db => ⟨db.info, db.pods, db.services, db.endpoints, db.ingresses⟩

/-- The pods, services and endpoints of a cache. -/
def collections (cache : AgentStateCache) : List Pod × List Service × List Endpoint :=
  (cache.pods, cache.services, cache.endpoints)

/-- The pods, services and endpoints that the store holds. -/
def held (db : Option AgentDb) : List Pod × List Service × List Endpoint :=
  ((load db).map collections).getD ([], [], [])

end AgentStore

/-! ## The two loops -/

/-- The loops that update the cache. -/
inductive SyncLoop where
  | pods
  | routes
  deriving DecidableEq, Repr

/-- Where a loop is.  A snapshot comes with the number of updates that are in it. -/
inductive SyncPhase where
  | idle
  | updated
  | snapshotted (snapshot : AgentStateCache) (updates : ℕ)

/-- The cache, the store, and the loops.  The numbers are of the updates so far, and of those in
what was saved last. -/
structure SyncState where
  cache : AgentStateCache
  db : Option AgentDb
  phase : SyncLoop → SyncPhase
  updates : ℕ
  saved : ℕ

/-- A step of one of the loops; a save succeeds or fails. -/
inductive SyncStep where
  | updatePods (pods : List Pod) (now : DateTime)
  | updateRoutes (services : List Service) (endpoints : List Endpoint) (now : DateTime)
  | snapshot (loop : SyncLoop)
  | save (loop : SyncLoop) (ok : Bool)

namespace SyncState

/-- The loop goes on. -/
def enter (s : SyncState) (loop : SyncLoop) (phase : SyncPhase) : SyncState :=
  { s with phase := Function.update s.phase loop phase }

/-- An idle loop has updated the cache. -/
def update (s : SyncState) (loop : SyncLoop) (cache : AgentStateCache) : SyncState :=
  match s.phase loop with
  | .idle => { s.enter loop .updated with cache := cache, updates := s.updates + 1 }
  | _ => s

/-- One step; what a loop does next is determined by its phase. -/
def next (s : SyncState) : SyncStep → SyncState
  | .updatePods pods now => s.update .pods { s.cache with pods := pods, lastSyncedAt := now }
  | .updateRoutes services endpoints now =>
      s.update .routes
        { s.cache with services := services, endpoints := endpoints, lastSyncedAt := now }
  | .snapshot loop =>
      match s.phase loop with
      | .updated => s.enter loop (.snapshotted s.cache s.updates)
      | _ => s
  | .save loop ok =>
      match s.phase loop with
      | .snapshotted snapshot updates =>
          if ok then
            { s.enter loop .idle with db := some (AgentStore.save snapshot), saved := updates }
          else s.enter loop .idle
      | _ => s

/-- No loop is between its update and its save. -/
def Quiet (s : SyncState) : Prop := ∀ loop, s.phase loop = .idle

/-- The store holds what the cache has. -/
def Follows (s : SyncState) : Prop := AgentStore.held s.db = AgentStore.collections s.cache

/-- A save succeeds, and no newer snapshot has been saved. -/
def InOrder (s : SyncState) : SyncStep → Prop
  | .save loop ok =>
      match s.phase loop with
      | .snapshotted _ updates => ok = true ∧ s.saved ≤ updates
      | _ => True
  | _ => True

/-- The agent has started with what its store holds. -/
def start (cache : AgentStateCache) (db : Option AgentDb) : SyncState where
  cache := cache
  db := db
  phase := fun _ => .idle
  updates := 0
  saved := 0

/-- The loop will save all updates. -/
def Carries (s : SyncState) (loop : SyncLoop) : Prop :=
  s.phase loop = .updated ∨ ∃ snapshot, s.phase loop = .snapshotted snapshot s.updates

/-- What holds in every state: snapshots are of the past, and all updates are saved or carried. -/
structure PersistInv (s : SyncState) : Prop where
  past : ∀ loop snapshot updates, s.phase loop = .snapshotted snapshot updates →
    updates ≤ s.updates ∧
      (updates = s.updates → AgentStore.collections snapshot = AgentStore.collections s.cache)
  savedPast : s.saved ≤ s.updates
  saved : s.saved = s.updates → s.Follows
  carried : s.saved = s.updates ∨ ∃ loop, s.Carries loop

section Steps

variable {s : SyncState}

/-- An update is carried by its loop. -/
theorem PersistInv.update (h : s.PersistInv) (loop : SyncLoop) (cache : AgentStateCache) :
    (s.update loop cache).PersistInv := by
  rw [SyncState.update]
  cases hphase : s.phase loop with
  | idle =>
      refine ⟨fun loop' snapshot updates hloop' => ?_, Nat.le_succ_of_le h.savedPast, fun heq => ?_,
        Or.inr ⟨loop, Or.inl (Function.update_self _ _ _)⟩⟩
      · by_cases hloop : loop' = loop
        · subst hloop
          simp only [enter, Function.update_self] at hloop'
          exact nomatch hloop'
        · simp only [enter, Function.update_of_ne hloop] at hloop'
          have hle := (h.past loop' snapshot updates hloop').1
          exact ⟨Nat.le_succ_of_le hle, fun heq => absurd heq (Nat.ne_of_lt (Nat.lt_succ_of_le hle))⟩
      · exact absurd heq (Nat.ne_of_lt (Nat.lt_succ_of_le h.savedPast))
  | updated => exact h
  | snapshotted snapshot updates => exact h

/-- A snapshot has all updates so far. -/
theorem PersistInv.snapshot (h : s.PersistInv) (loop : SyncLoop) :
    (s.next (.snapshot loop)).PersistInv := by
  rw [SyncState.next]
  cases hphase : s.phase loop with
  | idle => exact h
  | updated =>
      refine ⟨fun loop' snapshot updates hloop' => ?_, h.savedPast, h.saved, ?_⟩
      · by_cases hloop : loop' = loop
        · subst hloop
          simp only [enter, Function.update_self, SyncPhase.snapshotted.injEq] at hloop'
          obtain ⟨rfl, rfl⟩ := hloop'
          exact ⟨le_rfl, fun _ => rfl⟩
        · simp only [enter, Function.update_of_ne hloop] at hloop'
          exact h.past loop' snapshot updates hloop'
      · exact Or.inr ⟨loop, Or.inr ⟨s.cache, Function.update_self _ _ _⟩⟩
  | snapshotted snapshot updates => exact h

/-- **A save in order** saves all updates, or another loop carries them. -/
theorem PersistInv.save (h : s.PersistInv) {loop : SyncLoop} {ok : Bool}
    (hs : s.InOrder (.save loop ok)) : (s.next (.save loop ok)).PersistInv := by
  rw [SyncState.next]
  rw [InOrder] at hs
  cases hphase : s.phase loop with
  | idle => exact h
  | updated => exact h
  | snapshotted snapshot updates =>
      rw [hphase] at hs
      obtain ⟨rfl, hnewer⟩ := hs
      obtain ⟨hpast, hsame⟩ := h.past loop snapshot updates hphase
      refine ⟨fun loop' snapshot' updates' hloop' => ?_, hpast, hsame, ?_⟩
      · by_cases hloop : loop' = loop
        · subst hloop
          simp only [if_true, enter, Function.update_self] at hloop'
          exact nomatch hloop'
        · simp only [if_true, enter, Function.update_of_ne hloop] at hloop'
          exact h.past loop' snapshot' updates' hloop'
      · by_cases hall : updates = s.updates
        · exact Or.inl hall
        · -- The snapshot lacks an update, so that its loop is not the one that carries them.
          obtain ⟨carrier, hcarrier⟩ := h.carried.resolve_left (by omega)
          have hne : carrier ≠ loop := by
            rintro rfl
            rcases hcarrier with hupdated | ⟨snapshot', hsnapshot'⟩
            · exact nomatch hupdated.symm.trans hphase
            · rw [hphase, SyncPhase.snapshotted.injEq] at hsnapshot'
              exact hall hsnapshot'.2
          refine Or.inr ⟨carrier, ?_⟩
          simp only [Carries, if_true, enter, Function.update_of_ne hne]
          exact hcarrier

/-- **One step.** -/
theorem PersistInv.next (h : s.PersistInv) {step : SyncStep} (hs : s.InOrder step) :
    (s.next step).PersistInv := by
  cases step with
  | updatePods pods now => exact h.update _ _
  | updateRoutes services endpoints now => exact h.update _ _
  | snapshot loop => exact h.snapshot loop
  | save loop ok => exact h.save hs

/-- When no loop is busy, nobody carries updates. -/
theorem PersistInv.follows (h : s.PersistInv) (hquiet : s.Quiet) : s.Follows := by
  refine h.saved (h.carried.resolve_right ?_)
  rintro ⟨loop, hupdated | ⟨snapshot, hsnapshot⟩⟩
  · exact nomatch hupdated.symm.trans (hquiet loop)
  · exact nomatch hsnapshot.symm.trans (hquiet loop)

theorem persistInv_start {cache : AgentStateCache} {db : Option AgentDb}
    (h : (start cache db).Follows) : (start cache db).PersistInv where
  past _ _ _ hphase := nomatch hphase
  savedPast := le_rfl
  saved _ := h
  carried := Or.inl rfl

end Steps

end SyncState

open SyncState in
/-- **Persistence follows memory.**  In every run in which the saves succeed, in the order in which
their snapshots were taken, the store holds the pods, services and endpoints of the cache whenever
no loop is between its update and its save. -/
theorem store_follows_cache (cache : AgentStateCache) (db : Option AgentDb)
    (hstart : (start cache db).Follows) (steps : List SyncStep)
    (h : Admitted next InOrder (start cache db) steps) :
    Along next (fun s => s.Quiet → s.Follows) (start cache db) steps :=
  (along_of_admitted PersistInv (fun _ _ hs hinv => hinv.next hs) (persistInv_start hstart) h).mono
    fun _ hinv => hinv.follows

/-! ## A snapshot that is saved too late -/

/-- A cache without pods and services. -/
def emptyCache : AgentStateCache where
  nodeName := "worker"
  nodeId := some "n1"
  agentApiPort := none
  serverSeq := 0
  lastSyncedAt := 0
  pods := []
  services := []
  endpoints := []
  ingresses := []

/-- Both loops, one after the other. -/
def inTurn : List SyncStep :=
  [.updatePods [] 1, .snapshot .pods, .save .pods true,
   .updateRoutes [webService "web" "10.43.0.2"] [] 2, .snapshot .routes, .save .routes true]

/-- The snapshot of the pods is saved after that of the services. -/
def overtaken : List SyncStep :=
  [.updatePods [] 1, .snapshot .pods,
   .updateRoutes [webService "web" "10.43.0.2"] [] 2, .snapshot .routes, .save .routes true,
   .save .pods true]

instance (s : SyncState) (step : SyncStep) : Decidable (s.InOrder step) := by
  unfold SyncState.InOrder
  split
  · split <;> infer_instance
  · infer_instance

open SyncState in
theorem store_follows_cache_inTurn :
    Along next (fun s => s.Quiet → s.Follows) (start emptyCache none) inTurn :=
  store_follows_cache emptyCache none rfl inTurn (by decide)

open SyncState in
/-- The older snapshot stays: the service is in the cache and not in the store. -/
theorem store_follows_cache_fails :
    (start emptyCache none).Follows ∧
      ¬Along next (fun s => s.Quiet → s.Follows) (start emptyCache none) overtaken := by
  refine ⟨rfl, fun h => ?_⟩
  have hfollows := h overtaken (List.prefix_refl _) (fun loop => by cases loop <;> rfl)
  rw [Follows] at hfollows
  exact absurd hfollows (by decide)

end K3rs
