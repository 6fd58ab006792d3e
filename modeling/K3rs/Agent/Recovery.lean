import K3rs.Cluster.Objects

/-!
# Recovery of an agent

An agent that comes back looks for the containers that still run on its node and asks the
server which pods it should run.  A container whose id is that of a desired pod is adopted,
every other one is stopped.

`obtained` is the list that this should be decided by: the pods of a successful answer that
reads as a pod list, or else the pods of the cache.  The source goes by the cache only when
there is no answer at all.  An answer of any status is read as a pod list, and one that does not
read so counts as the empty list (`desiredPods`).  `recovery_stops_only_orphans_iff` says when
that makes no difference.
-/

namespace K3rs

namespace Recovery

/-! ## The procedure -/

/-- What comes of the request for the desired pods. -/
inductive Fetched where
  /-- `send` fails. -/
  | connectionError (e : String)
  /-- An answer: its status, and the pods that its body reads as, if it reads as a pod list. -/
  | response (status : UInt16) (pods : Option (List Pod))
  deriving DecidableEq, Repr

/-- What the agent does to the world. -/
inductive Effect where
  /-- A request for the pods of the node. -/
  | getPods (url authorization : String)
  /-- A report of a status. -/
  | putStatus (url authorization : String) (status : PodStatus)
  /-- `ContainerRuntime::cleanup_container`. -/
  | cleanupContainer (cid : String)
  deriving DecidableEq, Repr

/-- `str::trim_end_matches`. -/
def trimEndMatches (s : String) (c : Char) : String :=
  String.ofList (s.toList.reverse.dropWhile fun d => d == c).reverse

/-- The pods that the agent takes for desired: `resp.json().await.unwrap_or_default()`, or the
cache if there is no answer. -/
def desiredPods (fetched : Fetched) (cachedPods : List Pod) : List Pod :=
  match fetched with
  | .response _ pods => pods.getD []
  | .connectionError _ => cachedPods

/-- The name and the namespace of each desired pod, by its id. -/
def desiredRunningIds (pods : List Pod) : AList fun _ : String => String × String :=
  pods.foldl (fun ids pod => ids.insert pod.id (pod.name, pod.ns)) ∅

/-- What is done about one discovered container. -/
def recoverContainer (server token : String) (ids : AList fun _ : String => String × String)
    (cid : String) : Effect :=
  match ids.lookup cid with
  | some (podName, podNs) =>
      .putStatus (trimEndMatches server '/' ++ "/api/v1/namespaces/" ++ podNs ++ "/pods/" ++ podName ++
        "/status") ("Bearer " ++ token) .running
  | none => .cleanupContainer cid

/-- `run_recovery`: all that the agent does, in order.  The containers are those that the runtime
has discovered; if that has failed there are none. -/
def runRecovery (containers : Except String (List String)) (nodeId : Option String)
    (server nodeName token : String) (fetched : Fetched) (cachedPods : List Pod) : List Effect :=
  let discovered := containers.toOption.getD []
  match nodeId with
  | some _ =>
      .getPods (trimEndMatches server '/' ++ "/api/v1/pods?fieldSelector=spec.nodeName=" ++ nodeName)
          ("Bearer " ++ token) ::
        discovered.map
          (recoverContainer server token (desiredRunningIds (desiredPods fetched cachedPods)))
  | none => discovered.map .cleanupContainer

/-! ## What is stopped -/

/-- `StatusCode::is_success`. -/
def isSuccess (status : UInt16) : Bool := decide (200 ≤ status) && decide (status < 300)

/-- The desired list that has been obtained: a success that reads as a pod list, or the cache. -/
def obtained (fetched : Fetched) (cachedPods : List Pod) : List Pod :=
  match fetched with
  | .response status (some pods) => if isSuccess status then pods else cachedPods
  | .response _ none => cachedPods
  | .connectionError _ => cachedPods

/-- The ids of some pods. -/
def ids (pods : List Pod) : List String := pods.map Pod.id

theorem isSome_lookup_desiredRunningIds (pods : List Pod) (cid : String) :
    ((desiredRunningIds pods).lookup cid).isSome = true ↔ cid ∈ ids pods := by
  -- The last pod with an id decides, so that the induction is from the end.
  induction pods using List.reverseRecOn with
  | nil => exact ⟨fun h => (nomatch h), fun h => absurd h List.not_mem_nil⟩
  | append_singleton pods pod ih =>
      rw [desiredRunningIds, List.foldl_append, ids, List.map_append, List.mem_append,
        List.map_singleton, List.mem_singleton, List.foldl_cons, List.foldl_nil]
      by_cases hid : cid = pod.id
      · subst hid
        rw [AList.lookup_insert]
        exact ⟨fun _ => Or.inr rfl, fun _ => rfl⟩
      · rw [AList.lookup_insert_ne hid, or_iff_left hid]
        exact ih

/-- A container is stopped when no pod of the list has its id. -/
theorem recoverContainer_eq_cleanup (server token : String) (pods : List Pod) (cid cid' : String) :
    recoverContainer server token (desiredRunningIds pods) cid = .cleanupContainer cid' ↔
      cid = cid' ∧ cid ∉ ids pods := by
  rw [← isSome_lookup_desiredRunningIds, recoverContainer]
  cases (desiredRunningIds pods).lookup cid with
  | none => simp
  | some pod => simp

/-- **What the agent stops**: the discovered containers that are not among the pods that it
takes for desired. -/
theorem cleanup_mem_runRecovery {containers : Except String (List String)}
    {id server nodeName token : String} {fetched : Fetched} {cachedPods : List Pod} {cid : String} :
    .cleanupContainer cid ∈ runRecovery containers (some id) server nodeName token fetched
        cachedPods ↔
      cid ∈ containers.toOption.getD [] ∧ cid ∉ ids (desiredPods fetched cachedPods) := by
  rw [runRecovery, List.mem_cons, or_iff_right (by exact fun h => nomatch h), List.mem_map]
  constructor
  · rintro ⟨cid', hmem, hstop⟩
    obtain ⟨rfl, hnot⟩ := (recoverContainer_eq_cleanup _ _ _ _ _).mp hstop
    exact ⟨hmem, hnot⟩
  · rintro ⟨hmem, hnot⟩
    exact ⟨cid, hmem, (recoverContainer_eq_cleanup _ _ _ _ _).mpr ⟨rfl, hnot⟩⟩

/-- The agent stops a container only if its id is missing from the list that was obtained. -/
def StopsOnlyOrphans (containers : Except String (List String)) (id server nodeName token : String)
    (fetched : Fetched) (cachedPods : List Pod) : Prop :=
  ∀ cid, .cleanupContainer cid ∈
      runRecovery containers (some id) server nodeName token fetched cachedPods →
    cid ∉ ids (obtained fetched cachedPods)

/-- There was no answer, or it was a success that reads as a pod list; or else every discovered
container that the cache has is also in what the body reads as. -/
def Spares (containers : Except String (List String)) (fetched : Fetched) (cachedPods : List Pod) :
    Prop :=
  match fetched with
  | .connectionError _ => True
  | .response status pods =>
      isSuccess status = true ∧ pods ≠ none ∨
        ∀ cid ∈ containers.toOption.getD [], cid ∈ ids cachedPods → cid ∈ ids (pods.getD [])

/-- **When recovery stops orphans only.** -/
theorem recovery_stops_only_orphans_iff (containers : Except String (List String))
    (id server nodeName token : String) (fetched : Fetched) (cachedPods : List Pod) :
    StopsOnlyOrphans containers id server nodeName token fetched cachedPods ↔
      Spares containers fetched cachedPods := by
  simp only [StopsOnlyOrphans, cleanup_mem_runRecovery]
  cases fetched with
  | connectionError e => exact ⟨fun _ => trivial, fun _ cid h => h.2⟩
  | response status pods =>
      -- A failure, or a body that is no list: the cache counts, and the agent goes by the body.
      have hcache : (∀ cid, cid ∈ containers.toOption.getD [] ∧ cid ∉ ids (pods.getD []) →
          cid ∉ ids cachedPods) ↔
          ∀ cid ∈ containers.toOption.getD [], cid ∈ ids cachedPods → cid ∈ ids (pods.getD []) := by
        refine forall_congr' fun cid => ?_
        rw [and_imp]
        exact imp_congr_right fun _ => not_imp_not
      cases pods with
      | none =>
          rw [Spares, or_iff_right (by simp)]
          exact hcache
      | some pods =>
          cases hstatus : isSuccess status with
          | true =>
              rw [Spares, or_iff_left_of_imp (fun _ => ⟨hstatus, nofun⟩), obtained, if_pos hstatus]
              exact ⟨fun _ => ⟨hstatus, nofun⟩, fun _ cid h => h.2⟩
          | false =>
              rw [Spares, or_iff_right (by simp [hstatus]), obtained, if_neg (by simp [hstatus])]
              exact hcache

/-- A pod that the agent has in its cache. -/
def cachedPod : Pod where
  id := "c1"
  name := "web-1"
  ns := "default"
  spec := ⟨[], none, [], [], [], none⟩
  status := .running
  statusMessage := none
  containerId := some "c1"
  nodeName := some "worker"
  labels := []
  ownerRef := none
  restartCount := 0
  runtimeInfo := none
  ghostIpv6 := none
  vpcName := none
  createdAt := 0

/-- During a restore the server answers 503, and the agent stops what it should run. -/
theorem recovery_stops_cached_pod :
    ¬∀ (containers : Except String (List String)) (id server nodeName token : String)
      (fetched : Fetched) (cachedPods : List Pod),
      StopsOnlyOrphans containers id server nodeName token fetched cachedPods := by
  intro h
  refine h (.ok ["c1"]) "n1" "https://server" "worker" "t" (.response 503 none) [cachedPod] "c1" ?_ ?_
  · decide
  · decide

end Recovery

end K3rs
