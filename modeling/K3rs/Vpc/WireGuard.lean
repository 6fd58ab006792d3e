import K3rs.Cluster.Objects
import K3rs.Lib.LastWins

/-!
# The WireGuard mesh

`WireGuardManager::sync_peers` keeps the peers of the interface `wg-k3rs` in step with a list of
nodes.  It compares keys only: the peers of new keys are added, those of keys that have gone are
removed, and a peer that is there already is left as it is.

Every peer is added with the same allowed prefix `::/0`.  An interface routes a prefix to one peer,
the last one it was set for, so that in a mesh of two or more peers all but one have lost it.  In
every run the mesh is complete if and only if no list has more than one peer and a peer that stays
is listed with the endpoint it was added with (`mesh_iff`).
-/

namespace K3rs

open Tables Transition

/-! ## The interface -/

/-- The interface: the endpoints of the peers by their public keys, and the peer to which the
interface routes a prefix. -/
structure WgInterface where
  peers : KeyValue String String
  route : String → Option String

namespace WgInterface

/-- An interface without peers, as `ensure_wireguard` creates it. -/
def new : WgInterface := ⟨∅, fun _ => none⟩

variable (w : WgInterface)

/-- `add_peer`: the peer gets the endpoint, and the allowed prefix in place of those it had. -/
def addPeer (publicKey endpoint allowedIps : String) : WgInterface where
  peers := w.peers.insert publicKey endpoint
  route := fun p =>
    if p = allowedIps then some publicKey
    else if w.route p = some publicKey then none
    else w.route p

/-- `remove_peer`. -/
def removePeer (publicKey : String) : WgInterface where
  peers := w.peers.erase publicKey
  route := fun p => if w.route p = some publicKey then none else w.route p

/-- A peer is there already. -/
def HasPeer (publicKey : String) : Prop := (w.peers.lookup publicKey).isSome = true

instance (publicKey : String) : Decidable (w.HasPeer publicKey) :=
  inferInstanceAs (Decidable (_ = true))

end WgInterface

/-! ## Synchronization -/

/-- The prefix that every peer is added with. -/
def allGhosts : String := "::/0"

/-- The public key and the endpoint of another node. -/
def Node.wgPeer (own : String) (node : Node) : Option (String × String) :=
  match node.wgPublicKey, node.wgEndpoint with
  | some pubKey, some endpoint => if pubKey = own then none else some (pubKey, endpoint)
  | _, _ => none

/-- The peers that a list of nodes asks for. -/
def wgPeers (own : String) (nodes : List Node) : List (String × String) :=
  nodes.filterMap (Node.wgPeer own)

/-- `WireGuardManager::sync_peers`, when every command succeeds. -/
def WgInterface.syncPeers (w : WgInterface) (own : String) (nodes : List Node) : WgInterface :=
  let desired := wgPeers own nodes
  let added := desired.foldl (fun i p =>
    if w.HasPeer p.1 then i else i.addPeer p.1 p.2 allGhosts) w
  w.peers.rows.foldl (fun i p =>
    if p.1 ∈ desired.map Prod.fst then i else i.removePeer p.1) added

/-! ## The mesh -/

/-- The peers of the interface are those of the list, with endpoints of the list, and the prefix
that they were added with is routed to each of them. -/
structure WgInterface.Meshed (w : WgInterface) (desired : List (String × String)) : Prop where
  keys : ∀ key, w.HasPeer key ↔ key ∈ desired.map Prod.fst
  endpoints : ∀ key endpoint, w.peers.lookup key = some endpoint → (key, endpoint) ∈ desired
  routes : ∀ key, w.HasPeer key → w.route allGhosts = some key

/-- The condition on a list of nodes: it asks for one peer at most, and for a peer that is there
already with the endpoint that this one has. -/
def WgInterface.Suits (w : WgInterface) (desired : List (String × String)) : Prop :=
  (∀ p ∈ desired, ∀ p' ∈ desired, p.1 = p'.1) ∧
    ∀ p ∈ desired, ∀ endpoint ∈ w.peers.lookup p.1, (p.1, endpoint) ∈ desired

namespace WgInterface

variable {w : WgInterface} {own key : String} {nodes : List Node}

theorem hasPeer_iff : w.HasPeer key ↔ ∃ endpoint, w.peers.lookup key = some endpoint :=
  Option.isSome_iff_exists

/-! ### The two loops -/

/-- What the first loop leaves. -/
def addAll (w : WgInterface) (desired : List (String × String)) : WgInterface :=
  desired.foldl (fun i p => if w.HasPeer p.1 then i else i.addPeer p.1 p.2 allGhosts) w

/-- What the second loop leaves. -/
def removeAll (keep : List String) (rows : List (String × String)) (w : WgInterface) :
    WgInterface :=
  rows.foldl (fun i p => if p.1 ∈ keep then i else i.removePeer p.1) w

theorem syncPeers_eq : w.syncPeers own nodes = removeAll ((wgPeers own nodes).map Prod.fst)
    w.peers.rows (w.addAll (wgPeers own nodes)) := rfl

theorem addAll_append (desired : List (String × String)) (p : String × String) :
    w.addAll (desired ++ [p]) =
      if w.HasPeer p.1 then w.addAll desired else (w.addAll desired).addPeer p.1 p.2 allGhosts := by
  rw [addAll, List.foldl_append, List.foldl_cons, List.foldl_nil]
  rfl

/-- The last peer that a prefix was set for has it. -/
theorem route_addPeer (w : WgInterface) (publicKey endpoint allowedIps : String) :
    (w.addPeer publicKey endpoint allowedIps).route allowedIps = some publicKey := if_pos rfl

/-- A peer that is there already stays as it is; for others the last endpoint wins. -/
theorem lookup_addAll (desired : List (String × String)) (key : String) :
    (w.addAll desired).peers.lookup key =
      if w.HasPeer key then w.peers.lookup key else (fill desired).lookup key := by
  induction desired using List.reverseRecOn with
  | nil =>
      split_ifs with hkey
      · rfl
      · exact Option.not_isSome_iff_eq_none.mp hkey
  | append_singleton init p ih =>
      rw [addAll_append, lookup_fill_append]
      by_cases hp : w.HasPeer p.1
      · rw [if_pos hp, ih]
        by_cases hkey : w.HasPeer key
        · rw [if_pos hkey, if_pos hkey]
        · rw [if_neg hkey, if_neg hkey, if_neg]
          rintro rfl
          exact hkey hp
      · rw [if_neg hp, addPeer]
        by_cases heq : key = p.1
        · subst heq
          rw [KeyValue.lookup_insert_self, if_neg hp, if_pos rfl]
        · rw [KeyValue.lookup_insert_of_ne heq, ih, if_neg heq]

/-- The prefix goes to a peer that was added, if there is one. -/
theorem route_addAll (desired : List (String × String)) :
    (∃ p ∈ desired, (w.addAll desired).route allGhosts = some p.1) ∨
      (∀ p ∈ desired, w.HasPeer p.1) ∧
        (w.addAll desired).route allGhosts = w.route allGhosts := by
  induction desired using List.reverseRecOn with
  | nil => exact Or.inr ⟨fun p hp => absurd hp List.not_mem_nil, rfl⟩
  | append_singleton init p ih =>
      rw [addAll_append]
      by_cases hp : w.HasPeer p.1
      · rw [if_pos hp]
        rcases ih with ⟨p', hp', hroute⟩ | ⟨hall, hroute⟩
        · exact Or.inl ⟨p', List.mem_append_left _ hp', hroute⟩
        · refine Or.inr ⟨fun p' hp' => ?_, hroute⟩
          rcases List.mem_append.mp hp' with hp' | hp'
          · exact hall p' hp'
          · rw [List.mem_singleton.mp hp']
            exact hp
      · rw [if_neg hp]
        exact Or.inl ⟨p, List.mem_append_right _ (List.mem_singleton_self p), route_addPeer _ _ _ _⟩

/-- The peers of the rows go that are not kept. -/
theorem lookup_removeAll (keep : List String) (rows : List (String × String)) (key : String) :
    (removeAll keep rows w).peers.lookup key =
      if key ∈ rows.map Prod.fst ∧ key ∉ keep then none else w.peers.lookup key := by
  induction rows generalizing w with
  | nil => exact (if_neg fun h => absurd h.1 List.not_mem_nil).symm
  | cons p rest ih =>
      rw [removeAll, List.foldl_cons]
      change (removeAll keep rest _).peers.lookup key = _
      simp only [ih, List.map_cons, List.mem_cons]
      by_cases hp : p.1 ∈ keep
      · rw [if_pos hp]
        refine if_congr ⟨fun h => ⟨Or.inr h.1, h.2⟩, ?_⟩ rfl rfl
        rintro ⟨rfl | hrest, hkeep⟩
        · exact absurd hp hkeep
        · exact ⟨hrest, hkeep⟩
      · rw [if_neg hp, removePeer, KeyValue.lookup_erase]
        by_cases heq : key = p.1
        · subst heq
          rw [if_pos rfl, ite_self, if_pos ⟨Or.inl rfl, hp⟩]
        · rw [if_neg heq]
          exact if_congr (and_congr_left fun _ => (or_iff_right heq).symm) rfl rfl

/-- A peer that is kept keeps its prefix. -/
theorem route_removeAll {keep : List String} (rows : List (String × String)) (hkeep : key ∈ keep)
    (h : w.route allGhosts = some key) : (removeAll keep rows w).route allGhosts = some key := by
  induction rows generalizing w with
  | nil => exact h
  | cons p rest ih =>
      rw [removeAll, List.foldl_cons]
      refine ih ?_
      split_ifs with hp
      · exact h
      · have hne : w.route allGhosts ≠ some p.1 := by
          intro heq
          exact hp (Option.some_inj.mp (h.symm.trans heq) ▸ hkeep)
        rw [removePeer]
        exact (if_neg hne).trans h

/-! ### One pass -/

theorem mem_keys_rows : key ∈ w.peers.rows.map Prod.fst ↔ w.HasPeer key := by
  rw [hasPeer_iff, List.mem_map]
  constructor
  · rintro ⟨e, he, rfl⟩
    exact ⟨e.2, KeyValue.lookup_eq_some.mpr he⟩
  · rintro ⟨endpoint, hlookup⟩
    exact ⟨(key, endpoint), KeyValue.lookup_eq_some.mp hlookup, rfl⟩

/-- **The peers after a pass.** -/
theorem lookup_syncPeers (w : WgInterface) (own : String) (nodes : List Node) (key : String) :
    (w.syncPeers own nodes).peers.lookup key =
      if key ∈ (wgPeers own nodes).map Prod.fst then
        if w.HasPeer key then w.peers.lookup key else (fill (wgPeers own nodes)).lookup key
      else none := by
  simp only [syncPeers_eq, lookup_removeAll, mem_keys_rows, lookup_addAll]
  by_cases hkeep : key ∈ (wgPeers own nodes).map Prod.fst
  · rw [if_neg fun h => h.2 hkeep, if_pos hkeep]
  · rw [if_neg hkeep]
    by_cases hkey : w.HasPeer key
    · rw [if_pos ⟨hkey, hkeep⟩]
    · rw [if_neg fun h => hkey h.1, if_neg hkey]
      by_contra hne
      obtain ⟨e, he, rfl⟩ := isSome_lookup_fill.mp (Option.ne_none_iff_isSome.mp hne)
      exact hkeep (List.mem_map_of_mem he)

/-- The peers are those of the list, whatever the interface was. -/
theorem hasPeer_syncPeers_iff :
    (w.syncPeers own nodes).HasPeer key ↔ key ∈ (wgPeers own nodes).map Prod.fst := by
  rw [HasPeer, lookup_syncPeers]
  split_ifs with hkeep hkey
  · exact iff_of_true hkey hkeep
  · obtain ⟨e, he, heq⟩ := List.mem_map.mp hkeep
    exact iff_of_true (isSome_lookup_fill.mpr ⟨e, he, heq⟩) hkeep
  · exact iff_of_false Bool.false_ne_true hkeep

/-- **One pass** over an interface whose peers all have their prefix. -/
theorem meshed_syncPeers_iff (hroutes : ∀ key, w.HasPeer key → w.route allGhosts = some key) :
    (w.syncPeers own nodes).Meshed (wgPeers own nodes) ↔ w.Suits (wgPeers own nodes) := by
  constructor
  · intro h
    refine ⟨fun p hp p' hp' => ?_, fun p hp endpoint hendpoint => ?_⟩
    · -- both own the one prefix
      have hroute : ∀ {q}, q ∈ wgPeers own nodes →
          (w.syncPeers own nodes).route allGhosts = some q.1 :=
        fun hq => h.routes _ ((h.keys _).mpr (List.mem_map_of_mem hq))
      exact Option.some_inj.mp ((hroute hp).symm.trans (hroute hp'))
    · refine h.endpoints p.1 endpoint ?_
      rw [lookup_syncPeers, if_pos (List.mem_map_of_mem hp),
        if_pos (hasPeer_iff.mpr ⟨endpoint, hendpoint⟩)]
      exact hendpoint
  · rintro ⟨hone, hsame⟩
    refine ⟨fun key => hasPeer_syncPeers_iff, fun key endpoint hlookup => ?_, fun key hkey => ?_⟩
    · rw [lookup_syncPeers] at hlookup
      split_ifs at hlookup with hkeep hkey
      · obtain ⟨p, hp, rfl⟩ := List.mem_map.mp hkeep
        exact hsame p hp endpoint hlookup
      · exact mem_of_lookup_fill hlookup
    · have hkeep := hasPeer_syncPeers_iff.mp hkey
      obtain ⟨p, hp, rfl⟩ := List.mem_map.mp hkeep
      rw [syncPeers_eq]
      refine route_removeAll _ hkeep ?_
      rcases w.route_addAll (wgPeers own nodes) with ⟨p', hp', hroute⟩ | ⟨hall, hroute⟩
      · rw [hroute, hone p' hp' p hp]
      · rw [hroute]
        exact hroutes p.1 (hall p hp)

/-! ## Every run -/

/-- The latest list, and the interface that it left. -/
def syncStep (own : String) (s : WgInterface × List Node) (nodes : List Node) :
    WgInterface × List Node :=
  (s.1.syncPeers own nodes, nodes)

/-- **The mesh is complete after every pass of a run** if and only if each list asks for one peer at
most, and for a peer that is there already with the endpoint that it was added with. -/
theorem mesh_iff (own : String) (lists : List (List Node)) :
    Along (syncStep own) (fun s => s.1.Meshed (wgPeers own s.2)) (new, []) lists ↔
      Admitted (syncStep own) (fun s nodes => s.1.Suits (wgPeers own nodes)) (new, []) lists := by
  refine along_iff_admitted (fun _ => True)
    (fun s : WgInterface × List Node => s.1.Meshed (wgPeers own s.2)) (fun _ _ _ => trivial)
    (fun s nodes _ h => meshed_syncPeers_iff h.routes) trivial ⟨fun key => ?_, ?_, ?_⟩
  · exact iff_of_false (by simp [HasPeer, new]) List.not_mem_nil
  · intro key endpoint hlookup
    simp [new] at hlookup
  · intro key hkey
    simp [HasPeer, new] at hkey

/-! ## A mesh of three nodes -/

/-- A node with a key and an endpoint. -/
def meshNode (name pubKey endpoint : String) : Node where
  id := name
  name := name
  address := "10.0.0.1"
  agentApiPort := 10250
  status := .ready
  registeredAt := 0
  lastHeartbeat := 0
  labels := []
  taints := []
  capacity := ⟨0, 0⟩
  allocated := ⟨0, 0⟩
  unschedulable := false
  wgPublicKey := some pubKey
  wgEndpoint := some endpoint

/-- Of two peers one has no prefix; and a node that moves keeps its old endpoint. -/
theorem mesh_fails :
    ¬Along (syncStep "A") (fun s => s.1.Meshed (wgPeers "A" s.2)) (new, [])
      [[meshNode "a" "A" "10.0.0.1:51820", meshNode "b" "B" "10.0.0.2:51820",
        meshNode "c" "C" "10.0.0.3:51820"]] ∧
    ¬Along (syncStep "A") (fun s => s.1.Meshed (wgPeers "A" s.2)) (new, [])
      [[meshNode "b" "B" "10.0.0.2:51820"], [meshNode "b" "B" "10.0.0.9:51820"]] := by
  constructor
  · intro h
    have hroutes := (h _ (List.prefix_refl _)).routes
    exact absurd (hroutes "B" (by decide)) (by decide)
  · intro h
    have hendpoints := (h _ (List.prefix_refl _)).endpoints
    exact absurd (hendpoints "B" "10.0.0.2:51820" (by decide)) (by decide)

end WgInterface

end K3rs
