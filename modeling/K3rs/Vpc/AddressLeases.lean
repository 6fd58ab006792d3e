import K3rs.Vpc.Allocator
import K3rs.Lib.Leases
import K3rs.Lib.Transition

/-!
# Who holds which address

An allocation is a lease: it begins when `allocate` returns `Ok` and ends when `release`
does.  `NodeState.live` keeps the leases of a daemon beside its allocator, by what the calls
returned and not by what the pools hold, so that it can be compared with the pools.

## One daemon

As long as a pool exists it knows the leases of its VPC (`PoolOk`), and a new address is
none of them.  `sync_vpcs` can break this: it drops the pool of a VPC that is not listed
and builds an empty one when the VPC is listed again, while the pods still run.
`NoLiveReset` says that this does not happen, and `node_addresses_unique` that it is all
that can go wrong.

## Many daemons

Daemons do not know each other's pools.  Two of them hand out the same addresses of a VPC,
in the same order; `OneNodePerVpc` says that no VPC is used on two nodes at a time, and
`cluster_addresses_unique` is the result under it.
-/

namespace K3rs

open Net Tables Leases Transition

/-! ## One daemon -/

/-- A daemon's allocator and store, and the leases it has given: by VPC name and pod id. -/
structure NodeState where
  allocator : GhostAllocator
  store : VpcStore
  live : String → String → Option Allocation

/-- A daemon that starts on an empty store. -/
def NodeState.init (platformPrefix clusterId : UInt32) : NodeState where
  allocator := .new platformPrefix clusterId
  store := {}
  live _ _ := none

/-- The calls that change the allocator. -/
inductive AllocatorCall where
  | syncVpcs (vpcs : List Vpc)
  | allocate (podId vpcName : String)
  | release (podId vpcName : String)

/-- The lease of one pod set to the given value. -/
def setLease (live : String → String → Option Allocation) (vpcName podId : String)
    (lease : Option Allocation) : String → String → Option Allocation :=
  Function.update live vpcName (Function.update (live vpcName) podId lease)

/-- One call, with a store that works. -/
def NodeState.call (s : NodeState) : AllocatorCall → NodeState
  | .syncVpcs vpcs => { s with allocator := s.allocator.syncVpcs vpcs }
  | .allocate podId vpcName =>
      match s.allocator.allocate s.store (.ok ()) podId vpcName with
      | (.ok r, a, store) => ⟨a, store, setLease s.live vpcName podId (some r.allocation)⟩
      | (.error _, a, store) => ⟨a, store, s.live⟩
  | .release podId vpcName =>
      match s.allocator.release s.store (.ok ()) podId vpcName with
      | (.ok _, a, store) => ⟨a, store, setLease s.live vpcName podId none⟩
      | (.error _, a, store) => ⟨a, store, s.live⟩

/-- No two pods of a VPC hold the same guest address or the same Ghost address. -/
def NodeState.AddressesUnique (s : NodeState) : Prop :=
  ∀ vpcName podId podId' x y, podId ≠ podId' → s.live vpcName podId = some x →
    s.live vpcName podId' = some y → x.guestIpv4 ≠ y.guestIpv4 ∧ x.ghostIpv6 ≠ y.ghostIpv6

/-- No `sync_vpcs` lists a VPC that has no pool but still has live pods. -/
def NoLiveReset (s : NodeState) : AllocatorCall → Prop
  | .syncVpcs vpcs => ∀ vpc ∈ vpcs, s.allocator.pools.lookup vpc.name = none →
      ∀ podId, s.live vpc.name podId = none
  | .allocate _ _ => True
  | .release _ _ => True

/-! ### Pools and leases -/

/-- A pool that knows the leases of its VPC. -/
structure PoolOk (platformPrefix clusterId : UInt32) (live : String → Option Allocation)
    (pool : VpcPool) : Prop where
  live : Sub live fun pod => pool.allocations.lookup pod
  guests : Exclusive Allocation.guestIpv4 fun pod => pool.allocations.lookup pod
  ghost : ∀ pod alloc, pool.allocations.lookup pod = some alloc →
    alloc.ghostIpv6 = construct platformPrefix clusterId pool.vpcId alloc.guestIpv4

section Pools

variable {p c : UInt32} {live : String → Option Allocation} {pool : VpcPool}

/-- The Ghost addresses of a pool are as distinct as its guest addresses. -/
theorem PoolOk.ghosts (h : PoolOk p c live pool) :
    Exclusive Allocation.ghostIpv6 fun pod => pool.allocations.lookup pod := by
  refine h.guests.of_determined fun pod pod' x y hx hy heq => ?_
  rw [h.ghost pod x hx, h.ghost pod' y hy] at heq
  exact (construct_injective heq).2.2.2

theorem PoolOk.of_empty (hlive : ∀ pod, live pod = none) (hpool : pool.allocations = ∅) :
    PoolOk p c live pool := by
  have hlookup : ∀ pod alloc, pool.allocations.lookup pod ≠ some alloc := by
    intro pod alloc h
    rw [hpool, AList.lookup_empty] at h
    cases h
  refine ⟨fun pod alloc h => ?_, fun pod pod' x y h => ?_, fun pod alloc h => ?_⟩
  · rw [hlive pod] at h
    cases h
  · exact absurd h (hlookup pod x)
  · exact absurd h (hlookup pod alloc)

private theorem lookup_insert_eq (m : AList fun _ : String => Allocation) (pod : String)
    (alloc : Allocation) :
    (fun p => (m.insert pod alloc).lookup p) =
      Function.update (fun p => m.lookup p) pod (some alloc) := by
  funext p
  by_cases h : p = pod
  · subst h
    rw [AList.lookup_insert, Function.update_self]
  · rw [AList.lookup_insert_ne h, Function.update_of_ne h]

private theorem lookup_erase_eq (m : AList fun _ : String => Allocation) (pod : String) :
    (fun p => (m.erase pod).lookup p) = Function.update (fun p => m.lookup p) pod none := by
  funext p
  by_cases h : p = pod
  · subst h
    rw [AList.lookup_erase, Function.update_self]
  · rw [AList.lookup_erase_ne h, Function.update_of_ne h]

/-- A pod that asks again gets the lease of its allocation. -/
theorem PoolOk.renew (h : PoolOk p c live pool) {pod : String} {alloc : Allocation}
    (hpod : pool.allocations.lookup pod = some alloc) :
    PoolOk p c (Function.update live pod (some alloc)) pool := by
  refine ⟨fun pod' alloc' h' => ?_, h.guests, h.ghost⟩
  by_cases e : pod' = pod
  · subst e
    rw [Function.update_self] at h'
    exact hpod.trans h'
  · rw [Function.update_of_ne e] at h'
    exact h.live pod' alloc' h'

/-- A new allocation. -/
theorem PoolOk.assign (h : PoolOk p c live pool) {pod : String} {offset : UInt32}
    {alloc : Allocation}
    (hghost : alloc.ghostIpv6 = construct p c pool.vpcId alloc.guestIpv4)
    (hfresh : ∀ pod' alloc', pool.allocations.lookup pod' = some alloc' →
      alloc'.guestIpv4 ≠ alloc.guestIpv4) :
    PoolOk p c (Function.update live pod (some alloc)) (pool.assign pod offset alloc) := by
  have hlookup : (fun q => (pool.assign pod offset alloc).allocations.lookup q) =
      Function.update (fun q => pool.allocations.lookup q) pod (some alloc) :=
    lookup_insert_eq _ _ _
  refine ⟨?_, ?_, fun pod' alloc' h' => ?_⟩
  · rw [hlookup]
    exact h.live.grant pod alloc
  · rw [hlookup]
    exact h.guests.grant hfresh
  · have h'' : Function.update (fun q => pool.allocations.lookup q) pod (some alloc) pod' =
        some alloc' := (congrFun hlookup pod').symm.trans h'
    by_cases e : pod' = pod
    · subst e
      rw [Function.update_self, Option.some_inj] at h''
      exact h'' ▸ hghost
    · rw [Function.update_of_ne e] at h''
      exact h.ghost pod' alloc' h''

/-- A release. -/
theorem PoolOk.unassign (h : PoolOk p c live pool) (pod : String) :
    PoolOk p c (Function.update live pod none) (pool.unassign pod) := by
  have hlookup : (fun q => (pool.unassign pod).allocations.lookup q) =
      Function.update (fun q => pool.allocations.lookup q) pod none := lookup_erase_eq _ _
  have hsub : Sub (fun q => (pool.unassign pod).allocations.lookup q)
      fun q => pool.allocations.lookup q := by
    rw [hlookup]
    exact Sub.of_revoke _ pod
  refine ⟨?_, h.guests.mono hsub, fun pod' alloc' h' => h.ghost pod' alloc' (hsub _ _ h')⟩
  rw [hlookup]
  exact h.live.revoke pod

end Pools

/-! ### The invariant -/

/-- Leases are exclusive, and every pool knows those of its VPC. -/
structure NodeState.Inv (s : NodeState) : Prop where
  guests : ∀ vpcName, Exclusive Allocation.guestIpv4 (s.live vpcName)
  ghosts : ∀ vpcName, Exclusive Allocation.ghostIpv6 (s.live vpcName)
  pools : ∀ vpcName pool, s.allocator.pools.lookup vpcName = some pool →
    PoolOk s.allocator.platformPrefix s.allocator.clusterId (s.live vpcName) pool

namespace NodeState

variable {s : NodeState}

theorem Inv.addressesUnique (h : s.Inv) : s.AddressesUnique := by
  intro vpcName podId podId' x y hne hx hy
  exact ⟨fun heq => hne (h.guests vpcName _ _ _ _ hx hy heq),
    fun heq => hne (h.ghosts vpcName _ _ _ _ hx hy heq)⟩

theorem inv_init (platformPrefix clusterId : UInt32) :
    (NodeState.init platformPrefix clusterId).Inv where
  guests _ _ _ _ _ h := by cases h
  ghosts _ _ _ _ _ h := by cases h
  pools _ _ h := by cases h

/-- A call that touches one VPC: its pool and one of its leases. -/
theorem Inv.touch (h : s.Inv) {a : GhostAllocator} {store : VpcStore} {vpcName podId : String}
    {pool : VpcPool} {lease : Option Allocation}
    (hpre : a.platformPrefix = s.allocator.platformPrefix)
    (hcluster : a.clusterId = s.allocator.clusterId)
    (hself : a.pools.lookup vpcName = some pool)
    (hother : ∀ name, name ≠ vpcName → a.pools.lookup name = s.allocator.pools.lookup name)
    (hpool : PoolOk s.allocator.platformPrefix s.allocator.clusterId
      (Function.update (s.live vpcName) podId lease) pool) :
    Inv ⟨a, store, setLease s.live vpcName podId lease⟩ := by
  have hlive : ∀ name, name ≠ vpcName → setLease s.live vpcName podId lease name = s.live name :=
    fun name hne => Function.update_of_ne hne _ _
  have hlease : setLease s.live vpcName podId lease vpcName =
      Function.update (s.live vpcName) podId lease := Function.update_self _ _ _
  refine ⟨fun name => ?_, fun name => ?_, fun name pool' h' => ?_⟩
  · show Exclusive _ (setLease s.live vpcName podId lease name)
    by_cases e : name = vpcName
    · rw [e, hlease]
      exact hpool.guests.mono hpool.live
    · rw [hlive name e]
      exact h.guests name
  · show Exclusive _ (setLease s.live vpcName podId lease name)
    by_cases e : name = vpcName
    · rw [e, hlease]
      exact hpool.ghosts.mono hpool.live
    · rw [hlive name e]
      exact h.ghosts name
  · show PoolOk a.platformPrefix a.clusterId (setLease s.live vpcName podId lease name) pool'
    rw [hpre, hcluster]
    by_cases e : name = vpcName
    · have heq : pool = pool' := Option.some_inj.mp (hself.symm.trans (e ▸ h'))
      rw [e, hlease, ← heq]
      exact hpool
    · rw [hlive name e]
      exact h.pools name pool' ((hother name e).symm.trans h')

/-- What an `allocate` call does to a daemon and its leases. -/
theorem call_allocate_cases (s : NodeState) (podId vpcName : String) :
    s.call (.allocate podId vpcName) = s ∨
      ∃ pool, s.allocator.pools.lookup vpcName = some pool ∧
        ((∃ existing, pool.allocations.lookup podId = some existing ∧
            s.call (.allocate podId vpcName) =
              ⟨s.allocator, s.store, setLease s.live vpcName podId (some existing)⟩) ∨
          ∃ offset store, pool.findOffset = some offset ∧
            s.call (.allocate podId vpcName) =
              ⟨{ s.allocator with
                  pools := s.allocator.pools.insert vpcName
                    (pool.assign podId offset (s.allocator.allocationAt pool offset)) },
                store, setLease s.live vpcName podId
                  (some (s.allocator.allocationAt pool offset))⟩) := by
  rcases s.allocator.allocate_cases s.store (.ok ()) podId vpcName with
    ⟨e, heq⟩ | ⟨pool, hpool, ⟨existing, hpod, heq⟩ | ⟨offset, hpod, hoffset, -, heq⟩⟩
  · left
    rw [call, heq]
  · exact Or.inr ⟨pool, hpool, Or.inl ⟨existing, hpod, by rw [call, heq]; rfl⟩⟩
  · exact Or.inr ⟨pool, hpool, Or.inr ⟨offset, _, hoffset, by rw [call, heq]; rfl⟩⟩

/-- What a `release` call does. -/
theorem call_release_cases (s : NodeState) (podId vpcName : String) :
    s.call (.release podId vpcName) = s ∨
      ∃ pool store, s.allocator.pools.lookup vpcName = some pool ∧
        s.call (.release podId vpcName) =
          ⟨{ s.allocator with
              pools := s.allocator.pools.insert vpcName (pool.unassign podId) },
            store, setLease s.live vpcName podId none⟩ := by
  rcases s.allocator.release_cases s.store (.ok ()) podId vpcName with
    ⟨e, heq⟩ | ⟨pool, alloc, hpool, -, heq⟩
  · left
    rw [call, heq]
  · exact Or.inr ⟨pool, _, hpool, by rw [call, heq]⟩

theorem Inv.allocate (h : s.Inv) (podId vpcName : String) :
    (s.call (.allocate podId vpcName)).Inv := by
  rcases s.call_allocate_cases podId vpcName with
    heq | ⟨pool, hpool, ⟨existing, hpod, heq⟩ | ⟨offset, store, hoffset, heq⟩⟩
  · rw [heq]
    exact h
  · rw [heq]
    exact h.touch rfl rfl hpool (fun _ _ => rfl) ((h.pools vpcName pool hpool).renew hpod)
  · rw [heq]
    exact h.touch rfl rfl (AList.lookup_insert _) (fun name hne => AList.lookup_insert_ne hne)
      ((h.pools vpcName pool hpool).assign rfl (VpcPool.findOffset_fresh hoffset))

theorem Inv.release (h : s.Inv) (podId vpcName : String) :
    (s.call (.release podId vpcName)).Inv := by
  rcases s.call_release_cases podId vpcName with heq | ⟨pool, store, hpool, heq⟩
  · rw [heq]
    exact h
  · rw [heq]
    exact h.touch rfl rfl (AList.lookup_insert _) (fun name hne => AList.lookup_insert_ne hne)
      ((h.pools vpcName pool hpool).unassign podId)

/-- `sync_vpcs` keeps the invariant as long as it resets no VPC with live pods. -/
theorem Inv.syncVpcs (h : s.Inv) {vpcs : List Vpc} (hreset : NoLiveReset s (.syncVpcs vpcs)) :
    (s.call (.syncVpcs vpcs)).Inv := by
  refine ⟨h.guests, h.ghosts, fun name pool hpool => ?_⟩
  obtain ⟨hpre, hcluster⟩ := s.allocator.syncVpcs_ids vpcs
  show PoolOk (s.allocator.syncVpcs vpcs).platformPrefix (s.allocator.syncVpcs vpcs).clusterId
    (s.live name) pool
  rw [hpre, hcluster]
  rcases GhostAllocator.lookup_syncVpcs hpool with hkept | ⟨hnone, vpc, hvpc, rfl, hnew⟩
  · exact h.pools name pool hkept
  · exact PoolOk.of_empty (hreset vpc hvpc hnone) (VpcPool.new_allocations hnew)

/-- **The step lemma.** -/
theorem Inv.call (h : s.Inv) (call : AllocatorCall) (hreset : NoLiveReset s call) :
    (s.call call).Inv := by
  cases call with
  | syncVpcs vpcs => exact h.syncVpcs hreset
  | allocate podId vpcName => exact h.allocate podId vpcName
  | release podId vpcName => exact h.release podId vpcName

end NodeState

/-- **Addresses are unique on a node.**  In every run in which no VPC without a pool is
listed while it has live pods, no two live pods of a VPC hold the same guest address or
the same Ghost address. -/
theorem node_addresses_unique (platformPrefix clusterId : UInt32) (calls : List AllocatorCall)
    (hadm : Admitted NodeState.call NoLiveReset (NodeState.init platformPrefix clusterId) calls) :
    (run NodeState.call (NodeState.init platformPrefix clusterId) calls).AddressesUnique :=
  (invariant_run NodeState.Inv (fun _ call hreset h => h.call call hreset)
    (NodeState.inv_init platformPrefix clusterId) hadm).addressesUnique

/-- A VPC of 254 hosts. -/
def exampleVpc : Vpc := ⟨"blue", 5, "10.0.0.0/24", .active⟩

/-- The VPC disappears from one list and is back in the next; the pod that was allocated
before has not been released when the second one is. -/
def resetCalls : List AllocatorCall :=
  [.syncVpcs [exampleVpc], .allocate "a" "blue", .syncVpcs [], .syncVpcs [exampleVpc],
    .allocate "b" "blue"]

/-- Both pods hold 10.0.0.1. -/
theorem node_addresses_unique_fails_reset :
    ¬ (run NodeState.call (NodeState.init PLATFORM_PREFIX 1) resetCalls).AddressesUnique := by
  intro h
  have hboth : ∃ x, (run NodeState.call (NodeState.init PLATFORM_PREFIX 1) resetCalls).live
        "blue" "a" = some x ∧
      (run NodeState.call (NodeState.init PLATFORM_PREFIX 1) resetCalls).live "blue" "b" =
        some x :=
    ⟨⟨.ofOctets 10 0 0 1, construct PLATFORM_PREFIX 1 5 (.ofOctets 10 0 0 1)⟩,
      by decide, by decide⟩
  obtain ⟨x, ha, hb⟩ := hboth
  exact (h "blue" "a" "b" x x (by decide) ha hb).1 rfl

/-- Two pods of a VPC that stays listed. -/
theorem node_addresses_unique_two_pods :
    (run NodeState.call (NodeState.init PLATFORM_PREFIX 1)
      [.syncVpcs [exampleVpc], .allocate "a" "blue", .syncVpcs [exampleVpc],
        .allocate "b" "blue"]).AddressesUnique := by
  refine node_addresses_unique _ _ _ ⟨fun _ _ _ _ => rfl, trivial, ?_, trivial, trivial⟩
  intro vpc hvpc hnone
  obtain rfl := List.mem_singleton.mp hvpc
  exact absurd hnone (by decide)

/-! ## Many daemons -/

/-- The calls that change the leases of a VPC. -/
inductive PodCall where
  | allocate (podId vpcName : String)
  | release (podId vpcName : String)

/-- The call on the daemon of the pod's node. -/
def PodCall.allocatorCall : PodCall → AllocatorCall
  | .allocate podId vpcName => .allocate podId vpcName
  | .release podId vpcName => .release podId vpcName

/-- The VPC of the call. -/
def PodCall.vpcName : PodCall → String
  | .allocate _ vpcName => vpcName
  | .release _ vpcName => vpcName

namespace NodeState

variable {s : NodeState}

/-- The leases of other VPCs stay. -/
theorem live_call_of_ne (call : PodCall) {name : String} (hne : name ≠ call.vpcName) :
    (s.call call.allocatorCall).live name = s.live name := by
  cases call with
  | allocate podId vpcName =>
      rw [PodCall.allocatorCall]
      rcases s.call_allocate_cases podId vpcName with
        heq | ⟨pool, -, ⟨existing, -, heq⟩ | ⟨offset, store, -, heq⟩⟩
      · rw [heq]
      · rw [heq]
        exact Function.update_of_ne hne _ _
      · rw [heq]
        exact Function.update_of_ne hne _ _
  | release podId vpcName =>
      rw [PodCall.allocatorCall]
      rcases s.call_release_cases podId vpcName with heq | ⟨pool, store, -, heq⟩
      · rw [heq]
      · rw [heq]
        exact Function.update_of_ne hne _ _

/-- A release gives no leases. -/
theorem live_release {podId vpcName name pod : String} {x : Allocation}
    (h : (s.call (.release podId vpcName)).live name pod = some x) :
    s.live name pod = some x := by
  rcases s.call_release_cases podId vpcName with heq | ⟨pool, store, -, heq⟩
  · rwa [heq] at h
  · rw [heq] at h
    by_cases hname : name = vpcName
    · subst hname
      have hupd : Function.update (s.live name) podId none pod = some x :=
        (congrFun (Function.update_self name _ s.live) pod).symm.trans h
      exact Sub.of_revoke (s.live name) podId pod x hupd
    · exact (congrFun (Function.update_of_ne hname _ s.live) pod).symm.trans h

end NodeState

section Cluster

variable {ν : Type*}

/-- Every node's daemon has started on an empty store and fetched the list of VPCs. -/
def clusterInit (platformPrefix clusterId : UInt32) (vpcs : List Vpc) : ν → NodeState :=
  fun _ => (NodeState.init platformPrefix clusterId).call (.syncVpcs vpcs)

/-- A pod call on one node. -/
def clusterCall [DecidableEq ν] (c : ν → NodeState) (event : ν × PodCall) : ν → NodeState :=
  Function.update c event.1 ((c event.1).call event.2.allocatorCall)

/-- The leases of other VPCs stay, on every node. -/
theorem live_clusterCall_of_ne [DecidableEq ν] {c : ν → NodeState} (event : ν × PodCall)
    {name : String} (hne : name ≠ event.2.vpcName) (n : ν) :
    (clusterCall c event n).live name = (c n).live name := by
  by_cases e : n = event.1
  · rw [e, clusterCall, Function.update_self]
    exact NodeState.live_call_of_ne event.2 hne
  · rw [clusterCall, Function.update_of_ne e]

/-- No two pods of a VPC, on whichever nodes, hold the same Ghost address. -/
def GhostsUnique (c : ν → NodeState) : Prop :=
  ∀ vpcName n n' podId podId' x y, (n, podId) ≠ (n', podId') →
    (c n).live vpcName podId = some x → (c n').live vpcName podId' = some y →
      x.ghostIpv6 ≠ y.ghostIpv6

/-- A node allocates for a VPC only when no other node has a live pod of it. -/
def OneNodePerVpc (c : ν → NodeState) : ν × PodCall → Prop
  | (n, .allocate _ vpcName) => ∀ n', n' ≠ n → ∀ podId, (c n').live vpcName podId = none
  | (_, .release _ _) => True

/-- Every node is in order, and no VPC has live pods on two nodes. -/
structure ClusterInv (c : ν → NodeState) : Prop where
  nodes : ∀ n, (c n).Inv
  oneNode : ∀ vpcName n n' podId podId' x y, (c n).live vpcName podId = some x →
    (c n').live vpcName podId' = some y → n = n'

namespace ClusterInv

variable {c : ν → NodeState}

theorem init (platformPrefix clusterId : UInt32) (vpcs : List Vpc) :
    ClusterInv (clusterInit (ν := ν) platformPrefix clusterId vpcs) where
  nodes _ := (NodeState.inv_init platformPrefix clusterId).syncVpcs fun _ _ _ _ => rfl
  oneNode _ _ _ _ _ _ _ h := by cases h

theorem ghostsUnique (h : ClusterInv c) : GhostsUnique c := by
  intro vpcName n n' podId podId' x y hne hx hy heq
  obtain rfl := h.oneNode vpcName n n' podId podId' x y hx hy
  obtain rfl := (h.nodes n).ghosts vpcName podId podId' x y hx hy heq
  exact hne rfl

/-- The nodes stay in order, whatever the others do. -/
theorem nodes_clusterCall [DecidableEq ν] (h : ClusterInv c) (event : ν × PodCall) (n : ν) :
    (clusterCall c event n).Inv := by
  by_cases e : n = event.1
  · rw [e, clusterCall, Function.update_self]
    refine (h.nodes event.1).call _ ?_
    cases event.2 <;> trivial
  · rw [clusterCall, Function.update_of_ne e]
    exact h.nodes n

/-- **The step lemma.** -/
theorem clusterCall [DecidableEq ν] (h : ClusterInv c) (event : ν × PodCall)
    (hone : OneNodePerVpc c event) : ClusterInv (clusterCall c event) := by
  refine ⟨h.nodes_clusterCall event, ?_⟩
  obtain ⟨m, call⟩ := event
  intro name n n' podId podId' x y hx hy
  cases call with
  | release rpod rname =>
      have hback : ∀ {i pod z}, (K3rs.clusterCall c (m, .release rpod rname) i).live name pod =
          some z → (c i).live name pod = some z := by
        intro i pod z hz
        by_cases e : i = m
        · subst e
          rw [K3rs.clusterCall, Function.update_self] at hz
          exact NodeState.live_release hz
        · rwa [K3rs.clusterCall, Function.update_of_ne e] at hz
      exact h.oneNode name n n' podId podId' x y (hback hx) (hback hy)
  | allocate apod aname =>
      by_cases hname : name = aname
      · -- no other node has live pods of this VPC
        subst hname
        have hself : ∀ {i pod z}, (K3rs.clusterCall c (m, .allocate apod name) i).live name pod =
            some z → i = m := by
          intro i pod z hz
          by_contra e
          rw [K3rs.clusterCall, Function.update_of_ne e, hone i e pod] at hz
          cases hz
        exact (hself hx).trans (hself hy).symm
      · rw [live_clusterCall_of_ne (m, .allocate apod aname) hname] at hx hy
        exact h.oneNode name n n' podId podId' x y hx hy

end ClusterInv

/-- **Ghost addresses are unique in the cluster** in every run in which nodes allocate only
for VPCs that have no live pods on other nodes. -/
theorem cluster_addresses_unique [DecidableEq ν] (platformPrefix clusterId : UInt32)
    (vpcs : List Vpc) (events : List (ν × PodCall))
    (hadm : Admitted clusterCall OneNodePerVpc
      (clusterInit platformPrefix clusterId vpcs) events) :
    GhostsUnique (run clusterCall (clusterInit platformPrefix clusterId vpcs) events) :=
  (invariant_run ClusterInv (fun _ event hone h => h.clusterCall event hone)
    (ClusterInv.init platformPrefix clusterId vpcs) hadm).ghostsUnique

end Cluster

/-- One pod of the same VPC on each of two nodes: both get the VPC's first address. -/
theorem cluster_addresses_unique_fails_two_nodes :
    ¬ GhostsUnique (run clusterCall (clusterInit PLATFORM_PREFIX 1 [exampleVpc])
      [(false, .allocate "a" "blue"), (true, .allocate "b" "blue")]) := by
  intro h
  exact h "blue" false true "a" "b"
    ⟨.ofOctets 10 0 0 1, construct PLATFORM_PREFIX 1 5 (.ofOctets 10 0 0 1)⟩
    ⟨.ofOctets 10 0 0 1, construct PLATFORM_PREFIX 1 5 (.ofOctets 10 0 0 1)⟩
    (by decide) (by decide) (by decide) rfl

/-- Two pods of a VPC on one node, and one of another VPC on another node. -/
theorem cluster_addresses_unique_two_vpcs :
    GhostsUnique (run clusterCall
      (clusterInit PLATFORM_PREFIX 1 [exampleVpc, ⟨"green", 6, "10.0.0.0/24", .active⟩])
      [(false, .allocate "a" "blue"), (false, .allocate "b" "blue"),
        (true, .allocate "c" "green")]) := by
  refine cluster_addresses_unique _ _ _ _ ⟨fun _ _ _ => rfl, fun n hn _ => ?_,
    fun n _ podId => ?_, trivial⟩
  · obtain rfl : n = true := by simpa using hn
    rfl
  · rw [live_clusterCall_of_ne (false, .allocate "b" "blue") (by decide),
      live_clusterCall_of_ne (false, .allocate "a" "blue") (by decide)]
    rfl

end K3rs
