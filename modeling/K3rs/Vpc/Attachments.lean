import K3rs.Lib.Directory
import K3rs.Lib.Transition
import K3rs.Vpc.Socket

/-!
# Attached interfaces

An interface is attached from the `AttachTap` or `AttachNetkit` request that is answered with
`Ok` until the next `DetachTap` or `DetachNetkit` for it, whatever happens to the daemon in
between.  `AttachState` keeps this beside the daemon, by the requests and their answers, so
that it can be compared with what the daemon knows and with `ENDPOINTS`.

## TAPs after a restart

`rebuild` installs the rules of the allocations that are recorded as those of a TAP.  There
are none: `allocate` records every allocation as that of a netkit interface
(`Recorded.step`).  So the rules come back exactly when there are none (`tap_rules_iff`).

## `ENDPOINTS`

The entry of an interface is removed by the Ghost address that the process remembers for it.
`endpoints_exact_iff`: the entries are those of the attached interfaces, along a run, exactly
when every attached interface is remembered when it is detached, and is attached again only
with the address it had.
-/

namespace K3rs

open Net Ebpf Tables Transition

/-! ## The system -/

/-- What happens to a daemon. -/
inductive DaemonEvent where
  | request (answers : Answers) (req : Protocol.VpcRequest)
  | syncVpcs (vpcs : List Vpc)
  | restart (kernel : String → Except String Unit)

/-- A daemon, and what is attached: the globals a TAP was given, and the Ghost address and
index of a netkit interface. -/
structure AttachState where
  daemon : VpcDaemon
  taps : String → Option Globals
  netkits : String → Option (Ipv6Addr × UInt32)

namespace AttachState

/-- A new daemon on an empty node. -/
def start (platformPrefix clusterId : UInt32) : AttachState where
  daemon :=
    { allocator := .new platformPrefix clusterId
      store := {}
      interfaces := .new platformPrefix clusterId
      endpoints := fun _ => none }
  taps _ := none
  netkits _ := none

variable (st : AttachState)

/-- What is attached after an answered request. -/
def observe (answers : Answers) : Protocol.VpcRequest → Protocol.VpcResponse → AttachState
  | .attachTap tapName guestIpv4 ghostIpv6 vpcId vpcCidr, .ok =>
      { st with
        taps := Function.update st.taps tapName
          (st.daemon.interfaces.globals "tap" guestIpv4 ghostIpv6 vpcId vpcCidr).toOption }
  | .detachTap tapName, .ok => { st with taps := Function.update st.taps tapName none }
  | .attachNetkit nkName _ ghostIpv6 _ _ _, .ok =>
      { st with
        netkits := Function.update st.netkits nkName (do
          let ghost ← parseIpv6 ghostIpv6.toList
          let nkIfindex ← answers.kernel.toOption
          return (ghost, nkIfindex)) }
  | .detachNetkit nkName, .ok => { st with netkits := Function.update st.netkits nkName none }
  | _, _ => st

/-- One event.  A list from the server is saved before the pools follow it. -/
def step : DaemonEvent → AttachState
  | .request answers req =>
      let result := st.daemon.dispatch answers req
      { st.observe answers req result.1 with daemon := result.2 }
  | .syncVpcs vpcs =>
      { st with
        daemon :=
          { st.daemon with
            allocator := st.daemon.allocator.syncVpcs vpcs
            store := st.daemon.store.saveVpcs vpcs } }
  | .restart kernel => { st with daemon := st.daemon.restart kernel }

end AttachState

/-! ## TAPs after a restart -/

/-- The TAP of a pod: `tap-` and the first eight characters of the pod's id. -/
def tapName (podId : String) : String := "tap-" ++ String.ofList (podId.toList.take 8)

namespace AttachState

variable (st : AttachState)

/-- A restart installs the rules of exactly the attached TAPs of pods, as they were. -/
def ReinstallsTaps (event : DaemonEvent) : Prop :=
  ∀ kernel, event = .restart kernel → ∀ podId,
    (st.daemon.restart kernel).interfaces.tapBpf (tapName podId) = st.taps (tapName podId)

/-- At a restart no TAP of a pod is attached. -/
def TapsDetached (event : DaemonEvent) : Prop :=
  ∀ kernel, event = .restart kernel → ∀ podId, st.taps (tapName podId) = none

/-- Every allocation is recorded as that of a netkit interface. -/
def Recorded : Prop :=
  ∀ sa ∈ st.daemon.store.loadAllAllocations, sa.interfaceType = "netkit"

end AttachState

theorem Interfaces.rebuild_of_netkit {vpcs : List Vpc} {kernel : String → Except String Unit}
    {allocations : List StoredAllocation}
    (h : ∀ sa ∈ allocations, sa.interfaceType = "netkit") (i : Interfaces) :
    i.rebuild vpcs kernel allocations = some i := by
  induction allocations with
  | nil => rfl
  | cons sa rest ih =>
      have hother : sa.interfaceType ≠ "tap" := by
        rw [h sa List.mem_cons_self]
        decide
      rw [Interfaces.rebuild, List.foldlM_cons, if_neg hother]
      exact ih fun sa' hsa' => h sa' (List.mem_cons_of_mem _ hsa')

namespace AttachState

variable {st : AttachState}

/-- A record after `allocate` is an old one, or that of a netkit interface. -/
theorem mem_allocations_allocate {a : GhostAllocator} {store : VpcStore} {io : Except String Unit}
    {podId vpcName : String} {sa : StoredAllocation}
    (h : sa ∈ (a.allocate store io podId vpcName).2.2.loadAllAllocations) :
    sa ∈ store.loadAllAllocations ∨ sa.interfaceType = "netkit" := by
  rcases a.allocate_cases store io podId vpcName with
    ⟨e, hresult⟩ | ⟨pool, -, ⟨existing, -, hresult⟩ | ⟨offset, -, -, -, hresult⟩⟩
  · rw [hresult] at h
    exact Or.inl h
  · rw [hresult] at h
    exact Or.inl h
  · rw [hresult] at h
    rcases store.allocations.mem_put.mp h with rfl | ⟨hold, -⟩
    · exact Or.inr rfl
    · exact Or.inl hold

/-- A record after `release` is an old one. -/
theorem mem_allocations_release {a : GhostAllocator} {store : VpcStore} {io : Except String Unit}
    {podId vpcName : String} {sa : StoredAllocation}
    (h : sa ∈ (a.release store io podId vpcName).2.2.loadAllAllocations) :
    sa ∈ store.loadAllAllocations := by
  rcases a.release_cases store io podId vpcName with ⟨e, hresult⟩ | ⟨pool, alloc, -, -, hresult⟩
  · rw [hresult] at h
    exact h
  · rw [hresult] at h
    cases io with
    | error e => exact h
    | ok u => exact List.mem_of_mem_filter h

/-- The store after a request: only `allocate` writes a record, and `release` deletes one. -/
theorem mem_allocations_dispatch {answers : Answers} {req : Protocol.VpcRequest}
    {sa : StoredAllocation}
    (h : sa ∈ (st.daemon.dispatch answers req).2.store.loadAllAllocations) :
    sa ∈ st.daemon.store.loadAllAllocations ∨ sa.interfaceType = "netkit" := by
  cases req with
  | allocate podId vpcName =>
      have hsaved : sa ∈ (st.daemon.allocator.allocate st.daemon.store answers.io podId
          vpcName).2.2.loadAllAllocations := by
        unfold VpcDaemon.dispatch at h
        dsimp only at h
        split at h
        case h_1 hresult => exact hresult ▸ h
        case h_2 hresult => exact hresult ▸ h
      exact mem_allocations_allocate hsaved
  | release podId vpcName =>
      have hleft : sa ∈ (st.daemon.allocator.release st.daemon.store answers.io podId
          vpcName).2.2.loadAllAllocations := by
        unfold VpcDaemon.dispatch at h
        dsimp only at h
        split at h
        case h_1 hresult => exact hresult ▸ h
        case h_2 hresult => exact hresult ▸ h
      exact Or.inl (mem_allocations_release hleft)
  | checkReachability srcVpc dstVpc =>
      unfold VpcDaemon.dispatch at h
      dsimp only at h
      split_ifs at h
      · exact Or.inl h
      · split at h
        · exact Or.inl h
        · exact Or.inl h
  | attachNetkit nkName guestIpv4 ghostIpv6 vpcId vpcCidr pid =>
      unfold VpcDaemon.dispatch at h
      dsimp only at h
      split at h
      · exact Or.inl h
      · exact Or.inl h
  | detachNetkit nkName => exact Or.inl h
  | attachTap tapName guestIpv4 ghostIpv6 vpcId vpcCidr =>
      unfold VpcDaemon.dispatch at h
      dsimp only at h
      split at h
      · exact Or.inl h
      · exact Or.inl h
  | detachTap tapName => exact Or.inl h
  | ping => exact Or.inl h

/-- **The step lemma.** -/
theorem Recorded.step (h : st.Recorded) (event : DaemonEvent) : (st.step event).Recorded := by
  cases event with
  | request answers req =>
      intro sa hsa
      rcases mem_allocations_dispatch hsa with hold | hnew
      · exact h sa hold
      · exact hnew
  | syncVpcs vpcs => exact h
  | restart kernel => exact h

/-- Nothing is installed at a restart. -/
theorem Recorded.tapBpf_restart (h : st.Recorded) (kernel : String → Except String Unit)
    (name : String) : (st.daemon.restart kernel).interfaces.tapBpf name = none := by
  simp only [VpcDaemon.restart, Interfaces.rebuild_of_netkit h, Option.getD_some]
  rfl

/-- **VM enforcement across restarts.**  In any run of requests, lists and restarts, every
restart installs the rules of exactly the attached TAPs if and only if no TAP of a pod is
attached at any of them. -/
theorem tap_rules_iff (platformPrefix clusterId : UInt32) (events : List DaemonEvent) :
    Admitted AttachState.step ReinstallsTaps (start platformPrefix clusterId) events ↔
      Admitted AttachState.step TapsDetached (start platformPrefix clusterId) events := by
  have hinit : (start platformPrefix clusterId).Recorded := fun _ hsa => nomatch hsa
  have hiff : ∀ (st : AttachState) (event : DaemonEvent), st.Recorded →
      (st.ReinstallsTaps event ↔ st.TapsDetached event) := by
    intro st event h
    refine forall₂_congr fun kernel _ => forall_congr' fun podId => ?_
    rw [h.tapBpf_restart kernel]
    exact eq_comm
  constructor
  · exact Admitted.mono Recorded (fun _ event _ h => h.step event)
      (fun st event h => (hiff st event h).mp) hinit
  · exact Admitted.mono Recorded (fun _ event _ h => h.step event)
      (fun st event h => (hiff st event h).mpr) hinit

/-- A VM is allocated an address, and its TAP attached with it. -/
def vmEvents : List DaemonEvent :=
  [.syncVpcs [⟨"blue", 5, "10.0.0.0/24", .active⟩],
    .request {} (.allocate "0a1b2c3d-e4f5" "blue"),
    .request {} (.attachTap "tap-0a1b2c3d" "10.0.0.1" "fd6b:3372:1000:0:1:5:a00:1" 5 "10.0.0.0/24"),
    .restart fun _ => .ok ()]

/-- After the restart the VM's TAP has no rules. -/
theorem tap_rules_fail_attached :
    ¬ Admitted AttachState.step ReinstallsTaps (start 0xfd6b3372 1) vmEvents := by
  rintro ⟨-, -, -, hrestart, -⟩
  have hsame := hrestart _ rfl "0a1b2c3d-e4f5"
  have hattached : ((run AttachState.step (start 0xfd6b3372 1) (vmEvents.take 3)).taps
      (tapName "0a1b2c3d-e4f5")).isSome := by
    decide
  have hlost : ((run AttachState.step (start 0xfd6b3372 1) vmEvents).daemon.interfaces.tapBpf
      (tapName "0a1b2c3d-e4f5")).isNone := by
    decide
  have hthere : ((run AttachState.step (start 0xfd6b3372 1) vmEvents).daemon.interfaces.tapBpf
      (tapName "0a1b2c3d-e4f5")).isSome := by
    refine Eq.trans (congrArg Option.isSome ?_) hattached
    exact hsame
  rw [Option.isNone_iff_eq_none.mp hlost] at hthere
  cases hthere

end AttachState

/-! ## `ENDPOINTS` -/

/-- The globals have the Ghost address of the request. -/
theorem Interfaces.parseIpv6_of_globals {i : Interfaces} {kind guestIpv4 ghostIpv6 : String}
    {vpcId : UInt16} {vpcCidr : String} {globals : Globals}
    (h : i.globals kind guestIpv4 ghostIpv6 vpcId vpcCidr = .ok globals) :
    parseIpv6 ghostIpv6.toList = some globals.myGhostIpv6 := by
  unfold Interfaces.globals at h
  cases hguest : parseIpv4 guestIpv4.toList with
  | none =>
      rw [hguest] at h
      cases h
  | some addr =>
      cases hghost : parseIpv6 ghostIpv6.toList with
      | none =>
          rw [hguest, hghost] at h
          cases h
      | some ghost =>
          cases hcidr : EbpfEnforcer.parseCidr vpcCidr with
          | error e =>
              rw [hguest, hghost, hcidr] at h
              cases h
          | ok parsed =>
              rw [hguest, hghost, hcidr] at h
              cases h
              rfl

/-- What `install_netkit_rules` can do: fail, where the request or the kernel is at fault, or
enter the interface. -/
theorem Interfaces.installNetkitRules_cases (i : Interfaces) (endpoints : Endpoints)
    (kernel : Except String UInt32) (nkName guestIpv4 ghostIpv6 : String) (vpcId : UInt16)
    (vpcCidr : String) :
    (∃ e, i.installNetkitRules endpoints kernel nkName guestIpv4 ghostIpv6 vpcId vpcCidr =
        .error e ∧ ∀ globals nkIfindex,
          i.globals "netkit" guestIpv4 ghostIpv6 vpcId vpcCidr = .ok globals →
            kernel ≠ .ok nkIfindex) ∨
      ∃ globals nkIfindex i', i.globals "netkit" guestIpv4 ghostIpv6 vpcId vpcCidr = .ok globals ∧
        kernel = .ok nkIfindex ∧
        (fun nk => (i'.nkInfo nk).map NkInfo.ghostIpv6) =
          Function.update (fun nk => (i.nkInfo nk).map NkInfo.ghostIpv6) nkName
            (some globals.myGhostIpv6) ∧
        i.installNetkitRules endpoints kernel nkName guestIpv4 ghostIpv6 vpcId vpcCidr =
          .ok (i', Function.update endpoints ⟨globals.myGhostIpv6⟩ (some ⟨nkIfindex⟩)) := by
  cases hglobals : i.globals "netkit" guestIpv4 ghostIpv6 vpcId vpcCidr with
  | error e =>
      refine Or.inl ⟨e, ?_, nofun⟩
      simp only [installNetkitRules, hglobals, bind, Except.bind]
  | ok globals =>
      cases kernel with
      | error e =>
          refine Or.inl ⟨e, ?_, nofun⟩
          simp only [installNetkitRules, hglobals, bind, Except.bind]
      | ok nkIfindex =>
          let info : NkInfo := ⟨globals.myGuestIpv4, vpcId, globals.myVpcNetwork, globals.myVpcMask,
            globals.myGhostIpv6⟩
          refine Or.inr ⟨globals, nkIfindex,
            { i with
              podBpf := Function.update i.podBpf nkName (some globals)
              nkInfo := Function.update i.nkInfo nkName (some info) }, rfl, rfl, ?_, ?_⟩
          · funext nk
            by_cases hnk : nk = nkName
            · subst hnk
              simp only [Function.update_self, Option.map_some, info]
            · simp only [Function.update_of_ne hnk]
          · simp only [installNetkitRules, hglobals, bind, Except.bind, pure, Except.pure]
            rfl

theorem Interfaces.nkInfo_installTapRules {i i' : Interfaces} {kernel : Except String Unit}
    {tapName guestIpv4 ghostIpv6 : String} {vpcId : UInt16} {vpcCidr : String}
    (h : i.installTapRules kernel tapName guestIpv4 ghostIpv6 vpcId vpcCidr = .ok i') :
    i'.nkInfo = i.nkInfo := by
  unfold installTapRules at h
  cases hglobals : i.globals "tap" guestIpv4 ghostIpv6 vpcId vpcCidr with
  | error e =>
      rw [hglobals] at h
      cases h
  | ok tapEbpf =>
      rw [hglobals] at h
      cases kernel with
      | error e => cases h
      | ok u =>
          cases h
          rfl

/-- Rebuilding the rules of TAPs does not touch netkit interfaces. -/
theorem Interfaces.nkInfo_rebuild {vpcs : List Vpc} {kernel : String → Except String Unit}
    {allocations : List StoredAllocation} :
    ∀ {i i' : Interfaces}, i.rebuild vpcs kernel allocations = some i' → i'.nkInfo = i.nkInfo := by
  induction allocations with
  | nil =>
      intro i i' h
      cases h
      rfl
  | cons sa rest ih =>
      intro i i' h
      rw [Interfaces.rebuild, List.foldlM_cons] at h
      obtain ⟨next, hnext, hrest⟩ := Option.bind_eq_some_iff.mp h
      refine (ih hrest).trans ?_
      split_ifs at hnext
      · obtain ⟨shortId, -, hinstall⟩ := Option.bind_eq_some_iff.mp hnext
        dsimp only at hinstall
        split at hinstall
        case h_1 installed hok =>
            cases hinstall
            exact nkInfo_installTapRules hok
        case h_2 e herror =>
            cases hinstall
            rfl
      · cases hnext
        rfl

namespace AttachState

variable (st : AttachState)

/-- The entries of `ENDPOINTS` are those of the attached netkit interfaces. -/
def EndpointsExact : Prop :=
  ∀ ghost nkIfindex, st.daemon.endpoints ⟨ghost⟩ = some ⟨nkIfindex⟩ ↔
    ∃ nkName, st.netkits nkName = some (ghost, nkIfindex)

/-- Interfaces attached at the same time have different Ghost addresses. -/
def GhostsDistinct : Prop :=
  ∀ nkName nkName' ghost nkIfindex nkIfindex', st.netkits nkName = some (ghost, nkIfindex) →
    st.netkits nkName' = some (ghost, nkIfindex') → nkName = nkName'

/-- An attached interface is detached by a process that remembers it, and attached again only
with the Ghost address it has. -/
def Remembered : DaemonEvent → Prop
  | .request _ (.detachNetkit nkName) =>
      st.netkits nkName ≠ none → st.daemon.interfaces.nkInfo nkName ≠ none
  | .request answers (.attachNetkit nkName guestIpv4 ghostIpv6 vpcId vpcCidr _) =>
      ∀ globals nkIfindex,
        st.daemon.interfaces.globals "netkit" guestIpv4 ghostIpv6 vpcId vpcCidr = .ok globals →
        answers.kernel = .ok nkIfindex →
          ∀ ghost old, st.netkits nkName = some (ghost, old) → ghost = globals.myGhostIpv6
  | _ => True

/-- The netkit interfaces as a directory. -/
def directory : Directory String Ipv6Addr UInt32 where
  entries ghost := (st.daemon.endpoints ⟨ghost⟩).map EndpointValue.nkIfindex
  held := st.netkits
  known nkName := (st.daemon.interfaces.nkInfo nkName).map NkInfo.ghostIpv6

variable {st}

theorem endpointsExact_iff : st.EndpointsExact ↔ st.directory.Exact := by
  refine forall₂_congr fun ghost nkIfindex => iff_congr ?_ Iff.rfl
  simp only [directory]
  cases st.daemon.endpoints ⟨ghost⟩ with
  | none => simp
  | some value =>
      cases value
      simp

/-- Entering or removing an address in `ENDPOINTS`, seen through the directory. -/
theorem entries_update (endpoints : Endpoints) (ghost : Ipv6Addr) (value : Option EndpointValue) :
    (fun g => (Function.update endpoints ⟨ghost⟩ value ⟨g⟩).map EndpointValue.nkIfindex) =
      Function.update (fun g => (endpoints ⟨g⟩).map EndpointValue.nkIfindex) ghost
        (value.map EndpointValue.nkIfindex) := by
  funext g
  by_cases hg : g = ghost
  · subst hg
    rw [Function.update_self, Function.update_self]
  · have hkey : (⟨g⟩ : EndpointKey) ≠ ⟨ghost⟩ := fun heq => hg (EndpointKey.mk.inj heq)
    rw [Function.update_of_ne hkey, Function.update_of_ne hg]

/-- `AttachNetkit` fails and changes nothing, or attaches. -/
theorem directory_attachNetkit (answers : Answers) (nkName guestIpv4 ghostIpv6 : String)
    (vpcId : UInt16) (vpcCidr : String) (pid : UInt32) :
    ((st.step (.request answers
          (.attachNetkit nkName guestIpv4 ghostIpv6 vpcId vpcCidr pid))).directory = st.directory ∧
        ∀ globals nkIfindex,
          st.daemon.interfaces.globals "netkit" guestIpv4 ghostIpv6 vpcId vpcCidr = .ok globals →
            answers.kernel ≠ .ok nkIfindex) ∨
      ∃ globals nkIfindex,
        st.daemon.interfaces.globals "netkit" guestIpv4 ghostIpv6 vpcId vpcCidr = .ok globals ∧
        answers.kernel = .ok nkIfindex ∧
        (st.step (.request answers
          (.attachNetkit nkName guestIpv4 ghostIpv6 vpcId vpcCidr pid))).directory =
            st.directory.attach nkName globals.myGhostIpv6 nkIfindex := by
  rcases st.daemon.interfaces.installNetkitRules_cases st.daemon.endpoints answers.kernel nkName
    guestIpv4 ghostIpv6 vpcId vpcCidr with
    ⟨e, hresult, hfault⟩ | ⟨globals, nkIfindex, i', hglobals, hkernel, hknown, hresult⟩
  · refine Or.inl ⟨?_, hfault⟩
    unfold step VpcDaemon.dispatch
    simp only [hresult]
    rfl
  · refine Or.inr ⟨globals, nkIfindex, hglobals, hkernel, ?_⟩
    have hdispatch : st.daemon.dispatch answers
        (.attachNetkit nkName guestIpv4 ghostIpv6 vpcId vpcCidr pid) =
          (.ok, { st.daemon with
            interfaces := i'
            endpoints := Function.update st.daemon.endpoints ⟨globals.myGhostIpv6⟩
              (some ⟨nkIfindex⟩) }) := by
      unfold VpcDaemon.dispatch
      simp only [hresult]
    simp only [step, hdispatch, observe, Interfaces.parseIpv6_of_globals hglobals, hkernel]
    refine Directory.ext ?_ ?_ ?_
    · exact entries_update _ _ _
    · rfl
    · exact hknown

/-- `DetachNetkit`. -/
theorem directory_detachNetkit (answers : Answers) (nkName : String) :
    (st.step (.request answers (.detachNetkit nkName))).directory =
      st.directory.detach nkName := by
  cases hinfo : st.daemon.interfaces.nkInfo nkName with
  | none =>
      unfold step VpcDaemon.dispatch Interfaces.removeNetkitRules
      simp only [hinfo, observe]
      have hknown : st.directory.known nkName = none := by
        simp only [directory, hinfo, Option.map_none]
      refine Directory.ext ?_ ?_ ?_
      · simp only [Directory.detach, hknown]
        rfl
      · rfl
      · exact (Function.update_eq_self_iff.mpr hknown.symm).symm
  | some info =>
      unfold step VpcDaemon.dispatch Interfaces.removeNetkitRules
      simp only [hinfo, observe]
      have hknown : st.directory.known nkName = some info.ghostIpv6 := by
        simp only [directory, hinfo, Option.map_some]
      refine Directory.ext ?_ ?_ ?_
      · simp only [Directory.detach, hknown]
        exact entries_update _ _ _
      · rfl
      · funext nk
        by_cases hnk : nk = nkName
        · subst hnk
          simp only [directory, Directory.detach, Function.update_self, Option.map_none]
        · simp only [directory, Directory.detach, Function.update_of_ne hnk]

/-- A restart forgets the interfaces. -/
theorem directory_restart (kernel : String → Except String Unit) :
    (st.step (.restart kernel)).directory = st.directory.forget := by
  refine Directory.ext rfl rfl ?_
  funext nk
  simp only [directory, step, VpcDaemon.restart, Directory.forget]
  cases hrebuild : (Interfaces.new st.daemon.interfaces.platformPrefix
      st.daemon.interfaces.clusterId).rebuild st.daemon.store.loadVpcs kernel
        st.daemon.store.loadAllAllocations with
  | none => rfl
  | some i =>
      rw [Option.getD_some, Interfaces.nkInfo_rebuild hrebuild]
      rfl

/-- What `AttachTap` leaves of the netkit interfaces: everything. -/
theorem directory_attachTap (answers : Answers) (tapName guestIpv4 ghostIpv6 : String)
    (vpcId : UInt16) (vpcCidr : String) :
    (st.step (.request answers (.attachTap tapName guestIpv4 ghostIpv6 vpcId vpcCidr))).directory =
      st.directory := by
  unfold step VpcDaemon.dispatch
  dsimp only
  split
  case h_1 interfaces hok =>
      refine Directory.ext rfl rfl ?_
      simp only [directory, Interfaces.nkInfo_installTapRules hok]
  case h_2 e herror => rfl

/-- And `DetachTap`. -/
theorem directory_detachTap (answers : Answers) (tapName : String) :
    (st.step (.request answers (.detachTap tapName))).directory = st.directory := by
  refine Directory.ext rfl rfl ?_
  unfold directory step VpcDaemon.dispatch Interfaces.removeTapRules
  dsimp only
  cases st.daemon.interfaces.tapToIp tapName <;> rfl

/-- **What an event does to the netkit interfaces**: nothing, or it forgets all, attaches one
or detaches one. -/
theorem directory_step_cases (event : DaemonEvent) :
    ((st.step event).directory = st.directory ∧ st.Remembered event) ∨
    ((∃ kernel, event = .restart kernel) ∧ (st.step event).directory = st.directory.forget) ∨
    (∃ answers nkName guestIpv4 ghostIpv6 vpcId vpcCidr pid globals nkIfindex,
      event = .request answers (.attachNetkit nkName guestIpv4 ghostIpv6 vpcId vpcCidr pid) ∧
      st.daemon.interfaces.globals "netkit" guestIpv4 ghostIpv6 vpcId vpcCidr = .ok globals ∧
      answers.kernel = .ok nkIfindex ∧
      (st.step event).directory = st.directory.attach nkName globals.myGhostIpv6 nkIfindex) ∨
    ∃ answers nkName, event = .request answers (.detachNetkit nkName) ∧
      (st.step event).directory = st.directory.detach nkName := by
  cases event with
  | syncVpcs vpcs => exact Or.inl ⟨rfl, trivial⟩
  | restart kernel => exact Or.inr (Or.inl ⟨⟨kernel, rfl⟩, directory_restart kernel⟩)
  | request answers req =>
      cases req with
      | attachNetkit nkName guestIpv4 ghostIpv6 vpcId vpcCidr pid =>
          rcases @directory_attachNetkit st answers nkName guestIpv4 ghostIpv6 vpcId vpcCidr pid
            with ⟨hsame, hfault⟩ | ⟨globals, nkIfindex, hglobals, hkernel, hnew⟩
          · refine Or.inl ⟨hsame, fun globals nkIfindex hglobals hkernel => ?_⟩
            exact absurd hkernel (hfault globals nkIfindex hglobals)
          · exact Or.inr (Or.inr (Or.inl ⟨answers, nkName, guestIpv4, ghostIpv6, vpcId, vpcCidr, pid,
              globals, nkIfindex, rfl, hglobals, hkernel, hnew⟩))
      | detachNetkit nkName =>
          exact Or.inr (Or.inr (Or.inr
            ⟨answers, nkName, rfl, directory_detachNetkit answers nkName⟩))
      | allocate podId vpcName =>
          refine Or.inl ⟨?_, trivial⟩
          unfold step VpcDaemon.dispatch
          dsimp only
          split <;> rfl
      | release podId vpcName =>
          refine Or.inl ⟨?_, trivial⟩
          unfold step VpcDaemon.dispatch
          dsimp only
          split <;> rfl
      | checkReachability srcVpc dstVpc =>
          refine Or.inl ⟨?_, trivial⟩
          unfold step VpcDaemon.dispatch
          dsimp only
          split_ifs
          · rfl
          · cases answers.io <;> rfl
      | attachTap tapName guestIpv4 ghostIpv6 vpcId vpcCidr =>
          exact Or.inl ⟨directory_attachTap answers tapName guestIpv4 ghostIpv6 vpcId vpcCidr,
            trivial⟩
      | detachTap tapName => exact Or.inl ⟨directory_detachTap answers tapName, trivial⟩
      | ping => exact Or.inl ⟨rfl, trivial⟩

/-- What the daemon remembers of an interface is true, after every event. -/
theorem truthful_step (h : st.directory.Truthful) (event : DaemonEvent) :
    (st.step event).directory.Truthful := by
  rcases @directory_step_cases st event with ⟨hsame, -⟩ | ⟨-, hforget⟩ |
    ⟨answers, nkName, guestIpv4, ghostIpv6, vpcId, vpcCidr, pid, globals, nkIfindex, -, -, -, hnew⟩ |
    ⟨answers, nkName, -, hdetach⟩
  · rw [hsame]
    exact h
  · rw [hforget]
    exact Directory.truthful_forget
  · rw [hnew]
    exact h.attach _ _ _
  · rw [hdetach]
    exact h.detach nkName

/-- **The step lemma.** -/
theorem endpointsExact_step_iff (htruthful : st.directory.Truthful) (hdistinct : st.GhostsDistinct)
    {event : DaemonEvent} (hafter : (st.step event).GhostsDistinct) (hexact : st.EndpointsExact) :
    (st.step event).EndpointsExact ↔ st.Remembered event := by
  have hexact' := endpointsExact_iff.mp hexact
  rw [endpointsExact_iff]
  rcases @directory_step_cases st event with ⟨hsame, hremembered⟩ | ⟨⟨kernel, rfl⟩, hforget⟩ |
    ⟨answers, nkName, guestIpv4, ghostIpv6, vpcId, vpcCidr, pid, globals, nkIfindex, rfl, hglobals,
      hkernel, hnew⟩ | ⟨answers, nkName, rfl, hdetach⟩
  · rw [hsame]
    exact iff_of_true hexact' hremembered
  · -- the map is pinned, and what is attached stays attached
    rw [hforget]
    exact iff_of_true hexact' trivial
  · have hafter' : (st.directory.attach nkName globals.myGhostIpv6 nkIfindex).Distinct :=
      hnew ▸ hafter
    rw [hnew, Directory.exact_attach_iff hexact' hdistinct hafter']
    constructor
    · intro h globals' nkIfindex' hglobals' _
      rw [hglobals] at hglobals'
      cases hglobals'
      exact h
    · intro h
      exact h globals nkIfindex hglobals hkernel
  · rw [hdetach, Directory.exact_detach_iff hexact' hdistinct htruthful]
    refine imp_congr_right fun _ => not_congr ?_
    simp only [directory, Option.map_eq_none_iff]

/-- **`ENDPOINTS` is exact.**  In a run in which interfaces attached at the same time have
different Ghost addresses, the entries are those of the attached interfaces at every point if
and only if every attached interface is detached by a process that remembers it and attached
again only with the Ghost address it has. -/
theorem endpoints_exact_iff {platformPrefix clusterId : UInt32} {events : List DaemonEvent}
    (hdistinct : Along AttachState.step GhostsDistinct (start platformPrefix clusterId) events) :
    Along AttachState.step EndpointsExact (start platformPrefix clusterId) events ↔
      Admitted AttachState.step Remembered (start platformPrefix clusterId) events := by
  refine along_iff_admitted_within (fun st => st.directory.Truthful) GhostsDistinct EndpointsExact
    (fun st event h => truthful_step h event)
    (fun st event htruthful hbefore hafter => endpointsExact_step_iff htruthful hbefore hafter)
    ?_ ?_ hdistinct
  · intro nkName ghost hknown
    cases hknown
  · intro ghost nkIfindex
    exact iff_of_false nofun nofun

/-- The event is about no netkit interface but one. -/
def ConcernsOnly (nkName : String) : DaemonEvent → Prop
  | .request _ (.attachNetkit name _ _ _ _ _) => name = nkName
  | .request _ (.detachNetkit name) => name = nkName
  | _ => True

/-- No other interface is attached by it. -/
theorem netkits_step_of_concernsOnly {nkName : String} {event : DaemonEvent}
    (honly : ConcernsOnly nkName event) (hnone : ∀ name, name ≠ nkName → st.netkits name = none) :
    ∀ name, name ≠ nkName → (st.step event).netkits name = none := by
  intro name hne
  have hheld : st.directory.held name = none := hnone name hne
  show (st.step event).directory.held name = none
  rcases @directory_step_cases st event with ⟨hsame, -⟩ | ⟨-, hforget⟩ |
    ⟨answers, nk, guestIpv4, ghostIpv6, vpcId, vpcCidr, pid, globals, nkIfindex, rfl, -, -, hnew⟩ |
    ⟨answers, nk, rfl, hdetach⟩
  · rw [hsame]
    exact hheld
  · rw [hforget]
    exact hheld
  · obtain rfl : nk = nkName := honly
    rw [hnew]
    exact (Function.update_of_ne hne _ _).trans hheld
  · obtain rfl : nk = nkName := honly
    rw [hdetach]
    exact (Function.update_of_ne hne _ _).trans hheld

/-- Only that interface is ever attached. -/
theorem along_netkits_of_concernsOnly (nkName : String) {platformPrefix clusterId : UInt32}
    {events : List DaemonEvent} (h : ∀ event ∈ events, ConcernsOnly nkName event) :
    Along AttachState.step (fun st => ∀ name, name ≠ nkName → st.netkits name = none)
      (start platformPrefix clusterId) events := by
  have hall : Admitted AttachState.step (fun _ event => True ∧ ConcernsOnly nkName event)
      (start platformPrefix clusterId) events := (admitted_true _ _ events).and_forall h
  exact along_of_admitted (fun st => ∀ name, name ≠ nkName → st.netkits name = none)
    (fun st event hevent hst => netkits_step_of_concernsOnly hevent.2 hst) (fun _ _ => rfl) hall

/-- With one interface there is nothing to confuse. -/
theorem ghostsDistinct_of_concernsOnly (nkName : String) {platformPrefix clusterId : UInt32}
    {events : List DaemonEvent} (h : ∀ event ∈ events, ConcernsOnly nkName event) :
    Along AttachState.step GhostsDistinct (start platformPrefix clusterId) events := by
  refine (along_netkits_of_concernsOnly nkName h).mono ?_
  intro st hst name name' ghost nkIfindex nkIfindex' hname hname'
  have heq : ∀ {n place}, st.netkits n = some place → n = nkName := by
    intro n place hheld
    by_contra hne
    rw [hst n hne] at hheld
    cases hheld
  rw [heq hname, heq hname']

/-- The container of a pod is attached. -/
def attachPod : DaemonEvent :=
  .request {} (.attachNetkit "nk-web" "10.0.0.1" "fd6b:3372:1000:0:1:5:a00:1" 5 "10.0.0.0/24" 42)

/-- And detached. -/
def detachPod : DaemonEvent := .request {} (.detachNetkit "nk-web")

/-- Without a restart in between nothing is left. -/
theorem endpoints_exact_attach_detach :
    Along AttachState.step EndpointsExact (start 0xfd6b3372 1)
      [attachPod, detachPod, .restart fun _ => .ok ()] := by
  refine (endpoints_exact_iff (ghostsDistinct_of_concernsOnly "nk-web" ?_)).mpr ?_
  · intro event hevent
    simp only [List.mem_cons, List.not_mem_nil, or_false] at hevent
    rcases hevent with rfl | rfl | rfl
    · rfl
    · rfl
    · trivial
  · refine ⟨?_, ?_, trivial, trivial⟩
    · intro globals nkIfindex _ _ ghost old hheld
      cases hheld
    · intro _ hforgotten
      have hknown : (((start 0xfd6b3372 1).step attachPod).daemon.interfaces.nkInfo
          "nk-web").isSome := by
        decide
      rw [hforgotten] at hknown
      cases hknown

/-- With a restart in between the run is still about one interface. -/
theorem restartedPod_concernsOnly :
    ∀ event ∈ [attachPod, .restart fun _ => .ok (), detachPod], ConcernsOnly "nk-web" event := by
  intro event hevent
  simp only [List.mem_cons, List.not_mem_nil, or_false] at hevent
  rcases hevent with rfl | rfl | rfl
  · rfl
  · trivial
  · rfl

/-- The daemon is restarted while the container runs; its entry outlives it. -/
theorem endpoints_exact_fails_restart :
    Along AttachState.step GhostsDistinct (start 0xfd6b3372 1)
        [attachPod, .restart fun _ => .ok (), detachPod] ∧
      ¬ Along AttachState.step EndpointsExact (start 0xfd6b3372 1)
        [attachPod, .restart fun _ => .ok (), detachPod] := by
  constructor
  · exact ghostsDistinct_of_concernsOnly "nk-web" restartedPod_concernsOnly
  · intro h
    have hexact := h _ (List.prefix_refl _)
    have hleft : (run AttachState.step (start 0xfd6b3372 1)
        [attachPod, .restart fun _ => .ok (), detachPod]).daemon.endpoints
          ⟨construct 0xfd6b3372 1 5 (.ofOctets 10 0 0 1)⟩ = some ⟨0⟩ := by
      decide
    have hgone : ((run AttachState.step (start 0xfd6b3372 1)
        [attachPod, .restart fun _ => .ok (), detachPod]).netkits "nk-web").isNone := by
      decide
    obtain ⟨nkName, hheld⟩ := (hexact _ 0).mp hleft
    by_cases hname : nkName = "nk-web"
    · rw [hname] at hheld
      rw [hheld] at hgone
      cases hgone
    · rw [along_netkits_of_concernsOnly "nk-web" restartedPod_concernsOnly _
        (List.prefix_refl _) nkName hname] at hheld
      cases hheld

end AttachState

end K3rs
