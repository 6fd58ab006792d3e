import K3rs.Lib.Directory
import K3rs.Lib.IpText
import K3rs.Lib.Transition
import Mathlib.Data.List.AList

/-!
# The userspace switch

`MacSwitch` forwards Ethernet frames between VMs.  It keeps the registered VMs by their ids, and a
reverse map from guest addresses to ids.  A frame for an address that is not in the reverse map
leaves through the utun device.

The reverse map is a directory of the VMs: `add_vm` attaches a VM at its address, `remove_vm`
detaches it.  It is exact, and frames reach their VMs, in every state of a run if and only if every
VM is registered at an address that no other VM has, and always at the same one
(`switch_consistent_iff`).
-/

namespace K3rs

open Net Transition Wire

/-! ## The switch -/

/-- `Endpoint`.  A MAC address is its six bytes. -/
structure SwitchEndpoint where
  rawFd : ℕ
  guestIpv4 : Ipv4Addr
  vpcId : UInt16
  vmMac : List UInt8
  deriving DecidableEq, Repr

/-- `MacSwitch`; of the utun device only whether it could be created. -/
structure MacSwitch where
  endpoints : AList fun _ : String => SwitchEndpoint
  ipToId : AList fun _ : Ipv4Addr => String
  utun : Bool

/-- `GATEWAY_MAC`. -/
def GATEWAY_MAC : List UInt8 := [0x02, 0xfc, 0x00, 0x00, 0x00, 0x01]

/-- `DNS_PROXY_IP`. -/
def DNS_PROXY_IP : Ipv4Addr := Ipv4Addr.ofOctets 169 254 0 53

/-- `ETH_P_ARP`. -/
def ETH_P_ARP : UInt16 := 0x0806

/-- `ETH_P_IPV4`. -/
def ETH_P_IPV4 : UInt16 := 0x0800

/-- The bytes from `i` on, `n` of them. -/
def bytesAt (frame : List UInt8) (i n : ℕ) : List UInt8 := (frame.drop i).take n

/-- The 16-bit number at `i`. -/
def u16At (frame : List UInt8) (i : ℕ) : UInt16 := u16OfBe (frame.getD i 0) (frame.getD (i + 1) 0)

/-- The address at `i`. -/
def ipv4At (frame : List UInt8) (i : ℕ) : Ipv4Addr :=
  Ipv4Addr.ofOctets (frame.getD i 0) (frame.getD (i + 1) 0) (frame.getD (i + 2) 0)
    (frame.getD (i + 3) 0)

/-- What becomes of a frame. -/
inductive SwitchAction where
  | ignored
  /-- An answer to an ARP request, to the VM that asked. -/
  | arpReply (fd : ℕ) (reply : List UInt8)
  /-- The frame is for the DNS proxy. -/
  | dns
  /-- Sent to another VM. -/
  | forwarded (fd : ℕ) (frame : List UInt8)
  /-- The VM is in another VPC. -/
  | isolated
  /-- Written to the utun device, if there is one. -/
  | external (packet : List UInt8)
  | unavailable
  deriving DecidableEq, Repr

namespace MacSwitch

/-- `MacSwitch::new`. -/
def new (utun : Bool) : MacSwitch := ⟨∅, ∅, utun⟩

variable (s : MacSwitch)

/-- `MacSwitch::add_vm`. -/
def addVm (id : String) (socket : ℕ) (guestIpv4 : Ipv4Addr) (vpcId : UInt16) : MacSwitch :=
  { s with
    endpoints := s.endpoints.insert id ⟨socket, guestIpv4, vpcId, List.replicate 6 0⟩
    ipToId := s.ipToId.insert guestIpv4 id }

/-- `MacSwitch::remove_vm`. -/
def removeVm (id : String) : MacSwitch :=
  match s.endpoints.lookup id with
  | some ep => { s with endpoints := s.endpoints.erase id, ipToId := s.ipToId.erase ep.guestIpv4 }
  | none => s

/-- The sender's MAC address is learned. -/
def learn (srcId : String) (mac : List UInt8) : MacSwitch :=
  match s.endpoints.lookup srcId with
  | some ep => { s with endpoints := s.endpoints.insert srcId { ep with vmMac := mac } }
  | none => s

/-- The answer to an ARP request. -/
def arpReplyTo (frame : List UInt8) : List UInt8 :=
  -- Ethernet header
  bytesAt frame 22 6 ++ GATEWAY_MAC ++ [0x08, 0x06] ++
    -- hardware type, protocol, lengths, opcode
    [0x00, 0x01, 0x08, 0x00, 6, 4, 0x00, 0x02] ++
    GATEWAY_MAC ++ (ipv4At frame 38).octets ++ bytesAt frame 22 6 ++ (ipv4At frame 28).octets

/-- `MacSwitch::handle_arp`. -/
def handleArp (srcId : String) (frame : List UInt8) : MacSwitch × SwitchAction :=
  if frame.length < 14 + 28 then (s, .ignored)
  else if u16At frame 20 ≠ 1 then (s, .ignored)
  else
    let learned := s.learn srcId (bytesAt frame 22 6)
    match learned.endpoints.lookup srcId with
    | some ep => (learned, .arpReply ep.rawFd (arpReplyTo frame))
    | none => (learned, .ignored)

/-- The frame as it is forwarded to a VM. -/
def forwardedFrame (ep : SwitchEndpoint) (frame : List UInt8) : List UInt8 :=
  ep.vmMac ++ GATEWAY_MAC ++ frame.drop 12

/-- The frame leaves through the utun device. -/
def toUtun (frame : List UInt8) : SwitchAction :=
  if s.utun then .external (frame.drop 14) else .unavailable

/-- `MacSwitch::handle_ipv4`. -/
def handleIpv4 (srcId : String) (frame : List UInt8) : SwitchAction :=
  if frame.length < 14 + 20 then .ignored
  else
    let dstIp := ipv4At frame 30
    match s.endpoints.lookup srcId with
    | none => .ignored
    | some src =>
        if dstIp = DNS_PROXY_IP then .dns
        else
          match (s.ipToId.lookup dstIp).bind s.endpoints.lookup with
          | some dst =>
              if dst.vpcId ≠ src.vpcId then .isolated
              else .forwarded dst.rawFd (forwardedFrame dst frame)
          | none => s.toUtun frame

/-- What the loop of `start` does with a frame that it has received from a VM. -/
def handleFrame (srcId : String) (frame : List UInt8) : MacSwitch × SwitchAction :=
  if frame.length < 14 then (s, .ignored)
  else if u16At frame 12 = ETH_P_ARP then s.handleArp srcId frame
  else if u16At frame 12 = ETH_P_IPV4 then (s, s.handleIpv4 srcId frame)
  else (s, .ignored)

end MacSwitch

/-- What happens to a switch. -/
inductive SwitchStep where
  | addVm (id : String) (socket : ℕ) (guestIpv4 : Ipv4Addr) (vpcId : UInt16)
  | removeVm (id : String)
  | frame (srcId : String) (frame : List UInt8)
  deriving DecidableEq, Repr

namespace MacSwitch

/-- One step. -/
def step (s : MacSwitch) : SwitchStep → MacSwitch
  | .addVm id socket guestIpv4 vpcId => s.addVm id socket guestIpv4 vpcId
  | .removeVm id => s.removeVm id
  | .frame srcId frame => (s.handleFrame srcId frame).1

/-! ## The property -/

variable (s : MacSwitch)

/-- The reverse map has the addresses of the registered VMs and no others. -/
def Consistent : Prop :=
  ∀ a id, s.ipToId.lookup a = some id ↔ ∃ ep, s.endpoints.lookup id = some ep ∧ ep.guestIpv4 = a

/-- A packet from a registered VM to the address of one in its VPC is forwarded to that VM. -/
def Delivers : Prop :=
  ∀ srcId src id ep frame, s.endpoints.lookup srcId = some src → s.endpoints.lookup id = some ep →
    ep.vpcId = src.vpcId → 14 + 20 ≤ frame.length → ipv4At frame 30 = ep.guestIpv4 →
      s.handleIpv4 srcId frame = .forwarded ep.rawFd (forwardedFrame ep frame)

/-- The condition on a step: a VM is not registered at the address of the DNS proxy, nor at that of
another VM, and a VM that is registered keeps its address. -/
def Fits : SwitchStep → Prop
  | .addVm id _ guestIpv4 _ => guestIpv4 ≠ DNS_PROXY_IP ∧
      ∀ id' ep, s.endpoints.lookup id' = some ep → (ep.guestIpv4 = guestIpv4 ↔ id' = id)
  | _ => True

/-! ## The directory of the VMs -/

/-- The reverse map as a directory: a VM holds its address, with its id as the entry. -/
def directory : Directory String Ipv4Addr String where
  entries := s.ipToId.lookup
  held := fun id => (s.endpoints.lookup id).map fun ep => (ep.guestIpv4, id)
  known := fun id => (s.endpoints.lookup id).map SwitchEndpoint.guestIpv4

variable {s}

theorem held_directory {id id' : String} {a : Ipv4Addr} : s.directory.held id = some (a, id') ↔
    id' = id ∧ ∃ ep, s.endpoints.lookup id = some ep ∧ ep.guestIpv4 = a := by
  rw [directory, Option.map_eq_some_iff]
  constructor
  · rintro ⟨ep, hlookup, heq⟩
    obtain ⟨ha, hid⟩ := Prod.mk.inj heq
    exact ⟨hid.symm, ep, hlookup, ha⟩
  · rintro ⟨rfl, ep, hlookup, rfl⟩
    exact ⟨ep, hlookup, rfl⟩

theorem consistent_iff_exact : s.Consistent ↔ s.directory.Exact := by
  refine forall₂_congr fun a id => iff_congr Iff.rfl ?_
  simp only [held_directory]
  exact ⟨fun h => ⟨id, rfl, h⟩, fun ⟨_, hid, h⟩ => hid ▸ h⟩

/-- In an exact reverse map an address has one VM. -/
theorem Consistent.distinct (h : s.Consistent) : s.directory.Distinct := by
  intro o o' a v v' ho ho'
  obtain ⟨rfl, hep⟩ := held_directory.mp ho
  obtain ⟨rfl, hep'⟩ := held_directory.mp ho'
  exact Option.some_inj.mp (((h a v).mpr hep).symm.trans ((h a v').mpr hep'))

theorem directory_addVm (id : String) (socket : ℕ) (guestIpv4 : Ipv4Addr) (vpcId : UInt16) :
    (s.addVm id socket guestIpv4 vpcId).directory = s.directory.attach id guestIpv4 id := by
  ext1
  · funext a
    by_cases ha : a = guestIpv4
    · subst ha
      simp [directory, addVm, Directory.attach]
    · simp [directory, addVm, Directory.attach, Function.update_of_ne ha, AList.lookup_insert_ne ha]
  all_goals
    funext id'
    by_cases hid : id' = id
    · subst hid
      simp [directory, addVm, Directory.attach]
    · simp [directory, addVm, Directory.attach, Function.update_of_ne hid,
        AList.lookup_insert_ne hid]

theorem directory_removeVm (id : String) : (s.removeVm id).directory = s.directory.detach id := by
  rw [removeVm]
  cases hlookup : s.endpoints.lookup id with
  | none =>
      have hknown : s.directory.known id = none := by simp [directory, hlookup]
      have hheld : s.directory.held id = none := by simp [directory, hlookup]
      rw [Directory.detach, hknown]
      ext1
      · rfl
      · exact (Function.update_eq_self_iff.mpr hheld.symm).symm
      · exact (Function.update_eq_self_iff.mpr hknown.symm).symm
  | some ep =>
      have hknown : s.directory.known id = some ep.guestIpv4 := by simp [directory, hlookup]
      rw [Directory.detach, hknown]
      ext1
      · funext a
        by_cases ha : a = ep.guestIpv4
        · subst ha
          simp [directory]
        · simp [directory, Function.update_of_ne ha, AList.lookup_erase_ne ha]
      all_goals
        funext id'
        by_cases hid : id' = id
        · subst hid
          simp [directory]
        · simp [directory, Function.update_of_ne hid, AList.lookup_erase_ne hid]

theorem lookup_learn (srcId : String) (mac : List UInt8) (id : String) :
    (s.learn srcId mac).endpoints.lookup id =
      (s.endpoints.lookup id).map fun ep => if id = srcId then { ep with vmMac := mac } else ep := by
  rw [learn]
  cases hsrc : s.endpoints.lookup srcId with
  | none =>
      by_cases hid : id = srcId
      · rw [hid, hsrc]
        rfl
      · simp [hid]
  | some ep =>
      by_cases hid : id = srcId
      · subst hid
        simp [hsrc]
      · simp [AList.lookup_insert_ne hid, hid]

theorem directory_learn (srcId : String) (mac : List UInt8) :
    (s.learn srcId mac).directory = s.directory := by
  have hmap : (s.learn srcId mac).ipToId = s.ipToId := by
    rw [learn]
    split <;> rfl
  ext1
  · exact funext fun a => congrArg (AList.lookup a) hmap
  all_goals
    funext id
    simp only [directory, lookup_learn, Option.map_map]
    refine congrArg (fun f => Option.map f (s.endpoints.lookup id)) (funext fun ep => ?_)
    simp only [Function.comp_apply]
    split <;> rfl

/-- A frame leaves the addresses as they are. -/
theorem directory_handleFrame (srcId : String) (frame : List UInt8) :
    (s.handleFrame srcId frame).1.directory = s.directory := by
  rw [handleFrame]
  split_ifs
  · rfl
  · rw [handleArp]
    split_ifs
    · rfl
    · rfl
    · dsimp only
      split <;> exact directory_learn srcId _
  · rfl
  · rfl

/-! ## Registrations -/

theorem Consistent.holder (h : s.Consistent) {id : String} {ep : SwitchEndpoint}
    (hlookup : s.endpoints.lookup id = some ep) : s.ipToId.lookup ep.guestIpv4 = some id :=
  (h _ _).mpr ⟨ep, hlookup, rfl⟩

/-- **A registration** keeps the reverse map exact if and only if the address is that of this VM
and of no other. -/
theorem consistent_addVm_iff (h : s.Consistent) (id : String) (socket : ℕ) (guestIpv4 : Ipv4Addr)
    (vpcId : UInt16) : (s.addVm id socket guestIpv4 vpcId).Consistent ↔
      ∀ id' ep, s.endpoints.lookup id' = some ep → (ep.guestIpv4 = guestIpv4 ↔ id' = id) := by
  have hexact := consistent_iff_exact.mp h
  constructor
  · intro hafter id' ep hlookup
    have hdistinct := hafter.distinct
    have hexact' := consistent_iff_exact.mp hafter
    rw [directory_addVm] at hdistinct hexact'
    have hkeeps := (Directory.exact_attach_iff hexact h.distinct hdistinct).mp hexact'
    constructor
    · intro ha
      by_contra hid
      -- the entry of the other VM is gone
      have hother : (s.addVm id socket guestIpv4 vpcId).endpoints.lookup id' = some ep := by
        rw [addVm, AList.lookup_insert_ne hid]
        exact hlookup
      have hentry := hafter.holder hother
      rw [ha, addVm, AList.lookup_insert] at hentry
      exact hid (Option.some_inj.mp hentry).symm
    · rintro rfl
      exact hkeeps _ _ (held_directory.mpr ⟨rfl, ep, hlookup, rfl⟩)
  · intro hfits
    -- With the address of the VM goes its id.
    have hholds : ∀ {o ep'}, (s.addVm id socket guestIpv4 vpcId).endpoints.lookup o = some ep' →
        ep'.guestIpv4 = guestIpv4 ∧ o = id ∨
          ep'.guestIpv4 ≠ guestIpv4 ∧ s.endpoints.lookup o = some ep' := by
      intro o ep' hlookup
      by_cases hid : o = id
      · subst hid
        rw [addVm, AList.lookup_insert] at hlookup
        exact Or.inl ⟨by rw [← Option.some_inj.mp hlookup], rfl⟩
      · rw [addVm, AList.lookup_insert_ne hid] at hlookup
        exact Or.inr ⟨fun ha => hid ((hfits o ep' hlookup).mp ha), hlookup⟩
    have hdistinct : (s.directory.attach id guestIpv4 id).Distinct := by
      rw [← directory_addVm id socket guestIpv4 vpcId]
      intro o o' a v v' ho ho'
      obtain ⟨-, ep, hep, rfl⟩ := held_directory.mp ho
      obtain ⟨-, ep', hep', ha⟩ := held_directory.mp ho'
      rcases hholds hep with ⟨hnew, rfl⟩ | ⟨hnew, hold⟩
      · rcases hholds hep' with ⟨-, rfl⟩ | ⟨hnew', -⟩
        · rfl
        · exact absurd (ha.trans hnew) hnew'
      · rcases hholds hep' with ⟨hnew', -⟩ | ⟨-, hold'⟩
        · exact absurd (ha.symm.trans hnew') hnew
        · have hheld := h.holder hold'
          rw [ha, h.holder hold] at hheld
          exact Option.some_inj.mp hheld
    rw [consistent_iff_exact, directory_addVm,
      Directory.exact_attach_iff hexact h.distinct hdistinct]
    intro a v hheld
    obtain ⟨-, ep, hlookup, rfl⟩ := held_directory.mp hheld
    exact (hfits id ep hlookup).mpr rfl

/-- **A removal** keeps it exact. -/
theorem Consistent.removeVm (h : s.Consistent) (id : String) : (s.removeVm id).Consistent := by
  have hexact := consistent_iff_exact.mp h
  rw [consistent_iff_exact, directory_removeVm]
  cases hlookup : s.endpoints.lookup id with
  | none =>
      have hknown : s.directory.known id = none := by simp [directory, hlookup]
      have hheld : s.directory.held id = none := by simp [directory, hlookup]
      exact (Directory.exact_detach_of_unknown hexact h.distinct hknown).mpr hheld
  | some ep =>
      have hknown : s.directory.known id = some ep.guestIpv4 := by simp [directory, hlookup]
      exact Directory.exact_detach_of_known hexact h.distinct hknown
        (held_directory.mpr ⟨rfl, ep, hlookup, rfl⟩)

/-! ## Packets -/

/-- No VM is at the address of the DNS proxy. -/
def AvoidsProxy (s : MacSwitch) : Prop :=
  ∀ id ep, s.endpoints.lookup id = some ep → ep.guestIpv4 ≠ DNS_PROXY_IP

/-- A packet to an address. -/
def packetTo (a : Ipv4Addr) : List UInt8 := List.replicate 30 0 ++ a.octets

theorem ipv4At_packetTo (a : Ipv4Addr) : ipv4At (packetTo a) 30 = a := by
  simp [ipv4At, packetTo, Ipv4Addr.octets, Ipv4Addr.ofOctets, u32ToBe]

theorem length_packetTo (a : Ipv4Addr) : (packetTo a).length = 14 + 20 := by
  simp [packetTo, Ipv4Addr.octets, u32ToBe]

/-- What the DNS proxy gets does not reach a VM. -/
theorem Delivers.avoidsProxy (h : s.Delivers) : s.AvoidsProxy := by
  intro id ep hlookup ha
  have hdelivered := h id ep id ep (packetTo ep.guestIpv4) hlookup hlookup rfl
    (length_packetTo _).ge (ipv4At_packetTo _)
  rw [handleIpv4, if_neg (length_packetTo _).ge.not_gt, ipv4At_packetTo, hlookup] at hdelivered
  simp only [if_pos ha] at hdelivered
  cases hdelivered

theorem Consistent.delivers (h : s.Consistent) (hproxy : s.AvoidsProxy) : s.Delivers := by
  intro srcId src id ep frame hsrc hep hvpc hlength hdst
  rw [handleIpv4, if_neg hlength.not_gt, hdst, hsrc]
  simp only [if_neg (hproxy id ep hep), h.holder hep, Option.bind_some, hep, ne_eq, hvpc,
    not_true_eq_false, if_false]

/-! ## Every run -/

/-- The reverse map is exact, and packets reach their VMs. -/
def Switches (s : MacSwitch) : Prop := s.Consistent ∧ s.Delivers

theorem switches_iff : s.Switches ↔ s.Consistent ∧ s.AvoidsProxy :=
  and_congr_right fun h => ⟨Delivers.avoidsProxy, h.delivers⟩

theorem avoidsProxy_iff : s.AvoidsProxy ↔
    ∀ id v, s.directory.held id ≠ some (DNS_PROXY_IP, v) := by
  constructor
  · intro h id v hheld
    obtain ⟨-, ep, hlookup, ha⟩ := held_directory.mp hheld
    exact h id ep hlookup ha
  · intro h id ep hlookup ha
    exact h id id (held_directory.mpr ⟨rfl, ep, hlookup, ha⟩)

theorem avoidsProxy_addVm_iff (h : s.AvoidsProxy) (id : String) (socket : ℕ) (guestIpv4 : Ipv4Addr)
    (vpcId : UInt16) :
    (s.addVm id socket guestIpv4 vpcId).AvoidsProxy ↔ guestIpv4 ≠ DNS_PROXY_IP := by
  constructor
  · intro hafter
    exact hafter id _ (AList.lookup_insert _)
  · intro hne id' ep hlookup
    by_cases hid : id' = id
    · subst hid
      rw [addVm, AList.lookup_insert, Option.some_inj] at hlookup
      rw [← hlookup]
      exact hne
    · rw [addVm, AList.lookup_insert_ne hid] at hlookup
      exact h id' ep hlookup

theorem AvoidsProxy.removeVm (h : s.AvoidsProxy) (id : String) : (s.removeVm id).AvoidsProxy := by
  rw [avoidsProxy_iff] at h ⊢
  intro id' v hheld
  rw [directory_removeVm] at hheld
  exact h id' v (Directory.held_update_none.mp hheld).2

/-- **One step** from a state in which all is well. -/
theorem switches_step_iff (h : s.Switches) (i : SwitchStep) : (s.step i).Switches ↔ s.Fits i := by
  obtain ⟨hconsistent, hproxy⟩ := switches_iff.mp h
  rw [switches_iff]
  cases i with
  | addVm id socket guestIpv4 vpcId =>
      exact (and_congr (consistent_addVm_iff hconsistent id socket guestIpv4 vpcId)
        (avoidsProxy_addVm_iff hproxy id socket guestIpv4 vpcId)).trans and_comm
  | removeVm id => exact iff_of_true ⟨hconsistent.removeVm id, hproxy.removeVm id⟩ trivial
  | frame srcId frame =>
      have hsame : (s.step (.frame srcId frame)).directory = s.directory :=
        directory_handleFrame srcId frame
      rw [consistent_iff_exact, avoidsProxy_iff, hsame, ← consistent_iff_exact, ← avoidsProxy_iff]
      exact iff_of_true ⟨hconsistent, hproxy⟩ trivial

theorem switches_new (utun : Bool) : (new utun).Switches := by
  rw [switches_iff]
  constructor
  · intro a id
    refine iff_of_false (by simp [new]) ?_
    rintro ⟨ep, hlookup, -⟩
    simp [new] at hlookup
  · intro id ep hlookup
    simp [new] at hlookup

/-- **The reverse map is exact and packets reach their VMs** in every state of a run if and only if
each VM is registered at an address of its own, always the same one, and not that of the proxy. -/
theorem switch_consistent_iff (utun : Bool) (steps : List SwitchStep) :
    Along step Switches (new utun) steps ↔ Admitted step Fits (new utun) steps :=
  along_iff_admitted (fun _ => True) Switches (fun _ _ _ => trivial)
    (fun _ i _ h => switches_step_iff h i) trivial (switches_new utun)

/-! ## One address in two VPCs -/

/-- `10.42.0.5`. -/
def sharedIpv4 : Ipv4Addr := Ipv4Addr.ofOctets 10 42 0 5

/-- Two VMs of one VPC, and one of another VPC at the address of the first that comes and goes. -/
def comeAndGo : List SwitchStep :=
  [.addVm "a" 3 sharedIpv4 1, .addVm "b" 4 (Ipv4Addr.ofOctets 10 42 0 6) 1,
    .addVm "c" 5 sharedIpv4 2, .removeVm "c"]

/-- The first VM is still registered, but a packet to it from its own VPC leaves through the utun
device. -/
theorem switch_falls_through :
    ¬Along step Switches (new true) comeAndGo ∧
      ((run step (new true) comeAndGo).endpoints.lookup "a").map SwitchEndpoint.guestIpv4 =
        some sharedIpv4 ∧
      (run step (new true) comeAndGo).handleIpv4 "b" (packetTo sharedIpv4) =
        .external ((packetTo sharedIpv4).drop 14) := by
  have hlookup : ((run step (new true) comeAndGo).endpoints.lookup "a") =
      some ⟨3, sharedIpv4, 1, List.replicate 6 0⟩ := by decide
  refine ⟨fun h => ?_, by rw [hlookup]; rfl, by decide⟩
  have hholds := (h _ (List.prefix_refl _)).1.holder hlookup
  exact absurd hholds (by decide)

end MacSwitch

end K3rs
