import K3rs.Ebpf.Context

/-!
# VPC isolation classifiers

The host side of a pod or VM interface runs read-only classifiers: `enforceV6`
decides by the VPC ids in the two Ghost addresses of a packet, `tcIngressV6` adds
same-node delivery, and `tapGuard` pins a VM to its own Ghost source.  All of them
fail open: an out-of-bounds load ends in `TC_ACT_OK`.

On a complete IPv6 packet no load fails, and each program is a function of the two
addresses.  `isolationVerdict` is that function for `enforceV6`: a Ghost
destination needs a Ghost source whose VPC may reach it (`vpcRule`).

## Several classifiers on one hook

`tcChain` is the direct-action rule of TC: the first classifier whose verdict is
not negative decides.  `TC_ACT_OK` is 0, so no classifier here ever hands a frame
on, and the order of `tap_guard` and `tc_ingress_v6` on a TAP decides which half
of the policy is enforced.  `tap_policy_iff` says for which frames the other half
is not missed.
-/

namespace K3rs.Ebpf

open Wire Net

/-! ## The programs -/

/-- Every classifier turns `Err(())` into `TC_ACT_OK`. -/
def failOpen : Except Unit Action → Action
  | .ok action => action
  | .error _ => .ok

/-- Whether `PEERINGS` lets `src` reach `dst`. -/
def peeringAllowed (maps : Maps) (src dst : UInt16) : Bool :=
  match maps.peerings ⟨src, dst⟩ with
  | some p => p.allowed != 0
  | none => false

/-- Same-node delivery: the `ENDPOINTS` redirect, or `TC_ACT_OK` for an address that is
not on this node. -/
def deliver (maps : Maps) (dstIpv6 : Ipv6Addr) : Action :=
  match maps.endpoints ⟨dstIpv6⟩ with
  | some ep => .redirectPeer ep.nkIfindex
  | none => .ok

theorem deliver_ne_shot (maps : Maps) (dstIpv6 : Ipv6Addr) : deliver maps dstIpv6 ≠ .shot := by
  unfold deliver
  cases maps.endpoints ⟨dstIpv6⟩ <;> simp

section Programs

variable (K : Kernel) (maps : Maps)

/-- `enforce_v6`. -/
def enforceV6 (f : Frame) : Except Unit Action := do
  let etype ← load16 K f 12
  if etype ≠ be16 K ETH_P_IPV6 then
    return .ok
  let srcIsGhost ← isGhostPrefix K f IPV6_SRC_ADDR_OFF
  let dstIsGhost ← isGhostPrefix K f IPV6_DST_ADDR_OFF
  -- anti-spoofing: non-Ghost source targeting a Ghost destination
  if !srcIsGhost && dstIsGhost then
    return .shot
  if !srcIsGhost || !dstIsGhost then
    return .ok
  let srcVpcId ← extractVpcId K f IPV6_SRC_ADDR_OFF
  let dstVpcId ← extractVpcId K f IPV6_DST_ADDR_OFF
  -- VPC 0 is infrastructure
  if srcVpcId == 0 || dstVpcId == 0 then
    return .ok
  if srcVpcId == dstVpcId then
    return .ok
  if peeringAllowed maps srcVpcId dstVpcId then
    return .ok
  return .shot

/-- `tc_egress_v6`. -/
def tcEgressV6 (f : Frame) : Action := failOpen (enforceV6 K maps f)

/-- `try_tc_ingress_v6`. -/
def tryTcIngressV6 (f : Frame) : Except Unit Action := do
  let vpcResult ← enforceV6 K maps f
  if vpcResult ≠ .ok then
    return vpcResult
  let etype ← load16 K f 12
  if etype ≠ be16 K ETH_P_IPV6 then
    return .ok
  let dstIsGhost ← isGhostPrefix K f IPV6_DST_ADDR_OFF
  if !dstIsGhost then
    return .ok
  let dstIpv6 ← readIpv6Addr K f IPV6_DST_ADDR_OFF
  return deliver maps dstIpv6

/-- `tc_ingress_v6`. -/
def tcIngressV6 (f : Frame) : Action := failOpen (tryTcIngressV6 K maps f)

/-- `try_tap_guard`. -/
def tryTapGuard (my : Globals) (f : Frame) : Except Unit Action := do
  let etype ← load16 K f 12
  if etype ≠ be16 K ETH_P_IPV6 then
    return .shot
  let srcIsGhost ← isGhostPrefix K f IPV6_SRC_ADDR_OFF
  if !srcIsGhost then
    return .ok
  let expected := addrWords K my.myGhostIpv6
  let src ← loadWords K f IPV6_SRC_ADDR_OFF
  if src ≠ expected then
    return .shot
  return .ok

/-- `tap_guard`. -/
def tapGuard (my : Globals) (f : Frame) : Action := failOpen (tryTapGuard K my f)

end Programs

/-! ## Complete IPv6 packets -/

/-- The packet's source address. -/
def ipv6Src (f : Frame) : Ipv6Addr := addrAt f IPV6_SRC_ADDR_OFF

/-- The packet's destination address. -/
def ipv6Dst (f : Frame) : Ipv6Addr := addrAt f IPV6_DST_ADDR_OFF

/-- A frame with IPv6 ethertype and a full IPv6 header. -/
structure IsIpv6Packet (f : Frame) : Prop where
  length : 54 ≤ f.length
  etherType : etherType f = ETH_P_IPV6

instance decidableIsIpv6Packet (f : Frame) : Decidable (IsIpv6Packet f) :=
  decidable_of_iff (54 ≤ f.length ∧ etherType f = ETH_P_IPV6)
    ⟨fun h => ⟨h.1, h.2⟩, fun h => ⟨h.1, h.2⟩⟩

/-- The VPC rule: infrastructure, the same VPC, or a peering. -/
def vpcRule (maps : Maps) (src dst : UInt16) : Bool :=
  src == 0 || dst == 0 || src == dst || peeringAllowed maps src dst

/-- Whether the VPC of one Ghost address may reach that of another. -/
def mayReach (maps : Maps) (src dst : Ipv6Addr) : Bool :=
  vpcRule maps (ghostVpcId src) (ghostVpcId dst)

/-- What `enforce_v6` decides, as a function of the two addresses. -/
def isolationVerdict (maps : Maps) (src dst : Ipv6Addr) : Action :=
  if isGhost dst && !(isGhost src && mayReach maps src dst) then .shot else .ok

theorem isolationVerdict_eq_shot_iff (maps : Maps) (src dst : Ipv6Addr) :
    isolationVerdict maps src dst = .shot ↔
      isGhost dst = true ∧ ¬ (isGhost src = true ∧ mayReach maps src dst = true) := by
  unfold isolationVerdict
  cases isGhost src <;> cases isGhost dst <;> cases mayReach maps src dst <;> simp

/-- The last three tests of `enforce_v6` are the VPC rule. -/
private theorem vpcRule_tests (maps : Maps) (s d : UInt16) :
    (if (s == 0 || d == 0) = true then (.ok .ok : Except Unit Action)
      else if (s == d) = true then .ok .ok
      else if peeringAllowed maps s d = true then .ok .ok
      else .ok .shot) = .ok (if vpcRule maps s d then .ok else .shot) := by
  unfold vpcRule
  cases s == 0 <;> cases d == 0 <;> cases s == d <;> cases peeringAllowed maps s d <;> rfl

/-- The two Ghost tests of `enforce_v6` before them. -/
private theorem ghost_tests (srcIsGhost dstIsGhost rule : Bool) :
    (if (!srcIsGhost && dstIsGhost) = true then (.ok .shot : Except Unit Action)
      else if (!srcIsGhost || !dstIsGhost) = true then .ok .ok
      else .ok (if rule = true then .ok else .shot)) =
        .ok (if (dstIsGhost && !(srcIsGhost && rule)) = true then .shot else .ok) := by
  cases srcIsGhost <;> cases dstIsGhost <;> cases rule <;> rfl

/-- What `tc_ingress_v6` adds to the isolation verdict. -/
private theorem redirect_tests (verdict : Action) (ghost : Bool) (target : Action)
    (hverdict : verdict = .shot ∨ verdict = .ok) :
    (if ¬ verdict = .ok then (.ok verdict : Except Unit Action)
      else if (!ghost) = true then .ok .ok
      else .ok target) =
        .ok (if verdict = .shot then .shot else if ghost = true then target else .ok) := by
  rcases hverdict with rfl | rfl <;> cases ghost <;> rfl

private theorem redirect_shot_iff (verdict : Action) (ghost : Bool) {target : Action}
    (htarget : target ≠ .shot) :
    (if verdict = .shot then .shot else if ghost = true then target else .ok) = Action.shot ↔
      verdict = .shot := by
  by_cases hv : verdict = .shot
  · simp [hv]
  · cases ghost <;> simp [hv, htarget]

section Complete

variable (K : Kernel) (maps : Maps) {f : Frame}

/-- On a complete packet every load of the classifiers is in bounds. -/
theorem IsIpv6Packet.loads (h : IsIpv6Packet f) :
    load16 K f 12 = .ok (be16 K ETH_P_IPV6) ∧
      isGhostPrefix K f IPV6_SRC_ADDR_OFF = .ok (isGhost (ipv6Src f)) ∧
      isGhostPrefix K f IPV6_DST_ADDR_OFF = .ok (isGhost (ipv6Dst f)) := by
  have hlen := h.length
  obtain ⟨w, hload, hw⟩ := load16_etherType K (f := f) (by omega)
  have hetype : w = be16 K ETH_P_IPV6 := (hw _).mpr h.etherType
  have hsrc : IPV6_SRC_ADDR_OFF + 4 ≤ f.length := by
    simp only [IPV6_SRC_ADDR_OFF, ETH_HDR_LEN]
    omega
  have hdst : IPV6_DST_ADDR_OFF + 4 ≤ f.length := by
    simp only [IPV6_DST_ADDR_OFF, ETH_HDR_LEN]
    omega
  exact ⟨hetype ▸ hload, isGhostPrefix_eq K hsrc, isGhostPrefix_eq K hdst⟩

theorem enforceV6_of_ipv6 (h : IsIpv6Packet f) :
    enforceV6 K maps f = .ok (isolationVerdict maps (ipv6Src f) (ipv6Dst f)) := by
  have hlen := h.length
  obtain ⟨hload, hsrc, hdst⟩ := h.loads K
  have hsvpc : extractVpcId K f IPV6_SRC_ADDR_OFF = .ok (ghostVpcId (ipv6Src f)) :=
    extractVpcId_eq K (by simp only [IPV6_SRC_ADDR_OFF, ETH_HDR_LEN]; omega)
  have hdvpc : extractVpcId K f IPV6_DST_ADDR_OFF = .ok (ghostVpcId (ipv6Dst f)) :=
    extractVpcId_eq K (by simp only [IPV6_DST_ADDR_OFF, ETH_HDR_LEN]; omega)
  simp only [enforceV6, hload, hsrc, hdst, hsvpc, hdvpc, bind, Except.bind, pure, Except.pure,
    ne_eq, not_true_eq_false, if_false, vpcRule_tests, isolationVerdict, mayReach]
  exact ghost_tests _ _ _

theorem tryTcIngressV6_of_ipv6 (h : IsIpv6Packet f) :
    tryTcIngressV6 K maps f =
      .ok (if isolationVerdict maps (ipv6Src f) (ipv6Dst f) = .shot then .shot
        else if isGhost (ipv6Dst f) then deliver maps (ipv6Dst f) else .ok) := by
  have hlen := h.length
  obtain ⟨hload, -, hdst⟩ := h.loads K
  have hread : readIpv6Addr K f IPV6_DST_ADDR_OFF = .ok (ipv6Dst f) :=
    readIpv6Addr_eq K (by simp only [IPV6_DST_ADDR_OFF, ETH_HDR_LEN]; omega)
  have hverdict : isolationVerdict maps (ipv6Src f) (ipv6Dst f) = .shot ∨
      isolationVerdict maps (ipv6Src f) (ipv6Dst f) = .ok := by
    unfold isolationVerdict
    split
    · exact Or.inl rfl
    · exact Or.inr rfl
  simp only [tryTcIngressV6, enforceV6_of_ipv6 K maps h, hload, hdst, hread, bind,
    Except.bind, pure, Except.pure, ne_eq, not_true_eq_false, if_false]
  exact redirect_tests _ _ _ hverdict

/-- `tc_ingress_v6` drops a complete packet exactly when the isolation rule does. -/
theorem tcIngressV6_eq_shot_iff (h : IsIpv6Packet f) :
    tcIngressV6 K maps f = .shot ↔
      isGhost (ipv6Dst f) = true ∧
        ¬ (isGhost (ipv6Src f) = true ∧ mayReach maps (ipv6Src f) (ipv6Dst f) = true) := by
  rw [tcIngressV6, tryTcIngressV6_of_ipv6 K maps h, ← isolationVerdict_eq_shot_iff, failOpen]
  exact redirect_shot_iff _ _ (deliver_ne_shot maps _)

/-- `tap_guard` drops a complete packet exactly when its Ghost source is not the
VM's own. -/
theorem tapGuard_eq_shot_iff (my : Globals) (h : IsIpv6Packet f) :
    tapGuard K my f = .shot ↔ isGhost (ipv6Src f) = true ∧ ipv6Src f ≠ my.myGhostIpv6 := by
  have hlen := h.length
  obtain ⟨hload, hsrc, -⟩ := h.loads K
  have hwords : loadWords K f IPV6_SRC_ADDR_OFF = .ok (addrWords K (ipv6Src f)) :=
    loadWords_eq K (by simp only [IPV6_SRC_ADDR_OFF, ETH_HDR_LEN]; omega)
  have hinj : addrWords K (ipv6Src f) = addrWords K my.myGhostIpv6 ↔
      ipv6Src f = my.myGhostIpv6 := (addrWords_injective K).eq_iff
  simp only [tapGuard, tryTapGuard, hload, hsrc, hwords, bind, Except.bind, pure,
    Except.pure, ne_eq, not_true_eq_false, if_false, hinj]
  generalize isGhost (ipv6Src f) = ghost
  by_cases heq : ipv6Src f = my.myGhostIpv6
  · cases ghost <;> simp [failOpen, heq]
  · cases ghost <;> simp [failOpen, heq]

end Complete

/-! ## Direct-action chains -/

/-- Classifiers on one hook, in order: the first verdict that is not negative
decides, and a frame no classifier decides on is accepted. -/
def tcChain : List (Frame → Action) → Frame → Action
  | [], _ => .ok
  | program :: rest, f =>
      if 0 ≤ (program f).code then program f else tcChain rest f

/-- No verdict of these programs is negative, so the first one always decides. -/
theorem tcChain_cons (program : Frame → Action) (rest : List (Frame → Action)) (f : Frame) :
    tcChain (program :: rest) f = program f := by
  have hcode : 0 ≤ (program f).code := by
    cases program f <;> simp [Action.code]
  rw [tcChain, if_pos hcode]

/-- The two orders in which `install_tap_rules` can leave the TAP ingress hook. -/
inductive TapOrder where
  | guardFirst
  | ingressFirst
  deriving DecidableEq, Repr

/-- The verdict of the TAP ingress hook on a frame of the VM. -/
def tapIngress (K : Kernel) (maps : Maps) (my : Globals) : TapOrder → Frame → Action
  | .guardFirst => tcChain [tapGuard K my, tcIngressV6 K maps]
  | .ingressFirst => tcChain [tcIngressV6 K maps, tapGuard K my]

/-- The whole policy for frames of a VM: its Ghost source is its own, and a Ghost
destination is reached from that source under the VPC rule. -/
def TapPolicy (maps : Maps) (my : Globals) (f : Frame) : Prop :=
  (ipv6Src f = my.myGhostIpv6 ∨ isGhost (ipv6Src f) = false) ∧
    (isGhost (ipv6Dst f) = true →
      ipv6Src f = my.myGhostIpv6 ∧ mayReach maps (ipv6Src f) (ipv6Dst f) = true)

/-- The frames on which the classifier that never runs would not have objected. -/
def TapChainCovers (maps : Maps) (my : Globals) : TapOrder → Frame → Prop
  | .guardFirst, f =>
      isGhost (ipv6Dst f) = false ∨
        (isGhost (ipv6Src f) = true ∧ ipv6Src f ≠ my.myGhostIpv6) ∨
        (ipv6Src f = my.myGhostIpv6 ∧ mayReach maps (ipv6Src f) (ipv6Dst f) = true)
  | .ingressFirst, f =>
      isGhost (ipv6Src f) = false ∨ ipv6Src f = my.myGhostIpv6 ∨
        (isGhost (ipv6Dst f) = true ∧ mayReach maps (ipv6Src f) (ipv6Dst f) = false)

private theorem guard_first_covers {accepted own : Prop} {srcIsGhost dstIsGhost rule : Bool}
    (haccepted : accepted ↔ ¬ (srcIsGhost = true ∧ ¬ own)) :
    (accepted → (own ∨ srcIsGhost = false) ∧ (dstIsGhost = true → own ∧ rule = true)) ↔
      dstIsGhost = false ∨ (srcIsGhost = true ∧ ¬ own) ∨ (own ∧ rule = true) := by
  rw [haccepted]
  by_cases hown : own
  · cases dstIsGhost <;> cases rule <;> simp [hown]
  · cases srcIsGhost <;> cases dstIsGhost <;> simp [hown]

private theorem ingress_first_covers {accepted own : Prop} {srcIsGhost dstIsGhost rule : Bool}
    (haccepted : accepted ↔ ¬ (dstIsGhost = true ∧ ¬ (srcIsGhost = true ∧ rule = true))) :
    (accepted → (own ∨ srcIsGhost = false) ∧ (dstIsGhost = true → own ∧ rule = true)) ↔
      srcIsGhost = false ∨ own ∨ (dstIsGhost = true ∧ rule = false) := by
  rw [haccepted]
  by_cases hown : own
  · cases dstIsGhost <;> cases rule <;> simp [hown]
  · cases srcIsGhost <;> cases dstIsGhost <;> cases rule <;> simp [hown]

/-- **What the TAP hook enforces.**  Acceptance implies the whole policy exactly on
the frames `TapChainCovers` describes for the order in use: with the guard first no
VPC rule is applied to the VM's own packets, with the isolation classifier first no
source is checked. -/
theorem tap_policy_iff (K : Kernel) (maps : Maps) (my : Globals) (order : TapOrder) (f : Frame)
    (h : IsIpv6Packet f) :
    (tapIngress K maps my order f ≠ .shot → TapPolicy maps my f) ↔
      TapChainCovers maps my order f := by
  cases order with
  | guardFirst =>
      refine guard_first_covers ?_
      rw [tapIngress, tcChain_cons, ne_eq, tapGuard_eq_shot_iff K my h]
  | ingressFirst =>
      refine ingress_first_covers ?_
      rw [tapIngress, tcChain_cons, ne_eq, tcIngressV6_eq_shot_iff K maps h]

/-- A bare IPv6 packet between two addresses. -/
def bareIpv6 (src dst : Ipv6Addr) : Frame :=
  List.replicate 12 0 ++ ([0x86, 0xDD, 0x60, 0, 0, 0, 0, 0, 59, 64] ++ (src.octets ++ dst.octets))

/-- The globals of the pod with guest address `ip` in VPC `vpc`. -/
def podGlobals (vpc : UInt16) (ip : Ipv4Addr) : Globals where
  myGhostIpv6 := construct PLATFORM_PREFIX 1 vpc ip
  myGuestIpv4 := ip.bits
  myVpcId := vpc
  myVpcNetwork := 0x0a000000
  myVpcMask := 0xffffff00
  myPlatformPrefix := PLATFORM_PREFIX
  myClusterId := 1

/-- A VM of VPC 5 sending from its own address into the unpeered VPC 6. -/
def crossVpcFrame : Frame :=
  bareIpv6 (construct PLATFORM_PREFIX 1 5 (.ofOctets 10 0 0 1))
    (construct PLATFORM_PREFIX 1 6 (.ofOctets 10 0 0 2))

/-- The policy is not what the hook enforces: with the guard attached first, the VM
reaches another VPC without any peering. -/
theorem tap_policy_fails_guard_first :
    IsIpv6Packet crossVpcFrame ∧
      tapIngress (.linux .little) {} (podGlobals 5 (.ofOctets 10 0 0 1)) .guardFirst
          crossVpcFrame ≠ .shot ∧
        ¬ TapPolicy {} (podGlobals 5 (.ofOctets 10 0 0 1)) crossVpcFrame := by
  refine ⟨by decide, by decide, ?_⟩
  have hghost : isGhost (ipv6Dst crossVpcFrame) = true := by decide
  have hrule : ¬ mayReach {} (ipv6Src crossVpcFrame) (ipv6Dst crossVpcFrame) = true := by
    decide
  rintro ⟨-, hdst⟩
  exact hrule (hdst hghost).2

/-- The characterization at that frame. -/
theorem tap_policy_iff_crossVpc :
    (tapIngress (.linux .little) {} (podGlobals 5 (.ofOctets 10 0 0 1)) .guardFirst
        crossVpcFrame ≠ .shot → TapPolicy {} (podGlobals 5 (.ofOctets 10 0 0 1)) crossVpcFrame) ↔
      TapChainCovers {} (podGlobals 5 (.ofOctets 10 0 0 1)) .guardFirst crossVpcFrame :=
  tap_policy_iff _ _ _ _ _ (by decide)

end K3rs.Ebpf
