import K3rs.Ebpf.AllOrNothing
import K3rs.Ebpf.Nat64RoundTrip

/-!
# Length arithmetic

The IPv4 total length counts the header, the IPv6 payload length does not, so a translator
subtracts or adds 20, in 16 bits.  Nothing in the four programs bounds the field they read:
`nat64_egress` refuses a payload length of 0, no program one above 65515, and no program a total
length below 20.

`siit_in` and `nat64_ingress` subtract before they have decided.  `siitInHead` and
`nat64IngressHead` are the programs up to that point, and `siitInPlan_eq_head`,
`nat64IngressPlan_eq_head` put the two parts together again.  The other two programs add after
they have resized the frame.
-/

namespace K3rs.Ebpf

open Wire Net Effects

/-! ## Up to the subtraction -/

/-- What an IPv4 translator has read when it subtracts. -/
structure Ipv4Read where
  srcRaw : UInt32
  dstRaw : UInt32
  protocol : UInt8
  totLen : UInt16

/-- What follows a first part that may have returned a verdict. -/
def afterHead {π ρ : Type} (head : Except Unit (Decision π))
    (tail : π → Except Unit (Decision ρ)) : Except Unit (Decision ρ) := do
  match ← head with
  | .verdict action => return .verdict action
  | .translate r => tail r

section Heads

variable (K : Kernel)

/-- `try_siit_in` up to `payload_len`. -/
def siitInHead (my : Globals) (f : Frame) : Except Unit (Decision Ipv4Read) := do
  let etype ← load16 K f 12
  if etype ≠ be16 K ETH_P_IP then
    return .verdict .ok
  let verIhl ← load8 f ETH_HDR_LEN
  if verIhl ≠ 0x45 then
    return .verdict .ok
  let protocol ← load8 f (ETH_HDR_LEN + 9)
  if protocol ≠ IPPROTO_TCP ∧ protocol ≠ IPPROTO_UDP then
    return .verdict .ok
  let srcRaw ← load32 K f (ETH_HDR_LEN + 12)
  let dstRaw ← load32 K f (ETH_HDR_LEN + 16)
  if be32 K srcRaw ≠ my.myGuestIpv4 then
    return .verdict .shot
  let totLen ← load16 K f (ETH_HDR_LEN + 2)
  return .translate ⟨srcRaw, dstRaw, protocol, be16 K totLen⟩

/-- `try_siit_in` from there to the end of its first half. -/
def siitInTail (my : Globals) (f : Frame) (r : Ipv4Read) : Except Unit (Decision ToIpv6) := do
  let payloadLen := r.totLen - UInt16.ofNat IPV4_HDR_LEN
  let ttl ← load8 f (ETH_HDR_LEN + 8)
  if ttl ≤ 1 then
    return .verdict .shot
  let _srcPort ← load16 K f (ETH_HDR_LEN + IPV4_HDR_LEN)
  return .translate
    { srcRaw := r.srcRaw, dstRaw := r.dstRaw, srcIpv6 := my.myGhostIpv6
      dstIpv6 := resolveDst my (be32 K r.dstRaw), payloadLen, protocol := r.protocol
      hopLimit := ttl - 1 }

/-- `try_nat64_ingress` up to `payload_len`. -/
def nat64IngressHead (maps : Maps) (f : Frame) :
    Except Unit (Decision (Ipv4Read × Nat64Value)) := do
  let etype ← load16 K f 12
  if etype ≠ be16 K ETH_P_IP then
    return .verdict .ok
  let verIhl ← load8 f ETH_HDR_LEN
  if verIhl ≠ 0x45 then
    return .verdict .ok
  let protocol ← load8 f (ETH_HDR_LEN + 9)
  if protocol ≠ IPPROTO_TCP ∧ protocol ≠ IPPROTO_UDP then
    return .verdict .ok
  let srcRaw ← load32 K f (ETH_HDR_LEN + 12)
  let dstRaw ← load32 K f (ETH_HDR_LEN + 16)
  let cfg ← orErr maps.nat64Config
  if be32 K dstRaw ≠ cfg.nodeIpv4 then
    return .verdict .ok
  let sport ← load16 K f (ETH_HDR_LEN + IPV4_HDR_LEN)
  let dport ← load16 K f (ETH_HDR_LEN + IPV4_HDR_LEN + 2)
  let ct ← orErr
    (maps.nat64Conntrack ⟨protocol, be16 K dport, be32 K srcRaw, be16 K sport⟩)
  let totLen ← load16 K f (ETH_HDR_LEN + 2)
  return .translate (⟨srcRaw, dstRaw, protocol, be16 K totLen⟩, ct)

/-- `try_nat64_ingress` from there to the end of its first half. -/
def nat64IngressTail (f : Frame) (r : Ipv4Read × Nat64Value) : Except Unit (Decision ToIpv6) := do
  let payloadLen := r.1.totLen - UInt16.ofNat IPV4_HDR_LEN
  let ttl ← load8 f (ETH_HDR_LEN + 8)
  return .translate
    { srcRaw := r.1.srcRaw, dstRaw := r.1.dstRaw, srcIpv6 := nat64Addr (be32 K r.1.srcRaw)
      dstIpv6 := r.2.srcIpv6, payloadLen, protocol := r.1.protocol, hopLimit := ttl }

variable {K} {my : Globals} {maps : Maps} {f : Frame}

/-- A step before the head is a step before the whole. -/
private theorem afterHead_bind {α π ρ : Type} (x : Except Unit α)
    (k : α → Except Unit (Decision π)) (tail : π → Except Unit (Decision ρ)) :
    afterHead (x >>= k) tail = x >>= fun a => afterHead (k a) tail := by
  cases x with
  | error e => rfl
  | ok a => rfl

private theorem afterHead_ite {π ρ : Type} {c : Prop} [Decidable c] (action : Action)
    (rest : Except Unit (Decision π)) (tail : π → Except Unit (Decision ρ)) :
    afterHead (if c then pure (.verdict action) else rest) tail =
      if c then pure (.verdict action) else afterHead rest tail := by
  by_cases hc : c
  · rw [if_pos hc, if_pos hc]
    rfl
  · rw [if_neg hc, if_neg hc]

theorem siitInPlan_eq_head :
    siitInPlan K my f = afterHead (siitInHead K my f) (siitInTail K my f) := by
  simp only [siitInHead, afterHead_bind, afterHead_ite]
  rfl

theorem nat64IngressPlan_eq_head :
    nat64IngressPlan K maps f = afterHead (nat64IngressHead K maps f) (nat64IngressTail K f) := by
  simp only [nat64IngressHead, afterHead_bind, afterHead_ite]
  rfl

/-- A loaded field, in host order. -/
private theorem be16_of_load16 {off : ℕ} {x : UInt16} (h : load16 K f off = .ok x) :
    be16 K x = halfBe f off := by
  rw [load16_halfBe K (le_length_of_load16 h)] at h
  cases h
  exact be16_be16 K _

theorem siitInHead_totLen {r : Ipv4Read} (h : siitInHead K my f = .ok (.translate r)) :
    r.totLen = ipv4TotLen f := by
  obtain ⟨etype, -, h⟩ := bind_eq_ok h
  obtain ⟨-, h⟩ := test_passed h
  obtain ⟨verIhl, -, h⟩ := bind_eq_ok h
  obtain ⟨-, h⟩ := test_passed h
  obtain ⟨protocol, -, h⟩ := bind_eq_ok h
  obtain ⟨-, h⟩ := test_passed h
  obtain ⟨srcRaw, -, h⟩ := bind_eq_ok h
  obtain ⟨dstRaw, -, h⟩ := bind_eq_ok h
  obtain ⟨-, h⟩ := test_passed h
  obtain ⟨totLen, hload, h⟩ := bind_eq_ok h
  cases h
  exact be16_of_load16 hload

theorem nat64IngressHead_totLen {r : Ipv4Read × Nat64Value}
    (h : nat64IngressHead K maps f = .ok (.translate r)) : r.1.totLen = ipv4TotLen f := by
  obtain ⟨etype, -, h⟩ := bind_eq_ok h
  obtain ⟨-, h⟩ := test_passed h
  obtain ⟨verIhl, -, h⟩ := bind_eq_ok h
  obtain ⟨-, h⟩ := test_passed h
  obtain ⟨protocol, -, h⟩ := bind_eq_ok h
  obtain ⟨-, h⟩ := test_passed h
  obtain ⟨srcRaw, -, h⟩ := bind_eq_ok h
  obtain ⟨dstRaw, -, h⟩ := bind_eq_ok h
  obtain ⟨cfg, -, h⟩ := bind_eq_ok h
  obtain ⟨-, h⟩ := test_passed h
  obtain ⟨sport, -, h⟩ := bind_eq_ok h
  obtain ⟨dport, -, h⟩ := bind_eq_ok h
  obtain ⟨ct, -, h⟩ := bind_eq_ok h
  obtain ⟨totLen, hload, h⟩ := bind_eq_ok h
  cases h
  exact be16_of_load16 hload

end Heads

/-! ## What is written -/

/-- A total length and a payload length of the same packet. -/
def LengthsAgree (totLen payloadLen : UInt16) : Prop :=
  totLen.toNat = payloadLen.toNat + IPV4_HDR_LEN

instance (totLen payloadLen : UInt16) : Decidable (LengthsAgree totLen payloadLen) :=
  inferInstanceAs (Decidable (_ = _))

/-- The subtraction did not wrap, and a frame that is changed says so. -/
structure PayloadLenExact (totLen : UInt16) (f g : Frame) : Prop where
  computed : LengthsAgree totLen (totLen - UInt16.ofNat IPV4_HDR_LEN)
  written : g ≠ f → LengthsAgree (ipv4TotLen f) (halfBe g 18)

/-- The addition did not wrap, and a frame that is changed says so. -/
structure TotalLenExact (p : ToIpv4) (f g : Frame) : Prop where
  computed : LengthsAgree p.totalLen p.payloadLen
  written : g ≠ f → LengthsAgree (ipv4TotLen g) (halfBe f 18)

theorem lengthsAgree_sub_iff {totLen : UInt16} :
    LengthsAgree totLen (totLen - UInt16.ofNat IPV4_HDR_LEN) ↔ 20 ≤ totLen.toNat := by
  unfold LengthsAgree
  constructor
  · intro h
    rw [h]
    exact Nat.le_add_left _ _
  · intro h
    rw [toNat_sub_hdrLen h]
    exact (Nat.sub_add_cancel h).symm

theorem lengthsAgree_add_iff {p : ToIpv4} :
    LengthsAgree p.totalLen p.payloadLen ↔ p.payloadLen.toNat ≤ 65515 := by
  unfold LengthsAgree
  constructor
  · intro h
    have hlt : p.payloadLen.toNat + 20 < 65536 := h ▸ p.totalLen.toNat_lt
    omega
  · exact toNat_totalLen

section Left

variable {K : Kernel} (hL3 : K.ResizesL3) (hL4 : K.UpdatesL4Csum) {f : Frame} {maps : Maps}
include hL3 hL4

/-- Wherever `toIpv6` stops, the new length field is in the frame. -/
theorem toIpv6_payloadLen (p : ToIpv6) (k : Unit → TcM Action)
    (hk : ∀ ctx, (exec (k ()) ctx).2 = ctx) (hlen : 34 ≤ f.length) :
    halfBe (exec (toIpv6 K p >>= k) ⟨f, maps⟩).2.frame 18 = p.payloadLen := by
  have heth : (f.take 14).length = 14 := by
    rw [List.length_take]
    omega
  have hfield : ∀ l4, halfBe (f.take 14 ++ (ipv6Header p ++ l4)) 18 = p.payloadLen :=
    fun l4 => (halfBe_behind heth 4 rfl).trans (u16OfBe_bytes _)
  by_cases hshort : CutShort f 34 p.protocol
  · rw [exec_bind_error (toIpv6_exec_short hL3 hL4 p hlen hshort)]
    exact hfield _
  · obtain ⟨c, hexec, -⟩ := toIpv6_exec hL3 hL4 p maps (Nat.not_lt.mp hshort)
    rw [exec_bind_ok hexec, hk]
    exact hfield _

/-- Wherever `toIpv4` stops, too. -/
theorem toIpv4_totalLen (p : ToIpv4) (action : Action) (hlen : 54 ≤ f.length) :
    ipv4TotLen (exec (toIpv4 K p >>= fun _ => pure action) ⟨f, maps⟩).2.frame = p.totalLen := by
  have heth : (f.take 14).length = 14 := by
    rw [List.length_take]
    omega
  have hfield : ∀ l4, ipv4TotLen (f.take 14 ++ (ipv4Header K p ++ l4)) = p.totalLen :=
    fun l4 => (halfBe_behind heth 2 rfl).trans (u16OfBe_bytes _)
  by_cases hshort : CutShort f 54 p.nextHdr
  · rw [exec_bind_error (toIpv4_exec_short hL3 hL4 p hlen hshort)]
    exact hfield _
  · obtain ⟨c, hexec, -⟩ := toIpv4_exec hL3 hL4 p maps (Nat.not_lt.mp hshort)
    rw [exec_bind_ok hexec]
    exact hfield _

/-- The field `siit_in` writes. -/
theorem siitIn_payloadLen {my : Globals} (hchange : (siitIn K my ⟨f, maps⟩).2.frame ≠ f) :
    halfBe (siitIn K my ⟨f, maps⟩).2.frame 18 = ipv4TotLen f - UInt16.ofNat IPV4_HDR_LEN := by
  obtain ⟨p, hplan⟩ := exists_plan_of_exec_ne fun heq => hchange (congrArg TcContext.frame heq)
  obtain ⟨hfrom, rfl⟩ := siitInPlan_iff.mp hplan
  show halfBe (exec (trySiitIn K my) ⟨f, maps⟩).2.frame 18 = _
  rw [trySiitIn, exec_translator_translate hplan]
  exact toIpv6_payloadLen hL3 hL4 _ _ (fun _ => rfl) (le_trans (by decide) hfrom.length)

/-- The field `nat64_ingress` writes. -/
theorem nat64Ingress_payloadLen (hchange : (nat64Ingress K ⟨f, maps⟩).2.frame ≠ f) :
    halfBe (nat64Ingress K ⟨f, maps⟩).2.frame 18 = ipv4TotLen f - UInt16.ofNat IPV4_HDR_LEN := by
  obtain ⟨p, hplan⟩ := exists_plan_of_exec_ne fun heq => hchange (congrArg TcContext.frame heq)
  obtain ⟨htracked, ct, -, rfl⟩ := nat64IngressPlan_iff.mp hplan
  show halfBe (exec (tryNat64Ingress K) ⟨f, maps⟩).2.frame 18 = _
  rw [tryNat64Ingress, exec_translator_translate hplan]
  exact toIpv6_payloadLen hL3 hL4 _ _ (fun _ => rfl) (le_trans (by decide) htracked.length)

/-- The field `siit_out` writes. -/
theorem siitOut_totalLen {my : Globals} (hchange : (siitOut K my ⟨f, maps⟩).2.frame ≠ f) :
    ipv4TotLen (siitOut K my ⟨f, maps⟩).2.frame = halfBe f 18 + UInt16.ofNat IPV4_HDR_LEN := by
  obtain ⟨p, hplan⟩ := exists_plan_of_exec_ne fun heq => hchange (congrArg TcContext.frame heq)
  obtain ⟨hto, rfl⟩ := siitOutPlan_iff.mp hplan
  show ipv4TotLen (exec (trySiitOut K my) ⟨f, maps⟩).2.frame = _
  rw [trySiitOut, exec_translator_translate hplan]
  exact toIpv4_totalLen hL3 hL4 (toPodPlan K my f) .ok hto.length

/-- The field `nat64_egress` writes. -/
theorem nat64Egress_totalLen (hchange : (nat64Egress K ⟨f, maps⟩).2.frame ≠ f) :
    ipv4TotLen (nat64Egress K ⟨f, maps⟩).2.frame = halfBe f 18 + UInt16.ofNat IPV4_HDR_LEN := by
  obtain ⟨p, hplan⟩ := exists_plan_of_exec_ne fun heq => hchange (congrArg TcContext.frame heq)
  obtain ⟨hout, cfg, hcfg, rfl⟩ := nat64EgressPlan_iff.mp hplan
  show ipv4TotLen (exec (tryNat64Egress K) ⟨f, maps⟩).2.frame = _
  rw [exec_tryNat64Egress hout hcfg]
  exact toIpv4_totalLen hL3 hL4 (outboundPlan K cfg f).packet _ (le_trans (by decide) hout.length)

end Left

/-! ## Exactly when nothing wraps -/

/-- A frame whose new length field is the difference. -/
private theorem payloadLenExact_iff {totLen : UInt16} {f g : Frame} (htot : totLen = ipv4TotLen f)
    (hwritten : g ≠ f → halfBe g 18 = ipv4TotLen f - UInt16.ofNat IPV4_HDR_LEN) :
    PayloadLenExact totLen f g ↔ 20 ≤ (ipv4TotLen f).toNat := by
  subst htot
  refine ⟨fun h => lengthsAgree_sub_iff.mp h.computed, fun h => ⟨lengthsAgree_sub_iff.mpr h, ?_⟩⟩
  intro hchange
  rw [hwritten hchange]
  exact lengthsAgree_sub_iff.mpr h

/-- A frame whose new length field is the sum. -/
private theorem totalLenExact_iff {p : ToIpv4} {f g : Frame} (hpayload : p.payloadLen = halfBe f 18)
    (hwritten : g ≠ f → ipv4TotLen g = halfBe f 18 + UInt16.ofNat IPV4_HDR_LEN) :
    TotalLenExact p f g ↔ (halfBe f 18).toNat ≤ 65515 := by
  rw [← hpayload] at hwritten ⊢
  refine ⟨fun h => lengthsAgree_add_iff.mp h.computed, fun h => ⟨lengthsAgree_add_iff.mpr h, ?_⟩⟩
  intro hchange
  rw [hwritten hchange, ← hpayload]
  exact lengthsAgree_add_iff.mpr h

/-- **The lengths.**  When one of the four translators computes the new length, the result is
exact, and so is the field it writes, exactly if the total length is at least 20, or the payload
length at most 65515. -/
theorem lengths_exact_iff (K : Kernel) (hL3 : K.ResizesL3) (hL4 : K.UpdatesL4Csum) (my : Globals)
    (maps : Maps) (f : Frame) :
    (∀ r, siitInHead K my f = .ok (.translate r) →
        (PayloadLenExact r.totLen f (siitIn K my ⟨f, maps⟩).2.frame ↔
          20 ≤ (ipv4TotLen f).toNat)) ∧
      (∀ p, siitOutPlan K my f = .ok (.translate p) → (K.changeProto f ETH_P_IP).isSome →
        (TotalLenExact p f (siitOut K my ⟨f, maps⟩).2.frame ↔ (halfBe f 18).toNat ≤ 65515)) ∧
      (∀ p, nat64EgressPlan K maps f = .ok (.translate p) → (K.changeProto f ETH_P_IP).isSome →
        (TotalLenExact p.packet f (nat64Egress K ⟨f, maps⟩).2.frame ↔
          (halfBe f 18).toNat ≤ 65515)) ∧
      (∀ r, nat64IngressHead K maps f = .ok (.translate r) →
        (PayloadLenExact r.1.totLen f (nat64Ingress K ⟨f, maps⟩).2.frame ↔
          20 ≤ (ipv4TotLen f).toNat)) := by
  refine ⟨fun r hr => ?_, fun p hp _ => ?_, fun p hp _ => ?_, fun r hr => ?_⟩
  · exact payloadLenExact_iff (siitInHead_totLen hr) (siitIn_payloadLen hL3 hL4)
  · obtain ⟨-, rfl⟩ := siitOutPlan_iff.mp hp
    exact totalLenExact_iff rfl (siitOut_totalLen hL3 hL4)
  · obtain ⟨-, cfg, -, rfl⟩ := nat64EgressPlan_iff.mp hp
    exact totalLenExact_iff rfl (nat64Egress_totalLen hL3 hL4)
  · exact payloadLenExact_iff (nat64IngressHead_totLen hr) (nat64Ingress_payloadLen hL3 hL4)

/-! ## A total length of zero -/

/-- `udpFrame` with total length 0. -/
def zeroLenFrame : Frame := splice udpFrame 16 [0, 0]

/-- The pod that sends it. -/
def zeroLenPod : Globals := podGlobals 5 (.ofOctets 10 0 0 1)

/-- What `siit_in` has read of it. -/
def zeroLenRead : Ipv4Read := ⟨0x0100000a, 0x0200000a, 17, 0⟩

theorem siitInHead_zeroLenFrame :
    siitInHead (.linux .little) zeroLenPod zeroLenFrame = .ok (.translate zeroLenRead) := by
  rfl

/-- The frame leaves with payload length 65516. -/
theorem zeroLenFrame_wraps :
    siitInHead (.linux .little) zeroLenPod zeroLenFrame = .ok (.translate zeroLenRead) ∧
      halfBe (siitIn (.linux .little) zeroLenPod ⟨zeroLenFrame, {}⟩).2.frame 18 = 65516 ∧
        ¬ PayloadLenExact zeroLenRead.totLen zeroLenFrame
          (siitIn (.linux .little) zeroLenPod ⟨zeroLenFrame, {}⟩).2.frame := by
  refine ⟨siitInHead_zeroLenFrame, by decide, fun h => ?_⟩
  exact absurd h.computed (by decide)

/-- The equivalence at that frame. -/
theorem lengths_exact_iff_zeroLenFrame :
    PayloadLenExact zeroLenRead.totLen zeroLenFrame
        (siitIn (.linux .little) zeroLenPod ⟨zeroLenFrame, {}⟩).2.frame ↔
      20 ≤ (ipv4TotLen zeroLenFrame).toNat :=
  (lengths_exact_iff (.linux .little) (Kernel.linux_resizesL3 _) (Kernel.linux_updatesL4Csum _)
    zeroLenPod {} zeroLenFrame).1 zeroLenRead siitInHead_zeroLenFrame

end K3rs.Ebpf
