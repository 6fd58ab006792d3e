import K3rs.Ebpf.RoundTrip
import K3rs.Lib.Transition

/-!
# NAT64 flow attribution

`nat64_egress` rewrites an outbound packet to the node's address and keeps its source port;
`NAT64_CONNTRACK` remembers which pod sent it, under protocol, source port, server address
and server port.  `nat64_ingress` looks the pod up again for a return packet.

The pod is not part of the key, nor of what the server sees, so a flow can be taken over by
a later packet of another pod that uses the same source port to the same server.
`FreshKey` is the absence of that: when a packet is sent, its key is unused or already
belongs to its sender.

## Results

* `step_conntrack`: an outbound packet writes exactly the entry of its flow, and nothing
  else changes the table.
* `attributed_step`, `nat64_attribution`: in every run whose outbound packets all find a
  fresh key, every return packet of every flow opened so far reaches the pod that opened
  it, and flows of different pods differ on the wire.
-/

namespace K3rs.Ebpf

open Wire Net Effects Transition

/-! ## Outbound packets -/

/-- A complete IPv6 TCP or UDP packet to a NAT64 destination. -/
structure IsNat64Outbound (f : Frame) : Prop where
  length : 58 ≤ f.length
  etherType : etherType f = ETH_P_IPV6
  word₀ : wordBe f 38 = NAT64_PREFIX_U32
  word₁ : wordBe f 42 = 0
  word₂ : wordBe f 46 = 0
  protocol : f.getD 20 0 = IPPROTO_TCP ∨ f.getD 20 0 = IPPROTO_UDP
  payload : halfBe f 18 ≠ 0

instance decidableIsNat64Outbound (f : Frame) : Decidable (IsNat64Outbound f) :=
  decidable_of_iff (58 ≤ f.length ∧ etherType f = ETH_P_IPV6 ∧ wordBe f 38 = NAT64_PREFIX_U32 ∧
      wordBe f 42 = 0 ∧ wordBe f 46 = 0 ∧
      (f.getD 20 0 = IPPROTO_TCP ∨ f.getD 20 0 = IPPROTO_UDP) ∧ halfBe f 18 ≠ 0)
    ⟨fun ⟨h₁, h₂, h₃, h₄, h₅, h₆, h₇⟩ => ⟨h₁, h₂, h₃, h₄, h₅, h₆, h₇⟩,
      fun ⟨h₁, h₂, h₃, h₄, h₅, h₆, h₇⟩ => ⟨h₁, h₂, h₃, h₄, h₅, h₆, h₇⟩⟩

/-- The conntrack key of an outbound packet. -/
def flowKey (f : Frame) : Nat64Key where
  protocol := f.getD 20 0
  srcPort := halfBe f 54
  dstIpv4 := wordBe f 50
  dstPort := halfBe f 56

/-- What `nat64_egress` settles on an outbound packet. -/
def outboundPlan (K : Kernel) (cfg : Nat64Config) (f : Frame) : Nat64Egress where
  key := flowKey f
  value := ⟨ipv6Src f⟩
  packet :=
    { srcV6 := addrWords K (ipv6Src f)
      dstV6 := ⟨be32 K NAT64_PREFIX_U32, 0, 0, be32 K (wordBe f 50)⟩
      payloadLen := halfBe f 18
      nextHdr := f.getD 20 0
      hopLimit := f.getD 21 0
      srcIpv4 := cfg.nodeIpv4
      dstIpv4 := wordBe f 50
      srcRaw := be32 K cfg.nodeIpv4
      dstRaw := be32 K (wordBe f 50) }
  physIfindex := cfg.physIfindex

section Egress

variable (K : Kernel) {f : Frame} {maps : Maps}

@[simp] theorem be32_zero : be32 K 0 = 0 := by
  unfold be32
  cases K.endian <;> decide

@[simp] theorem be32_eq_zero_iff (x : UInt32) : be32 K x = 0 ↔ x = 0 := by
  constructor
  · intro h
    rw [← be32_be32 K x, h, be32_zero]
  · rintro rfl
    exact be32_zero K

/-- The loads of `nat64_egress` on a frame long enough for them. -/
structure EgressLoads (K : Kernel) (f : Frame) : Prop where
  d0 : load32 K f IPV6_DST_ADDR_OFF = .ok (be32 K (wordBe f 38))
  d1 : load32 K f (IPV6_DST_ADDR_OFF + 4) = .ok (be32 K (wordBe f 42))
  d2 : load32 K f (IPV6_DST_ADDR_OFF + 8) = .ok (be32 K (wordBe f 46))
  d3 : load32 K f (IPV6_DST_ADDR_OFF + 12) = .ok (be32 K (wordBe f 50))
  payload : load16 K f (ETH_HDR_LEN + 4) = .ok (be16 K (halfBe f 18))
  nextHdr : load8 f (ETH_HDR_LEN + 6) = .ok (f.getD 20 0)
  hopLimit : load8 f (ETH_HDR_LEN + 7) = .ok (f.getD 21 0)
  src : loadWords K f IPV6_SRC_ADDR_OFF = .ok (addrWords K (ipv6Src f))
  sport : load16 K f (ETH_HDR_LEN + IPV6_HDR_LEN) = .ok (be16 K (halfBe f 54))
  dport : load16 K f (ETH_HDR_LEN + IPV6_HDR_LEN + 2) = .ok (be16 K (halfBe f 56))

theorem egressLoads (hlen : 58 ≤ f.length) : EgressLoads K f := by
  refine ⟨load32_wordBe K ?_, load32_wordBe K ?_, load32_wordBe K ?_, load32_wordBe K ?_,
    load16_halfBe K ?_, load8_eq ?_, load8_eq ?_, loadWords_eq K ?_, load16_halfBe K ?_,
    load16_halfBe K ?_⟩
  all_goals
    simp only [IPV6_DST_ADDR_OFF, IPV6_SRC_ADDR_OFF, ETH_HDR_LEN, IPV6_HDR_LEN]
    omega

theorem nat64EgressPlan_of_outbound {cfg : Nat64Config} (h : IsNat64Outbound f)
    (hcfg : maps.nat64Config = some cfg) :
    nat64EgressPlan K maps f = .ok (.translate (outboundPlan K cfg f)) := by
  have hlen := h.length
  obtain ⟨w, hload, hw⟩ := load16_etherType K (f := f) (by omega)
  have hetype : load16 K f 12 = .ok (be16 K ETH_P_IPV6) := by
    rw [hload, (hw _).mpr h.etherType]
  obtain ⟨hd0, hd1, hd2, hd3, hpayload, hnext, hhop, hsrc, hsport, hdport⟩ := egressLoads K hlen
  rw [h.word₀] at hd0
  rw [h.word₁, be32_zero] at hd1
  rw [h.word₂, be32_zero] at hd2
  have hproto : ¬ (f.getD 20 0 ≠ IPPROTO_TCP ∧ f.getD 20 0 ≠ IPPROTO_UDP) := by
    rintro ⟨htcp, hudp⟩
    exact h.protocol.elim htcp hudp
  simp only [nat64EgressPlan, hetype, hd0, hd1, hd2, hd3, hpayload, hnext, hhop, hsrc, hsport,
    hdport, hcfg, orErr_some, bind, Except.bind, pure, Except.pure, be16_be16, be32_be32,
    wordsAddr_addrWords, ne_eq, not_true_eq_false, or_self, if_false]
  rw [if_neg hproto, if_neg h.payload]
  rfl

/-- `nat64_egress` translates outbound packets only. -/
theorem isNat64Outbound_of_plan {p : Nat64Egress}
    (h : nat64EgressPlan K maps f = .ok (.translate p)) :
    IsNat64Outbound f ∧ ∃ cfg, maps.nat64Config = some cfg := by
  have hetype : etherType f = ETH_P_IPV6 := (nat64EgressPlan_serves maps).etherType_eq h
  obtain ⟨etype, -, h⟩ := bind_eq_ok h
  obtain ⟨-, h⟩ := test_passed h
  obtain ⟨d0, hd0, h⟩ := bind_eq_ok h
  obtain ⟨ht0, h⟩ := test_passed h
  obtain ⟨d1, hd1, h⟩ := bind_eq_ok h
  obtain ⟨d2, hd2, h⟩ := bind_eq_ok h
  obtain ⟨ht12, h⟩ := test_passed h
  obtain ⟨d3, -, h⟩ := bind_eq_ok h
  obtain ⟨payloadLen, hpayload, h⟩ := bind_eq_ok h
  obtain ⟨nextHdr, hnext, h⟩ := bind_eq_ok h
  obtain ⟨hopLimit, -, h⟩ := bind_eq_ok h
  obtain ⟨hproto, h⟩ := test_passed h
  obtain ⟨hpay, h⟩ := test_passed h
  obtain ⟨srcV6, -, h⟩ := bind_eq_ok h
  obtain ⟨srcPort, -, h⟩ := bind_eq_ok h
  obtain ⟨dstPort, hdport, h⟩ := bind_eq_ok h
  obtain ⟨cfg, hcfg, -⟩ := bind_eq_ok h
  -- the last load bounds the frame, so the others are known
  have hlen : 58 ≤ f.length := by
    by_contra hshort
    rw [load16, load16_eq_none (by simp only [ETH_HDR_LEN, IPV6_HDR_LEN]; omega)] at hdport
    cases hdport
  obtain ⟨hl0, hl1, hl2, -, hlp, hln, -, -, -, -⟩ := egressLoads K hlen
  cases hl0.symm.trans hd0
  cases hl1.symm.trans hd1
  cases hl2.symm.trans hd2
  cases hlp.symm.trans hpayload
  cases hln.symm.trans hnext
  simp only [ne_eq, not_or, not_not, be32_eq_zero_iff] at ht0 ht12
  refine ⟨⟨hlen, hetype, ?_, ht12.1, ht12.2, ?_, ?_⟩, ?_⟩
  · rw [← be32_be32 K (wordBe f 38), ht0, be32_be32]
  · by_contra hne
    exact hproto (not_or.mp hne)
  · rwa [be16_be16] at hpay
  · cases hmaps : maps.nat64Config with
    | none =>
        rw [hmaps] at hcfg
        cases hcfg
    | some cfg => exact ⟨cfg, rfl⟩

end Egress

/-! ## NAT64 addresses -/

section Addresses

variable (K : Kernel) {f : Frame}

theorem addrWords_nat64Addr (ipv4 : UInt32) :
    addrWords K (nat64Addr ipv4) = ⟨be32 K NAT64_PREFIX_U32, 0, 0, be32 K ipv4⟩ := by
  have hprefix : u32OfNe K.endian 0x00 0x64 0xff 0x9b = be32 K NAT64_PREFIX_U32 :=
    (u32OfNe_eq_swapToBe _ _ _ _ _ _).mpr (by decide)
  have hzero : u32OfNe K.endian 0 0 0 0 = 0 := by
    cases K.endian <;> decide
  have haddr : u32OfNe K.endian (u32Byte ipv4 0) (u32Byte ipv4 1) (u32Byte ipv4 2)
      (u32Byte ipv4 3) = be32 K ipv4 :=
    (u32OfNe_eq_swapToBe _ _ _ _ _ _).mpr (u32OfBe_bytes ipv4)
  rw [← hprefix, ← haddr]
  conv_rhs => rw [← hzero]
  rfl

/-- The destination of an outbound packet. -/
theorem IsNat64Outbound.dst (h : IsNat64Outbound f) : ipv6Dst f = nat64Addr (wordBe f 50) := by
  refine addrWords_injective (Kernel.linux .big) ?_
  rw [ipv6Dst, addrWords_addrAt, addrWords_nat64Addr]
  show AddrWords.mk (be32 _ (wordBe f 38)) (be32 _ (wordBe f 42)) (be32 _ (wordBe f 46)) _ = _
  rw [h.word₀, h.word₁, h.word₂, be32_zero]
  rfl

theorem nat64Addr_injective : Function.Injective nat64Addr := by
  intro x y h
  have hwords := congrArg (fun a => (addrWords (Kernel.linux .big) a).w₃) h
  simp only [addrWords_nat64Addr] at hwords
  rw [← be32_be32 (Kernel.linux .big) x, hwords, be32_be32]

end Addresses

/-! ## The table -/

/-- A packet that passes one of the two programs. -/
inductive Nat64Input where
  | egress (f : Frame)
  | ingress (f : Frame)

/-- The maps after a packet has passed. -/
def nat64Step (K : Kernel) (maps : Maps) : Nat64Input → Maps
  | .egress f => (nat64Egress K ⟨f, maps⟩).2.maps
  | .ingress f => (nat64Ingress K ⟨f, maps⟩).2.maps

/-- The table with the entry of an outbound packet. -/
def track (maps : Maps) (f : Frame) : Maps :=
  { maps with
    nat64Conntrack := Function.update maps.nat64Conntrack (flowKey f) (some ⟨ipv6Src f⟩) }

section Table

variable {K : Kernel} {f : Frame} {maps : Maps} {cfg : Nat64Config}

/-- The first step of the second half of `nat64_egress`. -/
theorem exec_insertConntrack (cfg : Nat64Config) :
    exec (insertConntrack (outboundPlan K cfg f).key (outboundPlan K cfg f).value) ⟨f, maps⟩ =
      (.ok (), ⟨f, track maps f⟩) :=
  exec_modifies_some rfl

/-- The second half of `nat64_egress`. -/
theorem exec_tryNat64Egress (h : IsNat64Outbound f) (hcfg : maps.nat64Config = some cfg) :
    exec (tryNat64Egress K) ⟨f, maps⟩ =
      exec (toIpv4 K (outboundPlan K cfg f).packet >>= fun _ =>
        pure (.redirect cfg.physIfindex)) ⟨f, track maps f⟩ := by
  rw [tryNat64Egress, exec_translator_translate (nat64EgressPlan_of_outbound K h hcfg)]
  exact exec_bind_ok (exec_insertConntrack cfg)

theorem step_egress_outbound (h : IsNat64Outbound f) (hcfg : maps.nat64Config = some cfg) :
    nat64Step K maps (.egress f) = track maps f := by
  show (exec (tryNat64Egress K) ⟨f, maps⟩).2.maps = track maps f
  rw [exec_tryNat64Egress h hcfg]
  exact Keeps.bind ((translations_keepMaps (track maps f)).2 _) (fun _ => Keeps.pure _)
    ⟨f, track maps f⟩ rfl

theorem step_egress_other (h : ¬ IsNat64Outbound f) : nat64Step K maps (.egress f) = maps := by
  show (exec (tryNat64Egress K) ⟨f, maps⟩).2.maps = maps
  by_contra hne
  have hchange : (exec (tryNat64Egress K) ⟨f, maps⟩).2 ≠ ⟨f, maps⟩ := by
    intro heq
    rw [heq] at hne
    exact hne rfl
  obtain ⟨p, hp⟩ := exists_plan_of_exec_ne hchange
  exact h (isNat64Outbound_of_plan K hp).1

theorem step_ingress (r : Frame) : nat64Step K maps (.ingress r) = maps := by
  show (exec (tryNat64Ingress K) ⟨r, maps⟩).2.maps = maps
  exact keeps_translator
    (fun p => Keeps.bind ((translations_keepMaps maps).1 p) fun _ => Keeps.reads _) ⟨r, maps⟩ rfl

/-- **What a packet does to the table.** -/
theorem step_conntrack (hcfg : maps.nat64Config = some cfg) (i : Nat64Input) :
    nat64Step K maps i = maps ∨
      ∃ f, i = .egress f ∧ IsNat64Outbound f ∧ nat64Step K maps i = track maps f := by
  cases i with
  | ingress r => exact Or.inl (step_ingress r)
  | egress f =>
      by_cases h : IsNat64Outbound f
      · exact Or.inr ⟨f, rfl, h, step_egress_outbound h hcfg⟩
      · exact Or.inl (step_egress_other h)

/-- When an outbound packet is sent, its key is unused or already its sender's. -/
def FreshKey (maps : Maps) : Nat64Input → Prop
  | .egress f => IsNat64Outbound f →
      maps.nat64Conntrack (flowKey f) = none ∨ maps.nat64Conntrack (flowKey f) = some ⟨ipv6Src f⟩
  | .ingress _ => True

/-- The configuration is set and the entry `key` belongs to `pod`. -/
structure Attributed (cfg : Nat64Config) (key : Nat64Key) (pod : Ipv6Addr) (maps : Maps) :
    Prop where
  config : maps.nat64Config = some cfg
  entry : maps.nat64Conntrack key = some ⟨pod⟩

/-- An entry keeps its owner as long as keys are fresh. -/
theorem attributed_step {key : Nat64Key} {pod : Ipv6Addr} (i : Nat64Input)
    (hfresh : FreshKey maps i) (h : Attributed cfg key pod maps) :
    Attributed cfg key pod (nat64Step K maps i) := by
  rcases step_conntrack h.config i with heq | ⟨f, rfl, hf, heq⟩
  · rw [heq]
    exact h
  · rw [heq]
    refine ⟨h.config, ?_⟩
    by_cases hkey : key = flowKey f
    · subst hkey
      have howner : (⟨ipv6Src f⟩ : Nat64Value) = ⟨pod⟩ := by
        rcases hfresh hf with hnone | hsome
        · rw [h.entry] at hnone
          cases hnone
        · exact Option.some_inj.mp (hsome.symm.trans h.entry)
      show Function.update maps.nat64Conntrack (flowKey f) _ (flowKey f) = _
      rw [Function.update_self, howner]
    · show Function.update maps.nat64Conntrack (flowKey f) _ key = _
      rw [Function.update_of_ne hkey]
      exact h.entry

theorem config_step (i : Nat64Input) (h : maps.nat64Config = some cfg) :
    (nat64Step K maps i).nat64Config = some cfg := by
  rcases step_conntrack h i with heq | ⟨f, -, -, heq⟩ <;> rw [heq] <;> exact h

/-- After any run, the entry of every outbound packet of the run belongs to its sender. -/
theorem attributed_run {inputs : List Nat64Input} (hcfg : maps.nat64Config = some cfg)
    (hadm : Admitted (nat64Step K) FreshKey maps inputs) (hf : IsNat64Outbound f)
    (hsent : .egress f ∈ inputs) :
    Attributed cfg (flowKey f) (ipv6Src f) (run (nat64Step K) maps inputs) := by
  obtain ⟨pre, post, rfl⟩ := List.append_of_mem hsent
  obtain ⟨hpre, hrest⟩ := admitted_append.mp hadm
  have hcfg' : (run (nat64Step K) maps pre).nat64Config = some cfg :=
    invariant_run (fun m => m.nat64Config = some cfg) (fun _ i _ hs => config_step i hs) hcfg hpre
  rw [run_append, run_cons]
  refine invariant_run (Attributed cfg (flowKey f) (ipv6Src f))
    (fun _ i hi hs => attributed_step i hi hs) ?_ hrest.2
  rw [step_egress_outbound hf hcfg']
  exact ⟨hcfg', Function.update_self _ _ _⟩

end Table

/-! ## Return packets -/

/-- A return packet of the flow of an outbound packet: from the server to the node, ports
swapped. -/
structure IsReturnOf (cfg : Nat64Config) (f r : Frame) : Prop extends IsIpv4L4 r where
  sameProtocol : ipv4Protocol r = (flowKey f).protocol
  src : ipv4Src r = (flowKey f).dstIpv4
  sport : halfBe r 34 = (flowKey f).dstPort
  dst : ipv4Dst r = cfg.nodeIpv4
  dport : halfBe r 36 = (flowKey f).srcPort

section Return

variable {K : Kernel} {f : Frame} {maps : Maps} {cfg : Nat64Config}

/-- A return packet goes where the table says. -/
theorem nat64Ingress_return (hL3 : K.ResizesL3) (hL4 : K.UpdatesL4Csum) {pod : Ipv6Addr}
    (h : Attributed cfg (flowKey f) pod maps) {r : Frame} (hr : IsReturnOf cfg f r) :
    ∃ r', nat64Ingress K ⟨r, maps⟩ = (deliver maps pod, ⟨r', maps⟩) ∧ ipv6Dst r' = pod := by
  have hct : maps.nat64Conntrack ⟨ipv4Protocol r, halfBe r 36, ipv4Src r, halfBe r 34⟩ =
      some ⟨pod⟩ := by
    rw [hr.sameProtocol, hr.dport, hr.src, hr.sport]
    exact h.entry
  have hplan := nat64IngressPlan_of_ipv4 K hr.toIsIpv4L4 h.config hr.dst hct
  have hlen := hr.length
  have hcsum := l4CsumOff_lt_hdrLen (ipv4Protocol r)
  have heth : (r.take 14).length = 14 := by
    rw [List.length_take]
    omega
  set p : ToIpv6 :=
    { srcRaw := be32 K (ipv4Src r), dstRaw := be32 K (ipv4Dst r)
      srcIpv6 := nat64Addr (ipv4Src r), dstIpv6 := pod
      payloadLen := ipv4TotLen r - UInt16.ofNat IPV4_HDR_LEN
      protocol := ipv4Protocol r, hopLimit := ipv4Ttl r }
  obtain ⟨c, hexec, -⟩ := toIpv6_exec hL3 hL4 p maps
    (show 34 + l4CsumOff (ipv4Protocol r) + 2 ≤ r.length by omega)
  have hin : nat64Ingress K ⟨r, maps⟩ = (deliver maps pod, ⟨r.take 14 ++ (ipv6Header p ++
      splice (r.drop 34) (l4CsumOff p.protocol) (u16ToNe K.endian c)), maps⟩) := by
    rw [nat64Ingress, classify, tryNat64Ingress, exec_translator_translate hplan,
      exec_bind_ok hexec]
    rfl
  exact ⟨_, hin, ipv6Dst_header p heth⟩

/-! ## The wire -/

/-- What a server sees of a flow. -/
structure WireTuple where
  protocol : UInt8
  src : UInt32
  sport : UInt16
  dst : UInt32
  dport : UInt16
  deriving DecidableEq, Repr

/-- The flow an IPv4 frame belongs to. -/
def wireTuple (f : Frame) : WireTuple :=
  ⟨ipv4Protocol f, ipv4Src f, halfBe f 34, ipv4Dst f, halfBe f 36⟩

/-- An outbound packet whose L4 header is complete. -/
def CompleteL4 (f : Frame) : Prop := 54 + l4HdrLen (f.getD 20 0) ≤ f.length

/-- The wire shows the key and the node, and nothing of the pod. -/
theorem wireTuple_egress (hL3 : K.ResizesL3) (hL4 : K.UpdatesL4Csum) (h : IsNat64Outbound f)
    (hl4 : CompleteL4 f) (hcfg : maps.nat64Config = some cfg) :
    wireTuple (nat64Egress K ⟨f, maps⟩).2.frame =
      ⟨(flowKey f).protocol, cfg.nodeIpv4, (flowKey f).srcPort, (flowKey f).dstIpv4,
        (flowKey f).dstPort⟩ := by
  have hcsum := l4CsumOff_lt_hdrLen (f.getD 20 0)
  have hports : 6 ≤ l4CsumOff (f.getD 20 0) := by
    unfold l4CsumOff
    split <;> decide
  unfold CompleteL4 at hl4
  obtain ⟨c, hexec, -⟩ := toIpv4_exec hL3 hL4 (outboundPlan K cfg f).packet (track maps f)
    (show 54 + l4CsumOff (f.getD 20 0) + 2 ≤ f.length by omega)
  rw [ipv4Header_eq K _ rfl rfl] at hexec
  have heth : (f.take 14).length = 14 := by
    rw [List.length_take]
    omega
  have hsplice : l4CsumOff (f.getD 20 0) + (u16ToNe K.endian c).length ≤ (f.drop 54).length := by
    rw [length_u16ToNe, List.length_drop]
    omega
  have hport : ∀ k, k + 2 ≤ l4CsumOff (f.getD 20 0) →
      halfBe (splice (f.drop 54) (l4CsumOff (f.getD 20 0)) (u16ToNe K.endian c)) k =
        halfBe f (54 + k) := by
    intro k hk
    rw [halfBe_splice hsplice hk, halfBe_drop]
  rw [nat64Egress, classify, exec_tryNat64Egress h hcfg, exec_bind_ok hexec]
  have hsport := hport 0 (by omega)
  have hdport := hport 2 (by omega)
  simp only [exec_pure, wireTuple, WireTuple.mk.injEq]
  refine ⟨getD_behind heth 9 rfl, (wordBe_behind heth 12 rfl).trans (u32OfBe_bytes _), ?_,
    (wordBe_behind heth 16 rfl).trans (u32OfBe_bytes _), ?_⟩
  · rw [halfBe_behind heth 20 rfl]
    exact (halfBe_behind rfl 0 rfl).trans hsport
  · rw [halfBe_behind heth 22 rfl]
    exact (halfBe_behind rfl 2 rfl).trans hdport

end Return

/-- **NAT64 flow attribution.**  In every run whose outbound packets all find a fresh key,
every return packet of every flow opened in it is rewritten to the address of the pod that
opened the flow and delivered there, and flows of different pods have different keys and
look different on the wire. -/
theorem nat64_attribution (K : Kernel) (hL3 : K.ResizesL3) (hL4 : K.UpdatesL4Csum)
    (maps : Maps) (cfg : Nat64Config) (hcfg : maps.nat64Config = some cfg)
    (inputs : List Nat64Input) (hadm : Admitted (nat64Step K) FreshKey maps inputs) :
    (∀ f, .egress f ∈ inputs → IsNat64Outbound f → ∀ r, IsReturnOf cfg f r →
      ∃ r', nat64Ingress K ⟨r, run (nat64Step K) maps inputs⟩ =
          (deliver (run (nat64Step K) maps inputs) (ipv6Src f),
            ⟨r', run (nat64Step K) maps inputs⟩) ∧
        ipv6Dst r' = ipv6Src f) ∧
    ∀ f g, .egress f ∈ inputs → .egress g ∈ inputs → IsNat64Outbound f → IsNat64Outbound g →
      ipv6Src f ≠ ipv6Src g →
        flowKey f ≠ flowKey g ∧
          (CompleteL4 f → CompleteL4 g →
            wireTuple (nat64Egress K ⟨f, maps⟩).2.frame ≠
              wireTuple (nat64Egress K ⟨g, maps⟩).2.frame) := by
  refine ⟨fun f hsent hf r hr => ?_, fun f g hsent hsent' hf hg hne => ?_⟩
  · exact nat64Ingress_return hL3 hL4 (attributed_run hcfg hadm hf hsent) hr
  · have hkey : flowKey f ≠ flowKey g := by
      intro heq
      have hfe := (attributed_run hcfg hadm hf hsent).entry
      have hge := (attributed_run hcfg hadm hg hsent').entry
      rw [heq, hge] at hfe
      injection hfe with hvalue
      injection hvalue with hsrc
      exact hne hsrc.symm
    refine ⟨hkey, fun hfl4 hgl4 heq => hkey ?_⟩
    rw [wireTuple_egress hL3 hL4 hf hfl4 hcfg, wireTuple_egress hL3 hL4 hg hgl4 hcfg] at heq
    injection heq with hproto _ hsport hdst hdport
    show Nat64Key.mk (flowKey f).protocol (flowKey f).srcPort (flowKey f).dstIpv4
      (flowKey f).dstPort = _
    rw [hproto, hsport, hdst, hdport]

/-! ## Two pods, one server -/

/-- A DNS query from a pod of VPC 5 to 8.8.8.8. -/
def dnsQuery (pod : UInt8) (sport : UInt16) : Frame :=
  List.replicate 12 0 ++ ([0x86, 0xDD, 0x60, 0, 0, 0, 0, 8, 17, 64] ++
    ((construct PLATFORM_PREFIX 1 5 (.ofOctets 10 0 0 pod)).octets ++
      ((nat64Addr 0x08080808).octets ++ (u16ToBe sport ++ [0, 53, 0, 8, 0x12, 0x34]))))

/-- The answer, to port 4096 of the node 192.0.2.1. -/
def dnsAnswer : Frame :=
  List.replicate 12 0 ++ [0x08, 0x00, 0x45, 0, 0, 28, 0, 0, 0x40, 0, 64, 17, 0, 0,
    8, 8, 8, 8, 192, 0, 2, 1, 0, 53, 0x10, 0, 0, 8, 0x12, 0x34]

/-- The node's address and interface. -/
def nodeConfig : Nat64Config := ⟨0xc0000201, 3⟩

theorem isReturnOf_dnsAnswer : IsReturnOf nodeConfig (dnsQuery 1 4096) dnsAnswer where
  etherType := by decide
  verIhl := by decide
  protocol := Or.inr (by decide)
  length := by decide
  sameProtocol := by decide
  src := by decide
  sport := by decide
  dst := by decide
  dport := by decide

/-- Pod 1 queries from port 4096, then pod 2 from the given port. -/
def dnsQueries (sport : UInt16) : List Nat64Input :=
  [.egress (dnsQuery 1 4096), .egress (dnsQuery 2 sport)]

/-- The maps after the two queries. -/
def dnsMaps (sport : UInt16) : Maps :=
  run (nat64Step (.linux .little)) { nat64Config := some nodeConfig } (dnsQueries sport)

/-- Two pods use the same source port: the answer to the first one's query goes to the
second, and the server cannot tell the queries apart. -/
theorem nat64_attribution_fails_same_port :
    IsNat64Outbound (dnsQuery 1 4096) ∧ IsNat64Outbound (dnsQuery 2 4096) ∧
      ipv6Src (dnsQuery 1 4096) ≠ ipv6Src (dnsQuery 2 4096) ∧
      flowKey (dnsQuery 1 4096) = flowKey (dnsQuery 2 4096) ∧
      IsReturnOf nodeConfig (dnsQuery 1 4096) dnsAnswer ∧
        ipv6Dst (nat64Ingress (.linux .little) ⟨dnsAnswer, dnsMaps 4096⟩).2.frame =
          ipv6Src (dnsQuery 2 4096) := by
  refine ⟨by decide, by decide, by decide, by decide,
    isReturnOf_dnsAnswer, ?_⟩
  decide

theorem admitted_dnsQueries :
    Admitted (nat64Step (.linux .little)) FreshKey { nat64Config := some nodeConfig }
      (dnsQueries 4097) :=
  ⟨fun _ => Or.inl (by decide), fun _ => Or.inl (by decide), trivial⟩

/-- With different source ports the answer goes to the first pod. -/
theorem nat64_attribution_two_ports :
    ∃ r', nat64Ingress (.linux .little) ⟨dnsAnswer, dnsMaps 4097⟩ =
        (deliver (dnsMaps 4097) (ipv6Src (dnsQuery 1 4096)), ⟨r', dnsMaps 4097⟩) ∧
      ipv6Dst r' = ipv6Src (dnsQuery 1 4096) :=
  (nat64_attribution (.linux .little) (Kernel.linux_resizesL3 _) (Kernel.linux_updatesL4Csum _)
    { nat64Config := some nodeConfig } nodeConfig rfl (dnsQueries 4097) admitted_dnsQueries).1
    (dnsQuery 1 4096) List.mem_cons_self (by decide) dnsAnswer isReturnOf_dnsAnswer

end K3rs.Ebpf
