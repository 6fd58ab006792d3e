import K3rs.Ebpf.Handover

/-!
# Packets as the translators read them

The translators load raw words; this module says what they read in terms of header fields.
`wordBe` and `halfBe` are the fields of a frame in network order, so that a raw word is
`be32` or `be16` of a field whatever the byte order of the host.

For a complete TCP or UDP packet (`IsIpv4L4`, `IsNat64Outbound`, or an `ipv6Header` behind
an Ethernet header) no load fails, and the first half of each translator is computed here
once, as a function of the fields.
-/

namespace K3rs.Ebpf

open Wire Net Effects

/-! ## Fields -/

/-- The 16-bit field at an offset. -/
def halfBe (f : Frame) (off : ℕ) : UInt16 := u16OfBe (f.getD off 0) (f.getD (off + 1) 0)

/-- The 32-bit field at an offset. -/
def wordBe (f : Frame) (off : ℕ) : UInt32 :=
  u32OfBe (f.getD off 0) (f.getD (off + 1) 0) (f.getD (off + 2) 0) (f.getD (off + 3) 0)

def ipv4TotLen (f : Frame) : UInt16 := halfBe f 16
def ipv4Ttl (f : Frame) : UInt8 := f.getD 22 0
def ipv4Protocol (f : Frame) : UInt8 := f.getD 23 0
def ipv4Src (f : Frame) : UInt32 := wordBe f 26
def ipv4Dst (f : Frame) : UInt32 := wordBe f 30

/-- Length of the L4 header without options. -/
def l4HdrLen (protocol : UInt8) : ℕ := if protocol = IPPROTO_TCP then 20 else 8

theorem l4CsumOff_lt_hdrLen (protocol : UInt8) :
    l4CsumOff protocol + 2 ≤ l4HdrLen protocol := by
  unfold l4CsumOff l4HdrLen
  split <;> decide

section Behind

variable {pre rest : List UInt8} {n i : ℕ}

/-- Fields behind a leading part are fields of what follows it. -/
theorem getD_behind (hpre : pre.length = n) (k : ℕ) (hi : i = n + k) :
    (pre ++ rest).getD i 0 = rest.getD k 0 := by
  subst hi
  rw [List.getD_eq_getElem?_getD, List.getD_eq_getElem?_getD,
    List.getElem?_append_right (by omega), hpre, Nat.add_sub_cancel_left]

theorem halfBe_behind (hpre : pre.length = n) (k : ℕ) (hi : i = n + k) :
    halfBe (pre ++ rest) i = halfBe rest k := by
  rw [halfBe, halfBe, getD_behind hpre k hi, getD_behind hpre (k + 1) (by omega)]

theorem wordBe_behind (hpre : pre.length = n) (k : ℕ) (hi : i = n + k) :
    wordBe (pre ++ rest) i = wordBe rest k := by
  rw [wordBe, wordBe, getD_behind hpre k hi, getD_behind hpre (k + 1) (by omega),
    getD_behind hpre (k + 2) (by omega), getD_behind hpre (k + 3) (by omega)]

theorem halfBe_drop (f : Frame) (k off : ℕ) : halfBe (f.drop k) off = halfBe f (k + off) := by
  simp [halfBe, List.getD_eq_getElem?_getD, Nat.add_assoc]

/-- A field before a write stays. -/
theorem halfBe_splice {f bs : List UInt8} {off k : ℕ} (h : off + bs.length ≤ f.length)
    (hk : k + 2 ≤ off) : halfBe (splice f off bs) k = halfBe f k := by
  simp only [halfBe, List.getD_eq_getElem?_getD]
  rw [getElem?_splice_of_outside h (Or.inl (by omega)),
    getElem?_splice_of_outside h (Or.inl (by omega))]

end Behind

section Loads

variable (K : Kernel) {f : Frame} {off : ℕ}

theorem load16_halfBe (h : off + 2 ≤ f.length) : load16 K f off = .ok (be16 K (halfBe f off)) := by
  rw [load16_eq K h]
  exact congrArg _ ((u16OfNe_eq_swapToBe _ _ _ _).mpr rfl)

theorem load32_wordBe (h : off + 4 ≤ f.length) : load32 K f off = .ok (be32 K (wordBe f off)) := by
  rw [load32_eq K h]
  exact congrArg _ ((u32OfNe_eq_swapToBe _ _ _ _ _ _).mpr rfl)

/-- The raw words of an address in a frame are its fields. -/
theorem addrWords_addrAt (f : Frame) (off : ℕ) : addrWords K (addrAt f off) =
    ⟨be32 K (wordBe f off), be32 K (wordBe f (off + 4)), be32 K (wordBe f (off + 8)),
      be32 K (wordBe f (off + 12))⟩ := by
  have hword : ∀ i, i + 3 < 16 → u32OfNe K.endian ((addrAt f off).octet i)
      ((addrAt f off).octet (i + 1)) ((addrAt f off).octet (i + 2)) ((addrAt f off).octet (i + 3)) =
        be32 K (wordBe f (off + i)) := by
    intro i hi
    rw [octet_addrAt f off (by omega), octet_addrAt f off (by omega),
      octet_addrAt f off (by omega), octet_addrAt f off (by omega)]
    exact (u32OfNe_eq_swapToBe _ _ _ _ _ _).mpr rfl
  rw [addrWords, hword 0 (by omega), hword 4 (by omega), hword 8 (by omega), hword 12 (by omega)]
  rfl

@[simp] theorem be16_be16 (x : UInt16) : be16 K (be16 K x) = x := u16SwapToBe_involutive _ x

@[simp] theorem be32_be32 (x : UInt32) : be32 K (be32 K x) = x := u32SwapToBe_involutive _ x

end Loads

/-! ## First halves that translate -/

section Passed

/-- A step of a first half that did not fail. -/
theorem bind_eq_ok {α β : Type} {x : Except Unit α} {k : α → Except Unit β} {r : β}
    (h : (x >>= k) = .ok r) : ∃ a, x = .ok a ∧ k a = .ok r := by
  cases x with
  | error e => cases h
  | ok a => exact ⟨a, rfl, h⟩

/-- A test of a first half that went on to translate. -/
theorem test_passed {π : Type} {c : Prop} [Decidable c] {action : Action} {p : π}
    {rest : Except Unit (Decision π)}
    (h : (if c then .ok (.verdict action) else rest) = .ok (.translate p)) :
    ¬ c ∧ rest = .ok (.translate p) := by
  by_cases hc : c
  · rw [if_pos hc] at h
    cases h
  · rw [if_neg hc] at h
    exact ⟨hc, h⟩

end Passed

/-! ## IPv4 packets -/

/-- A frame with an IPv4 header without options and a complete TCP or UDP header. -/
structure IsIpv4L4 (f : Frame) : Prop where
  etherType : etherType f = ETH_P_IP
  verIhl : f.getD 14 0 = 0x45
  protocol : ipv4Protocol f = IPPROTO_TCP ∨ ipv4Protocol f = IPPROTO_UDP
  length : 34 + l4HdrLen (ipv4Protocol f) ≤ f.length

theorem IsIpv4L4.length_ge {f : Frame} (h : IsIpv4L4 f) : 42 ≤ f.length := by
  have hlen := h.length
  have hhdr : 8 ≤ l4HdrLen (ipv4Protocol f) := by
    unfold l4HdrLen
    split <;> decide
  omega

theorem IsIpv4L4.protocol_test {f : Frame} (h : IsIpv4L4 f) :
    ¬ (ipv4Protocol f ≠ IPPROTO_TCP ∧ ipv4Protocol f ≠ IPPROTO_UDP) := by
  rintro ⟨htcp, hudp⟩
  exact h.protocol.elim htcp hudp

section Ipv4

variable (K : Kernel) {f : Frame}

/-- The loads of the two IPv4 translators on a complete packet. -/
structure Ipv4Loads (K : Kernel) (f : Frame) : Prop where
  etherType : load16 K f 12 = .ok (be16 K ETH_P_IP)
  verIhl : load8 f ETH_HDR_LEN = .ok 0x45
  totLen : load16 K f (ETH_HDR_LEN + 2) = .ok (be16 K (ipv4TotLen f))
  ttl : load8 f (ETH_HDR_LEN + 8) = .ok (ipv4Ttl f)
  protocol : load8 f (ETH_HDR_LEN + 9) = .ok (ipv4Protocol f)
  src : load32 K f (ETH_HDR_LEN + 12) = .ok (be32 K (ipv4Src f))
  dst : load32 K f (ETH_HDR_LEN + 16) = .ok (be32 K (ipv4Dst f))
  sport : load16 K f (ETH_HDR_LEN + IPV4_HDR_LEN) = .ok (be16 K (halfBe f 34))
  dport : load16 K f (ETH_HDR_LEN + IPV4_HDR_LEN + 2) = .ok (be16 K (halfBe f 36))

/-- No load fails up to the L4 ports. -/
theorem ipv4Loads (hlen : 38 ≤ f.length) (hetherType : Ebpf.etherType f = ETH_P_IP)
    (hverIhl : f.getD 14 0 = 0x45) : Ipv4Loads K f := by
  obtain ⟨w, hload, hw⟩ := load16_etherType K (f := f) (by omega)
  refine ⟨?_, ?_, load16_halfBe K ?_, load8_eq ?_, load8_eq ?_, load32_wordBe K ?_,
    load32_wordBe K ?_, load16_halfBe K ?_, load16_halfBe K ?_⟩
  · rw [hload, (hw ETH_P_IP).mpr hetherType]
  · rw [ETH_HDR_LEN, load8_eq (by omega), hverIhl]
  all_goals
    simp only [ETH_HDR_LEN, IPV4_HDR_LEN]
    omega

theorem IsIpv4L4.loads (h : IsIpv4L4 f) : Ipv4Loads K f :=
  ipv4Loads K (le_trans (by decide) h.length_ge) h.etherType h.verIhl

/-- What `siit_in` settles on a packet of its pod. -/
theorem siitInPlan_of_ipv4 {my : Globals} (h : IsIpv4L4 f) (hsrc : ipv4Src f = my.myGuestIpv4)
    (httl : ¬ ipv4Ttl f ≤ 1) :
    siitInPlan K my f = .ok (.translate
      { srcRaw := be32 K (ipv4Src f)
        dstRaw := be32 K (ipv4Dst f)
        srcIpv6 := my.myGhostIpv6
        dstIpv6 := resolveDst my (ipv4Dst f)
        payloadLen := ipv4TotLen f - UInt16.ofNat IPV4_HDR_LEN
        protocol := ipv4Protocol f
        hopLimit := ipv4Ttl f - 1 }) := by
  obtain ⟨hetype, hver, htot, httlLoad, hproto, hs, hd, hsport, -⟩ := h.loads K
  simp only [siitInPlan, hetype, hver, hproto, hs, hd, htot, httlLoad, hsport, bind,
    Except.bind, pure, Except.pure, be16_be16, be32_be32, hsrc, ne_eq, not_true_eq_false, if_false]
  rw [if_neg h.protocol_test, if_neg httl]

/-- What `nat64_ingress` settles on a packet of a tracked flow. -/
theorem nat64IngressPlan_of_loads {maps : Maps} {cfg : Nat64Config} {ct : Nat64Value}
    (h : Ipv4Loads K f) (hprotocol : ipv4Protocol f = IPPROTO_TCP ∨ ipv4Protocol f = IPPROTO_UDP)
    (hcfg : maps.nat64Config = some cfg) (hdst : ipv4Dst f = cfg.nodeIpv4)
    (hct : maps.nat64Conntrack ⟨ipv4Protocol f, halfBe f 36, ipv4Src f, halfBe f 34⟩ = some ct) :
    nat64IngressPlan K maps f = .ok (.translate
      { srcRaw := be32 K (ipv4Src f)
        dstRaw := be32 K (ipv4Dst f)
        srcIpv6 := nat64Addr (ipv4Src f)
        dstIpv6 := ct.srcIpv6
        payloadLen := ipv4TotLen f - UInt16.ofNat IPV4_HDR_LEN
        protocol := ipv4Protocol f
        hopLimit := ipv4Ttl f }) := by
  obtain ⟨hetype, hver, htot, httlLoad, hproto, hs, hd, hsport, hdport⟩ := h
  have htest : ¬ (ipv4Protocol f ≠ IPPROTO_TCP ∧ ipv4Protocol f ≠ IPPROTO_UDP) := by
    rintro ⟨htcp, hudp⟩
    exact hprotocol.elim htcp hudp
  simp only [nat64IngressPlan, hetype, hver, hproto, hs, hd, htot, httlLoad, hsport, hdport, hcfg,
    hct, hdst, orErr_some, bind, Except.bind, pure, Except.pure, be16_be16, be32_be32, ne_eq,
    not_true_eq_false, if_false]
  rw [if_neg htest]

theorem nat64IngressPlan_of_ipv4 {maps : Maps} {cfg : Nat64Config} {ct : Nat64Value}
    (h : IsIpv4L4 f) (hcfg : maps.nat64Config = some cfg) (hdst : ipv4Dst f = cfg.nodeIpv4)
    (hct : maps.nat64Conntrack ⟨ipv4Protocol f, halfBe f 36, ipv4Src f, halfBe f 34⟩ = some ct) :
    nat64IngressPlan K maps f = .ok (.translate
      { srcRaw := be32 K (ipv4Src f)
        dstRaw := be32 K (ipv4Dst f)
        srcIpv6 := nat64Addr (ipv4Src f)
        dstIpv6 := ct.srcIpv6
        payloadLen := ipv4TotLen f - UInt16.ofNat IPV4_HDR_LEN
        protocol := ipv4Protocol f
        hopLimit := ipv4Ttl f }) :=
  nat64IngressPlan_of_loads K (h.loads K) h.protocol hcfg hdst hct

end Ipv4

/-! ## IPv6 packets -/

section Ipv6

variable (K : Kernel) {eth rest : List UInt8} (p : ToIpv6)

/-- A frame with the given header is a complete IPv6 packet between its addresses. -/
theorem isIpv6Packet_header (heth : eth.length = 14) (hetype : etherType eth = ETH_P_IPV6) :
    IsIpv6Packet (eth ++ (ipv6Header p ++ rest)) := by
  refine ⟨?_, ?_⟩
  · simp only [List.length_append, heth, length_ipv6Header]
    omega
  · rw [← etherType_take, List.take_left' heth, hetype]

theorem ipv6Src_header (heth : eth.length = 14) :
    ipv6Src (eth ++ (ipv6Header p ++ rest)) = p.srcIpv6 := by
  have hframe : eth ++ (ipv6Header p ++ rest) =
      (eth ++ ([0x60, 0, 0, 0] ++ (u16ToBe p.payloadLen ++ [p.protocol, p.hopLimit]))) ++
        (p.srcIpv6.octets ++ (p.dstIpv6.octets ++ rest)) := by
    simp [ipv6Header]
  have hpre : (eth ++ ([0x60, 0, 0, 0] ++ (u16ToBe p.payloadLen ++
      [p.protocol, p.hopLimit]))).length = IPV6_SRC_ADDR_OFF := by
    simp [heth, IPV6_SRC_ADDR_OFF, ETH_HDR_LEN]
  rw [ipv6Src, hframe, ← hpre]
  exact addrAt_append _ _ _

theorem ipv6Dst_header (heth : eth.length = 14) :
    ipv6Dst (eth ++ (ipv6Header p ++ rest)) = p.dstIpv6 := by
  have hframe : eth ++ (ipv6Header p ++ rest) =
      (eth ++ ([0x60, 0, 0, 0] ++ (u16ToBe p.payloadLen ++ (p.protocol :: p.hopLimit ::
        p.srcIpv6.octets)))) ++ (p.dstIpv6.octets ++ rest) := by
    simp [ipv6Header]
  have hpre : (eth ++ ([0x60, 0, 0, 0] ++ (u16ToBe p.payloadLen ++ (p.protocol :: p.hopLimit ::
      p.srcIpv6.octets)))).length = IPV6_DST_ADDR_OFF := by
    simp [heth, IPV6_DST_ADDR_OFF, ETH_HDR_LEN, p.srcIpv6.length_octets]
  rw [ipv6Dst, hframe, ← hpre]
  exact addrAt_append _ _ _

/-- The new IPv4 header, with its addresses in wire order. -/
theorem ipv4Header_eq (q : ToIpv4) {src dst : UInt32} (hsrc : q.srcRaw = be32 K src)
    (hdst : q.dstRaw = be32 K dst) :
    ipv4Header K q = [0x45, 0] ++ (u16ToBe q.totalLen ++ ([0, 0, 0x40, 0, q.hopLimit, q.nextHdr]
      ++ (u16ToBe q.hdrCsum ++ (u32ToBe src ++ u32ToBe dst)))) := by
  rw [ipv4Header, ipv4HeaderWith, hsrc, hdst, be32, be32, u32ToNe_swapToBe, u32ToNe_swapToBe]

/-- What `siit_out` settles on a packet to its pod. -/
theorem siitOutPlan_of_header {my : Globals} (heth : eth.length = 14)
    (hetype : etherType eth = ETH_P_IPV6) (hdst : p.dstIpv6 = my.myGhostIpv6)
    (hproto : p.protocol = IPPROTO_TCP ∨ p.protocol = IPPROTO_UDP) :
    siitOutPlan K my (eth ++ (ipv6Header p ++ rest)) = .ok (.translate
      { srcV6 := addrWords K p.srcIpv6
        dstV6 := addrWords K p.dstIpv6
        payloadLen := p.payloadLen
        nextHdr := p.protocol
        hopLimit := p.hopLimit
        srcIpv4 := be32 K (addrWords K p.srcIpv6).w₃
        dstIpv4 := my.myGuestIpv4
        srcRaw := (addrWords K p.srcIpv6).w₃
        dstRaw := be32 K my.myGuestIpv4 }) := by
  have hpacket : IsIpv6Packet (eth ++ (ipv6Header p ++ rest)) :=
    isIpv6Packet_header p heth hetype
  have hlen := hpacket.length
  obtain ⟨hload, -, -⟩ := hpacket.loads K
  have hsrc : loadWords K (eth ++ (ipv6Header p ++ rest)) IPV6_SRC_ADDR_OFF =
      .ok (addrWords K p.srcIpv6) := by
    rw [loadWords_eq K (by simp only [IPV6_SRC_ADDR_OFF, ETH_HDR_LEN]; omega), ← ipv6Src,
      ipv6Src_header p heth]
  have hdstWords : loadWords K (eth ++ (ipv6Header p ++ rest)) IPV6_DST_ADDR_OFF =
      .ok (addrWords K p.dstIpv6) := by
    rw [loadWords_eq K (by simp only [IPV6_DST_ADDR_OFF, ETH_HDR_LEN]; omega), ← ipv6Dst,
      ipv6Dst_header p heth]
  have hpayload : load16 K (eth ++ (ipv6Header p ++ rest)) (ETH_HDR_LEN + 4) =
      .ok (be16 K p.payloadLen) := by
    rw [load16, load16_append_right 4 (by rw [heth]; rfl)]
    refine congrArg _ ((load16_of_drop rfl).trans (congrArg some ?_))
    exact (u16OfNe_eq_swapToBe _ _ _ _).mpr (u16OfBe_bytes _)
  have hnext : load8 (eth ++ (ipv6Header p ++ rest)) (ETH_HDR_LEN + 6) = .ok p.protocol := by
    rw [load8, load8_append_right 6 (by rw [heth]; rfl)]
    rfl
  have hhop : load8 (eth ++ (ipv6Header p ++ rest)) (ETH_HDR_LEN + 7) = .ok p.hopLimit := by
    rw [load8, load8_append_right 7 (by rw [heth]; rfl)]
    rfl
  have htest : ¬ (p.protocol ≠ IPPROTO_TCP ∧ p.protocol ≠ IPPROTO_UDP) := by
    rintro ⟨htcp, hudp⟩
    exact hproto.elim htcp hudp
  simp only [siitOutPlan, hload, hsrc, hdstWords, hpayload, hnext, hhop, ← hdst, bind,
    Except.bind, pure, Except.pure, be16_be16, be32_be32, ne_eq, not_true_eq_false, if_false]
  rw [if_neg htest]

end Ipv6

end K3rs.Ebpf
