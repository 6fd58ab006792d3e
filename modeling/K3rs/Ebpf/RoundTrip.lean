import K3rs.Ebpf.Packets

/-!
# The SIIT round trip

A packet between two pods of a VPC is translated twice: `siit_in` of the sender makes it an
IPv6 packet between their Ghost addresses, `siit_out` of the receiver makes it an IPv4
packet again.  `siit_round_trip` says what comes back.

* The guest addresses survive because a Ghost address ends in the guest address, and the
  Ghost address `siit_in` computes for the destination is the receiver's own.
* The new header checksum is `ipv4_hdr_csum`, which `header_verifies` shows to be the
  checksum a receiver accepts.
* The L4 checksum goes through sixteen updates.  They add and take away the same words, so
  the result is congruent to the original one (`OnesComplement.update_modEq`); which of
  the two zeros it is remains open.

The frame between the two programs has its ethertype set by hand, since no program does.
-/

namespace K3rs.Ebpf

open Wire Net Effects OnesComplement

/-! ## The header checksum -/

/-- The sum `ipv4_hdr_csum` forms, without the checksum field. -/
def hdrSum (totalLen : UInt16) (ttl proto : UInt8) (src dst : UInt32) : ℕ :=
  0x4500 + totalLen.toNat + 0x4000 + (ttl.toNat * 256 + proto.toNat) + src.toNat / 65536 +
    src.toNat % 65536 + dst.toNat / 65536 + dst.toNat % 65536

theorem hdrSum_lt (totalLen : UInt16) (ttl proto : UInt8) (src dst : UInt32) :
    hdrSum totalLen ttl proto src dst < 2 ^ 20 := by
  have htl := totalLen.toNat_lt
  have httl := ttl.toNat_lt
  have hproto := proto.toNat_lt
  have hsrc := src.toNat_lt
  have hdst := dst.toNat_lt
  unfold hdrSum
  omega

theorem and_0xFFFF_toNat (x : UInt32) : (x &&& (0xFFFF : UInt32)).toNat = x.toNat % 65536 := by
  rw [UInt32.toNat_and, show UInt32.toNat 0xFFFF = 2 ^ 16 - 1 from rfl,
    Nat.and_two_pow_sub_one_eq_mod]

theorem shiftRight_16_toNat (x : UInt32) : (x >>> 16).toNat = x.toNat / 65536 := by
  rw [UInt32.toNat_shiftRight, show UInt32.toNat 16 % 32 = 16 from rfl, Nat.shiftRight_eq_div_pow]

/-- One fold of a 32-bit sum. -/
theorem fold_step_toNat (s : UInt32) :
    ((s &&& (0xFFFF : UInt32)) + s >>> 16).toNat = carry s.toNat := by
  have hs := s.toNat_lt
  rw [UInt32.toNat_add, and_0xFFFF_toNat, shiftRight_16_toNat, carry]
  omega

private theorem ttl_proto_toNat (ttl proto : UInt8) :
    (ttl.toUInt32 <<< 8 ||| proto.toUInt32).toNat = ttl.toNat * 256 + proto.toNat := by
  have httl := ttl.toNat_lt
  have hproto := proto.toNat_lt
  have hshift : ttl.toNat <<< (UInt32.toNat 8 % 32) % 2 ^ 32 = ttl.toNat <<< 8 := by
    rw [show UInt32.toNat 8 % 32 = 8 from rfl, Nat.shiftLeft_eq]
    omega
  rw [UInt32.toNat_or, UInt32.toNat_shiftLeft]
  simp only [UInt8.toNat_toUInt32]
  rw [hshift, ← Nat.shiftLeft_add_eq_or_of_lt (by omega), Nat.shiftLeft_eq]

/-- A sum of few enough words does not overflow. -/
private theorem sum_toNat {x y : UInt32} {n m : ℕ} (hx : x.toNat = n) (hy : y.toNat = m)
    (h : n + m < 2 ^ 32) : (x + y).toNat = n + m := by
  rw [UInt32.toNat_add, hx, hy, Nat.mod_eq_of_lt h]

/-- `ipv4_hdr_csum` never overflows: it is the complement of the folded sum. -/
theorem ipv4HdrCsum_toNat (totalLen : UInt16) (ttl proto : UInt8) (src dst : UInt32) :
    (ipv4HdrCsum totalLen ttl proto src dst).toNat =
      65535 - carry (carry (hdrSum totalLen ttl proto src dst)) := by
  have hlt := hdrSum_lt totalLen ttl proto src dst
  have hcarry : carry (carry (hdrSum totalLen ttl proto src dst)) < 65536 :=
    carry_carry_lt (by omega)
  have hsrc : (src >>> 16 &&& (0xFFFF : UInt32)).toNat = src.toNat / 65536 := by
    have := src.toNat_lt
    rw [and_0xFFFF_toNat, shiftRight_16_toNat]
    omega
  have hdst : (dst >>> 16 &&& (0xFFFF : UInt32)).toNat = dst.toNat / 65536 := by
    have := dst.toNat_lt
    rw [and_0xFFFF_toNat, shiftRight_16_toNat]
    omega
  unfold hdrSum at hlt
  have hsum : ((0x4500 : UInt32) + totalLen.toUInt32 + (0x4000 : UInt32) +
      (ttl.toUInt32 <<< 8 ||| proto.toUInt32) + (src >>> 16 &&& (0xFFFF : UInt32)) +
      (src &&& (0xFFFF : UInt32)) + (dst >>> 16 &&& (0xFFFF : UInt32)) +
      (dst &&& (0xFFFF : UInt32))).toNat = hdrSum totalLen ttl proto src dst := by
    refine sum_toNat (sum_toNat (sum_toNat (sum_toNat (sum_toNat (sum_toNat (sum_toNat rfl
      (UInt16.toNat_toUInt32 _) ?_) rfl ?_) (ttl_proto_toNat _ _) ?_) hsrc ?_)
      (and_0xFFFF_toNat _) ?_) hdst ?_) (and_0xFFFF_toNat _) ?_
    all_goals omega
  rw [ipv4HdrCsum, UInt16.toNat_not, UInt32.toNat_toUInt16, fold_step_toNat, fold_step_toNat, hsum,
    Nat.mod_eq_of_lt hcarry, show UInt16.size - 1 = 65535 from rfl]

private theorem u16ToBe_sum (x : UInt16) :
    (u16Byte x 0).toNat * 256 + (u16Byte x 1).toNat = x.toNat := by
  rw [← u16OfBe_toNat, u16OfBe_bytes]

private theorem u32ToBe_sum (x : UInt32) :
    (u32Byte x 0).toNat * 256 + (u32Byte x 1).toNat +
      ((u32Byte x 2).toNat * 256 + (u32Byte x 3).toNat) = x.toNat / 65536 + x.toNat % 65536 := by
  have h := u32OfBe_toNat (u32Byte x 0) (u32Byte x 1) (u32Byte x 2) (u32Byte x 3)
  rw [u32OfBe_bytes] at h
  have h₀ := (u32Byte x 0).toNat_lt
  have h₁ := (u32Byte x 1).toNat_lt
  have h₂ := (u32Byte x 2).toNat_lt
  have h₃ := (u32Byte x 3).toNat_lt
  omega

/-- What a receiver sums over the header. -/
theorem wordSum_header (totalLen csum : UInt16) (ttl proto : UInt8) (src dst : UInt32) :
    wordSum ([0x45, 0] ++ (u16ToBe totalLen ++ ([0, 0, 0x40, 0, ttl, proto] ++
      (u16ToBe csum ++ (u32ToBe src ++ u32ToBe dst))))) =
        hdrSum totalLen ttl proto src dst + csum.toNat := by
  have htl := u16ToBe_sum totalLen
  have hcsum := u16ToBe_sum csum
  have hsrc := u32ToBe_sum src
  have hdst := u32ToBe_sum dst
  simp only [u16ToBe, u32ToBe, List.cons_append, List.nil_append, wordSum, hdrSum,
    UInt8.reduceToNat]
  linarith

/-- **The new header verifies.** -/
theorem header_verifies (totalLen : UInt16) (ttl proto : UInt8) (src dst : UInt32) :
    fold (wordSum ([0x45, 0] ++ (u16ToBe totalLen ++ ([0, 0, 0x40, 0, ttl, proto] ++
      (u16ToBe (ipv4HdrCsum totalLen ttl proto src dst) ++ (u32ToBe src ++ u32ToBe dst)))))) =
        65535 := by
  have hlt := hdrSum_lt totalLen ttl proto src dst
  have hpos : 0 < hdrSum totalLen ttl proto src dst := by
    unfold hdrSum
    omega
  rw [wordSum_header, ipv4HdrCsum_toNat]
  generalize hdrSum totalLen ttl proto src dst = s at hlt hpos ⊢
  have hmod : carry (carry s) ≡ s [MOD 65535] := (carry_modEq _).trans (carry_modEq _)
  have hcarry : carry (carry s) < 65536 := carry_carry_lt (by omega)
  refine fold_eq_of_modEq_zero (by omega) (by omega) ?_
  unfold Nat.ModEq at hmod ⊢
  omega

/-! ## Two pods of one VPC -/

/-- The globals of a pod, as the enforcer sets them from its allocation. -/
structure Globals.OfPod (my : Globals) : Prop where
  ghost : my.myGhostIpv6 =
    construct my.myPlatformPrefix my.myClusterId my.myVpcId ⟨my.myGuestIpv4⟩
  network : my.myVpcNetwork ≠ 0
  inside : my.myGuestIpv4 &&& my.myVpcMask = my.myVpcNetwork &&& my.myVpcMask

/-- Two pods of one cluster in one VPC. -/
structure SameVpc (a b : Globals) : Prop where
  platformPrefix : a.myPlatformPrefix = b.myPlatformPrefix
  clusterId : a.myClusterId = b.myClusterId
  vpcId : a.myVpcId = b.myVpcId
  network : a.myVpcNetwork = b.myVpcNetwork
  mask : a.myVpcMask = b.myVpcMask

/-- A packet from one pod to another. -/
structure PodPacket (a b : Globals) (f : Frame) : Prop extends IsIpv4L4 f where
  src : ipv4Src f = a.myGuestIpv4
  dst : ipv4Dst f = b.myGuestIpv4
  ttl : 1 < ipv4Ttl f
  totLen : 20 ≤ ipv4TotLen f

/-- Where the L4 checksum of an IPv4 packet stands in the frame. -/
def ipv4CsumAt (f : Frame) : ℕ := 34 + l4CsumOff (ipv4Protocol f)

/-- What the round trip makes of a frame. -/
structure RoundTripped (f f' : Frame) : Prop where
  length : f'.length = f.length
  verIhl : f'.getD 14 0 = 0x45
  totLen : ipv4TotLen f' = ipv4TotLen f
  ttl : ipv4Ttl f' = ipv4Ttl f - 1
  protocol : ipv4Protocol f' = ipv4Protocol f
  src : ipv4Src f' = ipv4Src f
  dst : ipv4Dst f' = ipv4Dst f
  header : fold (wordSum ((f'.drop 14).take 20)) = 65535
  l4 : ∀ i, 34 ≤ i → i ≠ ipv4CsumAt f → i ≠ ipv4CsumAt f + 1 → f'[i]? = f[i]?
  csum : (halfBe f' (ipv4CsumAt f)).toNat ≡ (halfBe f (ipv4CsumAt f)).toNat [MOD 65535]

/-- The hand that sets the ethertype. -/
def setEtherType (proto : UInt16) (f : Frame) : Frame := splice f 12 (u16ToBe proto)

/-- A Ghost address ends in the guest address. -/
theorem addrWords_construct (K : Kernel) (p c : UInt32) (v : UInt16) (ip : Ipv4Addr) :
    (addrWords K (construct p c v ip)).w₃ = be32 K ip.bits :=
  (u32OfNe_eq_swapToBe _ _ _ _ _ _).mpr (u32OfBe_bytes _)

/-- The address `siit_in` computes for a pod of the same VPC is the one that pod has. -/
theorem resolveDst_same_vpc {a b : Globals} (ha : a.OfPod) (hb : b.OfPod) (hab : SameVpc a b) :
    resolveDst a b.myGuestIpv4 = b.myGhostIpv6 := by
  have hinside : b.myGuestIpv4 &&& a.myVpcMask = a.myVpcNetwork &&& a.myVpcMask := by
    rw [hab.mask, hab.network]
    exact hb.inside
  rw [resolveDst, if_pos ⟨ha.network, hinside⟩, hb.ghost, hab.platformPrefix, hab.clusterId,
    hab.vpcId]
  exact constructGhostIpv6_eq _ _ _ ⟨b.myGuestIpv4⟩

/-! ## Raw and wire order -/

/-- A congruence of raw words is one of wire words, in either byte order. -/
theorem halfBe_modEq_of_rawCsum {e : Endian} {f f' : Frame} {off off' : ℕ}
    (h : (rawCsum e f off).toNat ≡ (rawCsum e f' off').toNat [MOD 65535]) :
    (halfBe f off).toNat ≡ (halfBe f' off').toNat [MOD 65535] := by
  cases e with
  | big => exact h
  | little =>
      simp only [rawCsum, u16OfNe, u16OfBe_toNat] at h
      rw [halfBe, halfBe, u16OfBe_toNat, u16OfBe_toNat]
      exact ((swap_modEq _ _).trans (h.mul_left 256)).trans (swap_modEq _ _).symm

/-! ## The frame that comes back -/

section Result

variable {e : Endian} {f eth : List UInt8} {c : UInt16}

/-- The IPv4 header that comes back. -/
def returnedHeader (f : Frame) : List UInt8 :=
  [0x45, 0] ++ (u16ToBe (ipv4TotLen f) ++ ([0, 0, 0x40, 0, ipv4Ttl f - 1, ipv4Protocol f] ++
    (u16ToBe (ipv4HdrCsum (ipv4TotLen f) (ipv4Ttl f - 1) (ipv4Protocol f) (ipv4Src f)
      (ipv4Dst f)) ++ (u32ToBe (ipv4Src f) ++ u32ToBe (ipv4Dst f)))))

/-- The frame that comes back: any Ethernet header, the new IPv4 header, the old L4 bytes
with a new checksum. -/
def returned (e : Endian) (eth f : List UInt8) (c : UInt16) : Frame :=
  eth ++ (returnedHeader f ++
    splice (f.drop 34) (l4CsumOff (ipv4Protocol f)) (u16ToNe e c))

theorem length_returnedHeader (f : Frame) : (returnedHeader f).length = 20 := rfl

theorem roundTripped_returned (heth : eth.length = 14) (h : IsIpv4L4 f)
    (hc : c.toNat ≡ (rawCsum e f (ipv4CsumAt f)).toNat [MOD 65535]) :
    RoundTripped f (returned e eth f c) := by
  have hlen := h.length
  have hcsum := l4CsumOff_lt_hdrLen (ipv4Protocol f)
  have hdrop : l4CsumOff (ipv4Protocol f) + (u16ToNe e c).length ≤ (f.drop 34).length := by
    rw [length_u16ToNe, List.length_drop]
    omega
  have hfront : (eth ++ returnedHeader f).length = 34 := by
    rw [List.length_append, heth, length_returnedHeader]
  have hsplit : returned e eth f c = (eth ++ returnedHeader f) ++
      splice (f.drop 34) (l4CsumOff (ipv4Protocol f)) (u16ToNe e c) := by
    rw [returned, List.append_assoc]
  refine ⟨?_, ?_, ?_, ?_, ?_, ?_, ?_, ?_, ?_, ?_⟩
  · rw [hsplit, List.length_append, hfront, length_splice hdrop, List.length_drop]
    omega
  · exact getD_behind heth 0 rfl
  · exact (halfBe_behind heth 2 rfl).trans (u16OfBe_bytes _)
  · exact getD_behind heth 8 rfl
  · exact getD_behind heth 9 rfl
  · exact (wordBe_behind heth 12 rfl).trans (u32OfBe_bytes _)
  · exact (wordBe_behind heth 16 rfl).trans (u32OfBe_bytes _)
  · rw [returned, List.drop_left' heth, List.take_left' (length_returnedHeader f)]
    exact header_verifies _ _ _ _ _
  · intro i hi hne hne'
    rw [ipv4CsumAt] at hne hne'
    rw [hsplit, List.getElem?_append_right (by omega), hfront,
      getElem?_splice_of_outside hdrop (by rw [length_u16ToNe]; omega), List.getElem?_drop]
    congr 1
    omega
  · refine halfBe_modEq_of_rawCsum (e := e) ?_
    rw [hsplit, rawCsum_append_right (l4CsumOff (ipv4Protocol f)) (by rw [hfront]; rfl),
      rawCsum_splice c (by rwa [length_u16ToNe] at hdrop)]
    exact hc

end Result

/-! ## There and back -/

section Trip

variable (K : Kernel) {a b : Globals} {f : Frame}

/-- What `siit_in` of the sender settles. -/
def therePlan (a b : Globals) (f : Frame) : ToIpv6 where
  srcRaw := be32 K (ipv4Src f)
  dstRaw := be32 K (ipv4Dst f)
  srcIpv6 := a.myGhostIpv6
  dstIpv6 := b.myGhostIpv6
  payloadLen := ipv4TotLen f - UInt16.ofNat IPV4_HDR_LEN
  protocol := ipv4Protocol f
  hopLimit := ipv4Ttl f - 1

/-- What `siit_out` of the receiver settles. -/
def backPlan (a b : Globals) (f : Frame) : ToIpv4 where
  srcV6 := addrWords K a.myGhostIpv6
  dstV6 := addrWords K b.myGhostIpv6
  payloadLen := ipv4TotLen f - UInt16.ofNat IPV4_HDR_LEN
  nextHdr := ipv4Protocol f
  hopLimit := ipv4Ttl f - 1
  srcIpv4 := ipv4Src f
  dstIpv4 := ipv4Dst f
  srcRaw := be32 K (ipv4Src f)
  dstRaw := be32 K (ipv4Dst f)

theorem siitInPlan_podPacket (ha : a.OfPod) (hb : b.OfPod) (hab : SameVpc a b)
    (h : PodPacket a b f) : siitInPlan K a f = .ok (.translate (therePlan K a b f)) := by
  rw [siitInPlan_of_ipv4 K h.toIsIpv4L4 h.src (UInt8.not_le.mpr h.ttl), h.dst,
    resolveDst_same_vpc ha hb hab, therePlan, h.dst]

theorem siitOutPlan_podPacket (ha : a.OfPod) (h : PodPacket a b f) {eth rest : List UInt8}
    (heth : eth.length = 14) (hetype : etherType eth = ETH_P_IPV6) :
    siitOutPlan K b (eth ++ (ipv6Header (therePlan K a b f) ++ rest)) =
      .ok (.translate (backPlan K a b f)) := by
  have hsrc : (addrWords K a.myGhostIpv6).w₃ = be32 K (ipv4Src f) := by
    rw [ha.ghost, addrWords_construct, h.src]
  rw [siitOutPlan_of_header K _ heth hetype rfl h.protocol]
  simp only [therePlan, backPlan, hsrc, be32_be32, ← h.dst]

theorem ipv4Header_backPlan (a b : Globals) (f : Frame) :
    ipv4Header K (backPlan K a b f) = returnedHeader f := by
  have htot : (backPlan K a b f).totalLen = ipv4TotLen f :=
    UInt16.sub_add_cancel (ipv4TotLen f) (UInt16.ofNat IPV4_HDR_LEN)
  rw [ipv4Header_eq K _ rfl rfl, ToIpv4.hdrCsum, htot]
  rfl

theorem rawCsum_drop {e : Endian} {off : ℕ} (k : ℕ) (hk : k ≤ f.length) :
    rawCsum e (f.drop k) off = rawCsum e f (k + off) := by
  have htake : (f.take k).length = k := by
    rw [List.length_take]
    omega
  conv_rhs => rw [← List.take_append_drop k f]
  exact (rawCsum_append_right off (by rw [htake])).symm

theorem siitIn_eq_of_plan {my : Globals} {maps : Maps} {p : ToIpv6} {ctx : TcContext}
    (hplan : siitInPlan K my f = .ok (.translate p))
    (hexec : exec (toIpv6 K p) ⟨f, maps⟩ = (.ok (), ctx)) :
    siitIn K my ⟨f, maps⟩ = (.ok, ctx) := by
  rw [siitIn, classify, trySiitIn, exec_translator_translate hplan, exec_bind_ok hexec]
  rfl

theorem siitOut_eq_of_plan {my : Globals} {maps : Maps} {p : ToIpv4} {ctx : TcContext}
    (hplan : siitOutPlan K my f = .ok (.translate p))
    (hexec : exec (toIpv4 K p) ⟨f, maps⟩ = (.ok (), ctx)) :
    siitOut K my ⟨f, maps⟩ = (.ok, ctx) := by
  rw [siitOut, classify, trySiitOut, exec_translator_translate hplan, exec_bind_ok hexec]
  rfl

/-- Setting the ethertype replaces the end of the Ethernet header. -/
theorem setEtherType_eq (proto : UInt16) {rest : List UInt8} (hlen : 14 ≤ f.length) :
    setEtherType proto (f.take 14 ++ rest) = (f.take 12 ++ u16ToBe proto) ++ rest := by
  have htake : (f.take 12).length = 12 := by
    rw [List.length_take]
    omega
  have hsplit : f.take 14 = f.take 12 ++ (f.drop 12).take 2 := by
    rw [show 14 = 12 + 2 from rfl, List.take_add]
  have hold : ((f.drop 12).take 2).length = (u16ToBe proto).length := by
    rw [List.length_take, List.length_drop, length_u16ToBe]
    omega
  rw [setEtherType, hsplit, List.append_assoc, splice_append htake.symm hold, List.append_assoc]

theorem etherType_append {pre : List UInt8} (hpre : pre.length = 12) (proto : UInt16) :
    etherType (pre ++ u16ToBe proto) = proto := by
  have h : ∀ i, (pre ++ u16ToBe proto).getD (12 + i) 0 = (u16ToBe proto).getD i 0 := by
    intro i
    rw [List.getD_eq_getElem?_getD, List.getD_eq_getElem?_getD,
      List.getElem?_append_right (by omega), hpre, Nat.add_sub_cancel_left]
  rw [etherType, h 0, h 1]
  exact u16OfBe_bytes proto

end Trip

/-- **The SIIT round trip.**  Both programs accept every packet between two pods of a VPC,
and what the receiver gets is the packet the sender sent, one hop older. -/
theorem siit_round_trip (K : Kernel) (hL3 : K.ResizesL3) (hL4 : K.UpdatesL4Csum)
    (a b : Globals) (ha : a.OfPod) (hb : b.OfPod) (hab : SameVpc a b) (maps maps' : Maps)
    (f : Frame) (h : PodPacket a b f) :
    ∃ f₁ f₂, siitIn K a ⟨f, maps⟩ = (.ok, ⟨f₁, maps⟩) ∧
      siitOut K b ⟨setEtherType ETH_P_IPV6 f₁, maps'⟩ = (.ok, ⟨f₂, maps'⟩) ∧
        RoundTripped f f₂ := by
  have hlen := h.length
  have hrel := l4CsumOff_lt_hdrLen (ipv4Protocol f)
  have hcsum : l4CsumOff (ipv4Protocol f) + 2 ≤ (f.drop 34).length := by
    rw [List.length_drop]
    omega
  have htake : (f.take 12).length = 12 := by
    rw [List.length_take]
    omega
  have heth : (f.take 12 ++ u16ToBe ETH_P_IPV6).length = 14 := by
    rw [List.length_append, htake, length_u16ToBe]
  -- there: the L4 checksum becomes `c`
  obtain ⟨c, hthere, hc⟩ := toIpv6_exec hL3 hL4 (therePlan K a b f) maps
    (show 34 + l4CsumOff (ipv4Protocol f) + 2 ≤ f.length by omega)
  set l4 := splice (f.drop 34) (l4CsumOff (ipv4Protocol f)) (u16ToNe K.endian c) with hl4
  have hl4len : l4.length = (f.drop 34).length := length_splice (by rwa [length_u16ToNe])
  -- and back: it becomes `c'`
  set g := (f.take 12 ++ u16ToBe ETH_P_IPV6) ++ (ipv6Header (therePlan K a b f) ++ l4) with hg
  have hglen : 54 + l4CsumOff (ipv4Protocol f) + 2 ≤ g.length := by
    rw [hg, List.length_append, heth, List.length_append, length_ipv6Header, hl4len]
    omega
  have hgtake : g.take 14 = f.take 12 ++ u16ToBe ETH_P_IPV6 := List.take_left' heth
  have hgdrop : g.drop 54 = l4 := by
    rw [hg, ← List.append_assoc]
    exact List.drop_left' (by rw [List.length_append, heth, length_ipv6Header])
  obtain ⟨c', hback, hc'⟩ := toIpv4_exec hL3 hL4 (backPlan K a b f) maps' hglen
  have hframe : g.take 14 ++ (ipv4Header K (backPlan K a b f) ++ splice (g.drop 54)
      (l4CsumOff (ipv4Protocol f)) (u16ToNe K.endian c')) =
        returned K.endian (f.take 12 ++ u16ToBe ETH_P_IPV6) f c' := by
    rw [hgtake, ipv4Header_backPlan, hgdrop, hl4,
      splice_splice_self (by simp) (by rwa [length_u16ToNe]), returned]
  have hraw : rawCsum K.endian (g.drop 54) (l4CsumOff (ipv4Protocol f)) = c := by
    rw [hgdrop, hl4, rawCsum_splice c hcsum]
  refine ⟨_, returned K.endian (f.take 12 ++ u16ToBe ETH_P_IPV6) f c',
    siitIn_eq_of_plan K (siitInPlan_podPacket K ha hb hab h) hthere, ?_, ?_⟩
  · rw [setEtherType_eq _ (by omega), ← hframe]
    exact siitOut_eq_of_plan K
      (siitOutPlan_podPacket K ha h heth (etherType_append htake _)) hback
  · refine roundTripped_returned heth h.toIsIpv4L4 ?_
    -- the words taken away on the way there are added on the way back
    have hsame : c'.toNat + ((be32 K (ipv4Src f)).toNat + (be32 K (ipv4Dst f)).toNat) ≡
        (rawCsum K.endian (f.drop 34) (l4CsumOff (ipv4Protocol f))).toNat +
          ((be32 K (ipv4Src f)).toNat + (be32 K (ipv4Dst f)).toNat) [MOD 65535] :=
      (hraw ▸ hc').trans hc
    rw [ipv4CsumAt, ← rawCsum_drop 34 (by omega)]
    exact Nat.ModEq.add_right_cancel' _ hsame

theorem ofPod_podGlobals (vpc : UInt16) (ip : Ipv4Addr)
    (hinside : ip.bits &&& 0xffffff00 = 0x0a000000) : (podGlobals vpc ip).OfPod where
  ghost := rfl
  network := by
    show (0x0a000000 : UInt32) ≠ 0
    decide
  inside := by
    show ip.bits &&& 0xffffff00 = 0x0a000000 &&& 0xffffff00
    rw [hinside]
    decide

theorem podPacket_udpFrame :
    PodPacket (podGlobals 5 (.ofOctets 10 0 0 1)) (podGlobals 5 (.ofOctets 10 0 0 2)) udpFrame where
  etherType := by decide
  verIhl := by decide
  protocol := Or.inr (by decide)
  length := by decide
  src := by decide
  dst := by decide
  ttl := by decide
  totLen := by decide

/-- The round trip of a datagram from 10.0.0.1 to 10.0.0.2. -/
theorem siit_round_trip_udpFrame :
    ∃ f₁ f₂, siitIn (.linux .little) (podGlobals 5 (.ofOctets 10 0 0 1)) ⟨udpFrame, {}⟩ =
        (.ok, ⟨f₁, {}⟩) ∧
      siitOut (.linux .little) (podGlobals 5 (.ofOctets 10 0 0 2))
          ⟨setEtherType ETH_P_IPV6 f₁, {}⟩ = (.ok, ⟨f₂, {}⟩) ∧
        RoundTripped udpFrame f₂ :=
  siit_round_trip _ (Kernel.linux_resizesL3 _) (Kernel.linux_updatesL4Csum _) _ _
    (ofPod_podGlobals 5 (.ofOctets 10 0 0 1) (by decide))
    (ofPod_podGlobals 5 (.ofOctets 10 0 0 2) (by decide)) ⟨rfl, rfl, rfl, rfl, rfl⟩ {} {} _
    podPacket_udpFrame

end K3rs.Ebpf
