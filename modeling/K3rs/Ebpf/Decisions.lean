import K3rs.Ebpf.Nat64

/-!
# Which frames are translated

Each translator first decides, and only a decision to translate touches the frame.  For each of
the four programs this module names the frames it decides to translate, as a condition on header
fields, globals and maps: `FromPod`, `ToPod`, `IsNat64Outbound`, `Tracked`.  The conditions are
exact (`siitInPlan_iff` and its siblings).

The length asked for is that of the last load of the program: two bytes of the L4 header for
`siit_in`, four for the NAT64 programs, none for `siit_out`.
-/

namespace K3rs.Ebpf

open Wire Net Effects

/-! ## To IPv6 -/

/-- The frames `siit_in` of a pod decides to translate. -/
structure FromPod (my : Globals) (f : Frame) : Prop where
  length : 36 ≤ f.length
  etherType : etherType f = ETH_P_IP
  verIhl : f.getD 14 0 = 0x45
  protocol : ipv4Protocol f = IPPROTO_TCP ∨ ipv4Protocol f = IPPROTO_UDP
  src : ipv4Src f = my.myGuestIpv4
  ttl : 1 < ipv4Ttl f

/-- The conntrack key of an inbound packet, ports swapped. -/
def replyKey (f : Frame) : Nat64Key where
  protocol := ipv4Protocol f
  srcPort := halfBe f 36
  dstIpv4 := ipv4Src f
  dstPort := halfBe f 34

/-- The frames `nat64_ingress` decides to translate. -/
structure Tracked (maps : Maps) (f : Frame) : Prop where
  length : 38 ≤ f.length
  etherType : etherType f = ETH_P_IP
  verIhl : f.getD 14 0 = 0x45
  protocol : ipv4Protocol f = IPPROTO_TCP ∨ ipv4Protocol f = IPPROTO_UDP
  dst : ∃ cfg, maps.nat64Config = some cfg ∧ ipv4Dst f = cfg.nodeIpv4
  flow : ∃ ct, maps.nat64Conntrack (replyKey f) = some ct

instance decidableFromPod (my : Globals) (f : Frame) : Decidable (FromPod my f) :=
  decidable_of_iff (36 ≤ f.length ∧ etherType f = ETH_P_IP ∧ f.getD 14 0 = 0x45 ∧
      (ipv4Protocol f = IPPROTO_TCP ∨ ipv4Protocol f = IPPROTO_UDP) ∧
      ipv4Src f = my.myGuestIpv4 ∧ 1 < ipv4Ttl f)
    ⟨fun ⟨h₁, h₂, h₃, h₄, h₅, h₆⟩ => ⟨h₁, h₂, h₃, h₄, h₅, h₆⟩,
      fun ⟨h₁, h₂, h₃, h₄, h₅, h₆⟩ => ⟨h₁, h₂, h₃, h₄, h₅, h₆⟩⟩

/-- What `siit_in` settles on a frame of its pod. -/
def fromPodPlan (K : Kernel) (my : Globals) (f : Frame) : ToIpv6 where
  srcRaw := be32 K (ipv4Src f)
  dstRaw := be32 K (ipv4Dst f)
  srcIpv6 := my.myGhostIpv6
  dstIpv6 := resolveDst my (ipv4Dst f)
  payloadLen := ipv4TotLen f - UInt16.ofNat IPV4_HDR_LEN
  protocol := ipv4Protocol f
  hopLimit := ipv4Ttl f - 1

/-- What `nat64_ingress` settles on a frame of a tracked flow. -/
def trackedPlan (K : Kernel) (ct : Nat64Value) (f : Frame) : ToIpv6 where
  srcRaw := be32 K (ipv4Src f)
  dstRaw := be32 K (ipv4Dst f)
  srcIpv6 := nat64Addr (ipv4Src f)
  dstIpv6 := ct.srcIpv6
  payloadLen := ipv4TotLen f - UInt16.ofNat IPV4_HDR_LEN
  protocol := ipv4Protocol f
  hopLimit := ipv4Ttl f

section Loads

variable {K : Kernel} {f : Frame} {off : ℕ}

theorem le_length_of_load16 {x : UInt16} (h : load16 K f off = .ok x) : off + 2 ≤ f.length := by
  by_contra hshort
  rw [load16, load16_eq_none (by omega)] at h
  cases h

theorem le_length_of_loadWords {w : AddrWords} (h : loadWords K f off = .ok w) :
    off + 16 ≤ f.length := by
  obtain ⟨w₀, -, h⟩ := bind_eq_ok h
  obtain ⟨w₁, -, h⟩ := bind_eq_ok h
  obtain ⟨w₂, -, h⟩ := bind_eq_ok h
  obtain ⟨w₃, hlast, -⟩ := bind_eq_ok h
  by_contra hshort
  rw [load32, load32_eq_none (by omega)] at hlast
  cases hlast

theorem orErr_eq_ok {α : Type} {o : Option α} {a : α} : orErr o = .ok a ↔ o = some a := by
  cases o with
  | none => exact ⟨fun h => (by cases h), fun h => (by cases h)⟩
  | some b => rw [orErr_some, Except.ok.injEq, Option.some_inj]

/-- The protocol test, passed. -/
theorem protocol_of_not {protocol : UInt8}
    (h : ¬ (protocol ≠ IPPROTO_TCP ∧ protocol ≠ IPPROTO_UDP)) :
    protocol = IPPROTO_TCP ∨ protocol = IPPROTO_UDP := by
  by_contra hne
  exact h (not_or.mp hne)

theorem protocol_not {protocol : UInt8} (h : protocol = IPPROTO_TCP ∨ protocol = IPPROTO_UDP) :
    ¬ (protocol ≠ IPPROTO_TCP ∧ protocol ≠ IPPROTO_UDP) := by
  rintro ⟨htcp, hudp⟩
  exact h.elim htcp hudp

end Loads

section Ipv4

variable {K : Kernel} {f : Frame} {my : Globals} {maps : Maps} {p : ToIpv6}

theorem siitInPlan_of_fromPod (h : FromPod my f) :
    siitInPlan K my f = .ok (.translate (fromPodPlan K my f)) := by
  have hlen := h.length
  obtain ⟨w, hload, hw⟩ := load16_etherType K (f := f) (by omega)
  have hetype : load16 K f 12 = .ok (be16 K ETH_P_IP) := by
    rw [hload, (hw ETH_P_IP).mpr h.etherType]
  have hver : load8 f ETH_HDR_LEN = .ok 0x45 := by
    rw [ETH_HDR_LEN, load8_eq (by omega), h.verIhl]
  have htot : load16 K f (ETH_HDR_LEN + 2) = .ok (be16 K (ipv4TotLen f)) :=
    load16_halfBe K (by simp only [ETH_HDR_LEN]; omega)
  have httl : load8 f (ETH_HDR_LEN + 8) = .ok (ipv4Ttl f) :=
    load8_eq (by simp only [ETH_HDR_LEN]; omega)
  have hproto : load8 f (ETH_HDR_LEN + 9) = .ok (ipv4Protocol f) :=
    load8_eq (by simp only [ETH_HDR_LEN]; omega)
  have hsrc : load32 K f (ETH_HDR_LEN + 12) = .ok (be32 K (ipv4Src f)) :=
    load32_wordBe K (by simp only [ETH_HDR_LEN]; omega)
  have hdst : load32 K f (ETH_HDR_LEN + 16) = .ok (be32 K (ipv4Dst f)) :=
    load32_wordBe K (by simp only [ETH_HDR_LEN]; omega)
  have hsport : load16 K f (ETH_HDR_LEN + IPV4_HDR_LEN) = .ok (be16 K (halfBe f 34)) :=
    load16_halfBe K (by simp only [ETH_HDR_LEN, IPV4_HDR_LEN]; omega)
  simp only [siitInPlan, hetype, hver, hproto, hsrc, hdst, htot, httl, hsport, bind, Except.bind,
    pure, Except.pure, be16_be16, be32_be32, h.src, ne_eq, not_true_eq_false, if_false]
  rw [if_neg (protocol_not h.protocol), if_neg (UInt8.not_le.mpr h.ttl), fromPodPlan, h.src]

/-- **What `siit_in` translates.** -/
theorem siitInPlan_iff :
    siitInPlan K my f = .ok (.translate p) ↔ FromPod my f ∧ p = fromPodPlan K my f := by
  constructor
  · intro hplan
    have hfrom : FromPod my f := by
      have hetype : etherType f = ETH_P_IP := (siitInPlan_serves my).etherType_eq hplan
      obtain ⟨etype, -, h⟩ := bind_eq_ok hplan
      obtain ⟨-, h⟩ := test_passed h
      obtain ⟨verIhl, hver, h⟩ := bind_eq_ok h
      obtain ⟨tver, h⟩ := test_passed h
      obtain ⟨protocol, hproto, h⟩ := bind_eq_ok h
      obtain ⟨tproto, h⟩ := test_passed h
      obtain ⟨srcRaw, hsrc, h⟩ := bind_eq_ok h
      obtain ⟨dstRaw, -, h⟩ := bind_eq_ok h
      obtain ⟨tsrc, h⟩ := test_passed h
      obtain ⟨totLen, -, h⟩ := bind_eq_ok h
      obtain ⟨ttl, httl, h⟩ := bind_eq_ok h
      obtain ⟨tttl, h⟩ := test_passed h
      obtain ⟨sport, hsport, -⟩ := bind_eq_ok h
      -- the last load bounds the frame, so the others are known
      have hlen : 36 ≤ f.length := le_length_of_load16 hsport
      rw [ETH_HDR_LEN, load8_eq (by omega)] at hver
      rw [ETH_HDR_LEN, load8_eq (by omega)] at hproto
      rw [ETH_HDR_LEN, load32_wordBe K (by omega)] at hsrc
      rw [ETH_HDR_LEN, load8_eq (by omega)] at httl
      cases hver
      cases hproto
      cases hsrc
      cases httl
      rw [be32_be32] at tsrc
      exact ⟨hlen, hetype, not_not.mp tver, protocol_of_not tproto, not_not.mp tsrc,
        UInt8.not_le.mp tttl⟩
    rw [siitInPlan_of_fromPod hfrom] at hplan
    cases hplan
    exact ⟨hfrom, rfl⟩
  · rintro ⟨hfrom, rfl⟩
    exact siitInPlan_of_fromPod hfrom

/-- **What `nat64_ingress` translates.** -/
theorem nat64IngressPlan_iff :
    nat64IngressPlan K maps f = .ok (.translate p) ↔
      Tracked maps f ∧ ∃ ct, maps.nat64Conntrack (replyKey f) = some ct ∧
        p = trackedPlan K ct f := by
  constructor
  · intro hplan
    have htracked : Tracked maps f := by
      have hetype : etherType f = ETH_P_IP := (nat64IngressPlan_serves maps).etherType_eq hplan
      obtain ⟨etype, -, h⟩ := bind_eq_ok hplan
      obtain ⟨-, h⟩ := test_passed h
      obtain ⟨verIhl, hver, h⟩ := bind_eq_ok h
      obtain ⟨tver, h⟩ := test_passed h
      obtain ⟨protocol, hproto, h⟩ := bind_eq_ok h
      obtain ⟨tproto, h⟩ := test_passed h
      obtain ⟨srcRaw, hsrc, h⟩ := bind_eq_ok h
      obtain ⟨dstRaw, hdst, h⟩ := bind_eq_ok h
      obtain ⟨cfg, hcfg, h⟩ := bind_eq_ok h
      obtain ⟨tdst, h⟩ := test_passed h
      obtain ⟨sport, hsport, h⟩ := bind_eq_ok h
      obtain ⟨dport, hdport, h⟩ := bind_eq_ok h
      obtain ⟨ct, hct, -⟩ := bind_eq_ok h
      have hlen : 38 ≤ f.length := le_length_of_load16 hdport
      rw [ETH_HDR_LEN, load8_eq (by omega)] at hver
      rw [ETH_HDR_LEN, load8_eq (by omega)] at hproto
      rw [ETH_HDR_LEN, load32_wordBe K (by omega)] at hsrc
      rw [ETH_HDR_LEN, load32_wordBe K (by omega)] at hdst
      rw [ETH_HDR_LEN, IPV4_HDR_LEN, load16_halfBe K (by omega)] at hsport
      rw [ETH_HDR_LEN, IPV4_HDR_LEN, load16_halfBe K (by omega)] at hdport
      cases hver
      cases hproto
      cases hsrc
      cases hdst
      cases hsport
      cases hdport
      rw [be32_be32] at tdst
      rw [be16_be16, be16_be16, be32_be32] at hct
      exact ⟨hlen, hetype, not_not.mp tver, protocol_of_not tproto,
        ⟨cfg, orErr_eq_ok.mp hcfg, not_not.mp tdst⟩, ⟨ct, orErr_eq_ok.mp hct⟩⟩
    obtain ⟨cfg, hcfg, hdst⟩ := htracked.dst
    obtain ⟨ct, hct⟩ := htracked.flow
    rw [nat64IngressPlan_of_loads K (ipv4Loads K htracked.length htracked.etherType htracked.verIhl)
      htracked.protocol hcfg hdst hct] at hplan
    cases hplan
    exact ⟨htracked, ct, hct, rfl⟩
  · rintro ⟨htracked, ct, hct, rfl⟩
    obtain ⟨cfg, hcfg, hdst⟩ := htracked.dst
    exact nat64IngressPlan_of_loads K
      (ipv4Loads K htracked.length htracked.etherType htracked.verIhl) htracked.protocol hcfg hdst
      hct

end Ipv4

/-! ## To IPv4 -/

/-- The frames `siit_out` of a pod decides to translate. -/
structure ToPod (my : Globals) (f : Frame) : Prop extends IsIpv6Packet f where
  dst : ipv6Dst f = my.myGhostIpv6
  protocol : f.getD 20 0 = IPPROTO_TCP ∨ f.getD 20 0 = IPPROTO_UDP

/-- What `siit_out` settles on a frame to its pod. -/
def toPodPlan (K : Kernel) (my : Globals) (f : Frame) : ToIpv4 where
  srcV6 := addrWords K (ipv6Src f)
  dstV6 := addrWords K (ipv6Dst f)
  payloadLen := halfBe f 18
  nextHdr := f.getD 20 0
  hopLimit := f.getD 21 0
  srcIpv4 := wordBe f 34
  dstIpv4 := my.myGuestIpv4
  srcRaw := be32 K (wordBe f 34)
  dstRaw := be32 K my.myGuestIpv4

section Ipv6

variable {K : Kernel} {f : Frame} {my : Globals} {maps : Maps}

theorem siitOutPlan_of_toPod (h : ToPod my f) :
    siitOutPlan K my f = .ok (.translate (toPodPlan K my f)) := by
  have hlen := h.length
  obtain ⟨hetype, -, -⟩ := h.toIsIpv6Packet.loads K
  have hsrc : loadWords K f IPV6_SRC_ADDR_OFF = .ok (addrWords K (ipv6Src f)) :=
    loadWords_eq K (by simp only [IPV6_SRC_ADDR_OFF, ETH_HDR_LEN]; omega)
  have hdst : loadWords K f IPV6_DST_ADDR_OFF = .ok (addrWords K (ipv6Dst f)) :=
    loadWords_eq K (by simp only [IPV6_DST_ADDR_OFF, ETH_HDR_LEN]; omega)
  have hpayload : load16 K f (ETH_HDR_LEN + 4) = .ok (be16 K (halfBe f 18)) :=
    load16_halfBe K (by simp only [ETH_HDR_LEN]; omega)
  have hnext : load8 f (ETH_HDR_LEN + 6) = .ok (f.getD 20 0) :=
    load8_eq (by simp only [ETH_HDR_LEN]; omega)
  have hhop : load8 f (ETH_HDR_LEN + 7) = .ok (f.getD 21 0) :=
    load8_eq (by simp only [ETH_HDR_LEN]; omega)
  have hlast : (addrWords K (ipv6Src f)).w₃ = be32 K (wordBe f 34) := by
    rw [ipv6Src, addrWords_addrAt]
    rfl
  simp only [siitOutPlan, hetype, hsrc, hdst, hpayload, hnext, hhop, h.dst, hlast, bind,
    Except.bind, pure, Except.pure, be16_be16, be32_be32, ne_eq, not_true_eq_false, if_false]
  rw [if_neg (protocol_not h.protocol), toPodPlan, h.dst]

/-- **What `siit_out` translates.** -/
theorem siitOutPlan_iff {p : ToIpv4} :
    siitOutPlan K my f = .ok (.translate p) ↔ ToPod my f ∧ p = toPodPlan K my f := by
  constructor
  · intro hplan
    have hto : ToPod my f := by
      have hetype : etherType f = ETH_P_IPV6 := (siitOutPlan_serves my).etherType_eq hplan
      obtain ⟨etype, -, h⟩ := bind_eq_ok hplan
      obtain ⟨-, h⟩ := test_passed h
      obtain ⟨dstV6, hdst, h⟩ := bind_eq_ok h
      obtain ⟨tdst, h⟩ := test_passed h
      obtain ⟨payloadLen, -, h⟩ := bind_eq_ok h
      obtain ⟨nextHdr, hnext, h⟩ := bind_eq_ok h
      obtain ⟨hopLimit, -, h⟩ := bind_eq_ok h
      obtain ⟨tproto, -⟩ := test_passed h
      have hlen : 54 ≤ f.length := le_length_of_loadWords hdst
      rw [loadWords_eq K (by simp only [IPV6_DST_ADDR_OFF, ETH_HDR_LEN]; omega)] at hdst
      rw [ETH_HDR_LEN, load8_eq (by omega)] at hnext
      cases hdst
      cases hnext
      exact ⟨⟨hlen, hetype⟩, addrWords_injective K (not_not.mp tdst), protocol_of_not tproto⟩
    rw [siitOutPlan_of_toPod hto] at hplan
    cases hplan
    exact ⟨hto, rfl⟩
  · rintro ⟨hto, rfl⟩
    exact siitOutPlan_of_toPod hto

/-- **What `nat64_egress` translates.** -/
theorem nat64EgressPlan_iff {p : Nat64Egress} :
    nat64EgressPlan K maps f = .ok (.translate p) ↔
      IsNat64Outbound f ∧ ∃ cfg, maps.nat64Config = some cfg ∧ p = outboundPlan K cfg f := by
  constructor
  · intro hplan
    obtain ⟨hout, cfg, hcfg⟩ := isNat64Outbound_of_plan K hplan
    rw [nat64EgressPlan_of_outbound K hout hcfg] at hplan
    cases hplan
    exact ⟨hout, cfg, hcfg, rfl⟩
  · rintro ⟨hout, cfg, hcfg, rfl⟩
    exact nat64EgressPlan_of_outbound K hout hcfg

end Ipv6

end K3rs.Ebpf
