import K3rs.Ebpf.L4Checksum
import K3rs.Ebpf.Nat64

/-!
# NAT64 there and back

A pod sends a datagram to `64:ff9b::X`.  `nat64_egress` makes it an IPv4 packet from the node to
`X`, and the reply of `X` to the node is made an IPv6 packet to the pod by `nat64_ingress`, as
long as no other outbound packet has taken the entry of the flow in between.  `There` and `Back` say
what each of the two packets is; ports and payload are as they were, and a checksum is valid
exactly if it was.

What the second program needs of a reply is less than a complete header: its checksum field must
be there.  Fragments and zero checksums are translated like everything else.
-/

namespace K3rs.Ebpf

open Wire Net Effects Transition OnesComplement

/-! ## There -/

/-- The IPv4 packet that an outbound packet becomes. -/
structure There (cfg : Nat64Config) (f g : Frame) : Prop where
  verIhl : g.getD 14 0 = 0x45
  totLen : (ipv4TotLen g).toNat = (halfBe f 18).toNat + 20
  ttl : ipv4Ttl g = f.getD 21 0
  protocol : ipv4Protocol g = f.getD 20 0
  src : ipv4Src g = cfg.nodeIpv4
  dst : nat64Addr (ipv4Dst g) = ipv6Dst f
  header : fold (wordSum ((g.drop 14).take 20)) = 65535
  sport : halfBe g 34 = halfBe f 54
  dport : halfBe g 36 = halfBe f 56
  datagram : SameDatagram f 54 g 34 (l4CsumOff (f.getD 20 0))
  valid : ∀ len : UInt16, l4CsumOff (f.getD 20 0) + 2 ≤ len.toNat →
    (L4Valid4 g len ↔ L4Valid6 f len)

/-- The IPv6 packet that a reply becomes, to the sender of `f`. -/
structure Back (f r g : Frame) : Prop where
  version : g.getD 14 0 = 0x60
  payloadLen : (halfBe g 18).toNat = (ipv4TotLen r).toNat - 20
  nextHdr : g.getD 20 0 = ipv4Protocol r
  hopLimit : g.getD 21 0 = ipv4Ttl r
  src : ipv6Src g = nat64Addr (ipv4Src r)
  dst : ipv6Dst g = ipv6Src f
  sport : halfBe g 54 = halfBe r 34
  dport : halfBe g 56 = halfBe r 36
  datagram : SameDatagram r 34 g 54 (l4CsumOff (ipv4Protocol r))
  valid : ∀ len : UInt16, l4CsumOff (ipv4Protocol r) + 2 ≤ len.toNat →
    (L4Valid6 g len ↔ L4Valid4 r len)

theorem six_le_l4CsumOff (protocol : UInt8) : 6 ≤ l4CsumOff protocol := by
  unfold l4CsumOff
  split <;> decide

section There

variable {K : Kernel} {f : Frame} {maps : Maps} {cfg : Nat64Config}

/-- `payload_len + 20` does not wrap. -/
theorem toNat_totalLen {p : ToIpv4} (h : p.payloadLen.toNat ≤ 65515) :
    p.totalLen.toNat = p.payloadLen.toNat + 20 := by
  rw [ToIpv4.totalLen, UInt16.toNat_add]
  exact Nat.mod_eq_of_lt (by show _ + 20 < 2 ^ 16; omega)

/-- **An outbound packet leaves as an IPv4 packet of the node.** -/
theorem nat64Egress_there (hL3 : K.ResizesL3) (hL4 : K.UpdatesL4Csum) (h : IsNat64Outbound f)
    (hl4 : CompleteL4 f) (hpayload : (halfBe f 18).toNat ≤ 65515)
    (hcfg : maps.nat64Config = some cfg) :
    ∃ g, nat64Egress K ⟨f, maps⟩ = (.redirect cfg.physIfindex, ⟨g, track maps f⟩) ∧
      There cfg f g := by
  have hhdr := l4CsumOff_lt_hdrLen (f.getD 20 0)
  have hports := six_le_l4CsumOff (f.getD 20 0)
  unfold CompleteL4 at hl4
  have hlen : 54 + l4CsumOff (f.getD 20 0) + 2 ≤ f.length := by omega
  set p := (outboundPlan K cfg f).packet with hp
  have hdst6 : p.dstV6 = addrWords K (ipv6Dst f) := by
    rw [h.dst, addrWords_nat64Addr]
    rfl
  obtain ⟨c, hexec, hc⟩ := toIpv4_exec_wire hL3 hL4 p (ipv6Src f) (ipv6Dst f) cfg.nodeIpv4
    (wordBe f 50) rfl hdst6 rfl rfl (track maps f) hlen
  have hfields := ipv4Fields_toIpv4Frame (K := K) (p := p) cfg.nodeIpv4 (wordBe f 50) rfl rfl rfl
    rfl c (show 14 ≤ f.length by omega)
  obtain ⟨hdatagram, -⟩ := sameDatagram_toIpv4Frame K (p := p) c hlen
  refine ⟨toIpv4Frame K f p c, ?_, ⟨hfields.verIhl, ?_, hfields.ttl, hfields.protocol, hfields.src,
    ?_, hfields.header, ?_, ?_, hdatagram, fun len hcover => ?_⟩⟩
  · rw [nat64Egress, classify, exec_tryNat64Egress h hcfg, exec_bind_ok hexec]
    rfl
  · rw [hfields.totLen, toNat_totalLen hpayload]
    rfl
  · rw [hfields.dst, h.dst]
  · exact hdatagram.halfBe_eq (k := 0) (by show 0 + 2 ≤ l4CsumOff (f.getD 20 0); omega)
  · exact hdatagram.halfBe_eq (k := 2) (by show 2 + 2 ≤ l4CsumOff (f.getD 20 0); omega)
  · exact l4Valid4_iff hfields h.protocol rfl hlen hcover hc

end There

/-! ## Back -/

/-- A reply to an outbound packet: from its destination to the node, with the ports swapped, and
long enough to have a checksum. -/
structure IsReplyTo (cfg : Nat64Config) (f r : Frame) : Prop where
  etherType : etherType r = ETH_P_IP
  verIhl : r.getD 14 0 = 0x45
  sameProtocol : ipv4Protocol r = f.getD 20 0
  src : nat64Addr (ipv4Src r) = ipv6Dst f
  dst : ipv4Dst r = cfg.nodeIpv4
  sport : halfBe r 34 = halfBe f 56
  dport : halfBe r 36 = halfBe f 54
  totLen : 20 ≤ (ipv4TotLen r).toNat
  length : 34 + l4CsumOff (ipv4Protocol r) + 2 ≤ r.length

/-- The packet does not write the entry under a key. -/
def LeavesKey (key : Nat64Key) : Nat64Input → Prop
  | .egress f => IsNat64Outbound f → flowKey f ≠ key
  | .ingress _ => True

section Back

variable {K : Kernel} {f r : Frame} {maps : Maps} {cfg : Nat64Config}

/-- `tot_len - 20` does not wrap. -/
theorem toNat_sub_hdrLen {totLen : UInt16} (h : 20 ≤ totLen.toNat) :
    (totLen - UInt16.ofNat IPV4_HDR_LEN).toNat = totLen.toNat - 20 :=
  UInt16.toNat_sub_of_le _ _ (UInt16.le_iff_toNat_le.mpr h)

/-- One packet that leaves the key of a flow alone keeps the entry. -/
theorem attributed_leaves_step {key : Nat64Key} {pod : Ipv6Addr} {i : Nat64Input}
    (h : Attributed cfg key pod maps) (hi : LeavesKey key i) :
    Attributed cfg key pod (nat64Step K maps i) := by
  rcases step_conntrack h.config i with heq | ⟨g, rfl, hg, heq⟩
  · rw [heq]
    exact h
  · rw [heq]
    refine ⟨h.config, ?_⟩
    show Function.update maps.nat64Conntrack (flowKey g) _ key = _
    rw [Function.update_of_ne (hi hg).symm]
    exact h.entry

/-- The entry of a flow stays when other packets leave its key alone. -/
theorem attributed_leaves {key : Nat64Key} {pod : Ipv6Addr} {later : List Nat64Input}
    (h : Attributed cfg key pod maps) (hlater : ∀ i ∈ later, LeavesKey key i) :
    Attributed cfg key pod (run (nat64Step K) maps later) := by
  induction later generalizing maps with
  | nil => exact h
  | cons i later ih =>
      exact ih (attributed_leaves_step h (hlater i (List.mem_cons_self ..)))
        fun j hj => hlater j (List.mem_cons_of_mem _ hj)

/-- **A reply comes back as an IPv6 packet to the pod.** -/
theorem nat64Ingress_back (hL3 : K.ResizesL3) (hL4 : K.UpdatesL4Csum) (hf : IsNat64Outbound f)
    (h : Attributed cfg (flowKey f) (ipv6Src f) maps) (hr : IsReplyTo cfg f r) :
    ∃ g, nat64Ingress K ⟨r, maps⟩ = (deliver maps (ipv6Src f), ⟨g, maps⟩) ∧ Back f r g := by
  have hports := six_le_l4CsumOff (ipv4Protocol r)
  have hlen := hr.length
  have hproto : ipv4Protocol r = IPPROTO_TCP ∨ ipv4Protocol r = IPPROTO_UDP := by
    rw [hr.sameProtocol]
    exact hf.protocol
  have hsrc : ipv4Src r = wordBe f 50 := nat64Addr_injective (hr.src.trans hf.dst)
  have hct : maps.nat64Conntrack ⟨ipv4Protocol r, halfBe r 36, ipv4Src r, halfBe r 34⟩ =
      some ⟨ipv6Src f⟩ := by
    rw [hr.sameProtocol, hr.dport, hsrc, hr.sport]
    exact h.entry
  have hplan := nat64IngressPlan_of_loads K
    (ipv4Loads K (show 38 ≤ r.length by omega) hr.etherType hr.verIhl) hproto h.config hr.dst hct
  set p : ToIpv6 :=
    { srcRaw := be32 K (ipv4Src r), dstRaw := be32 K (ipv4Dst r)
      srcIpv6 := nat64Addr (ipv4Src r), dstIpv6 := ipv6Src f
      payloadLen := ipv4TotLen r - UInt16.ofNat IPV4_HDR_LEN
      protocol := ipv4Protocol r, hopLimit := ipv4Ttl r } with hp
  obtain ⟨c, hexec, hc⟩ := toIpv6_exec_wire hL3 hL4 p (ipv4Src r) (ipv4Dst r) rfl rfl maps hlen
  have hfields := ipv6Fields_toIpv6Frame p c (show 14 ≤ r.length by omega)
  obtain ⟨hdatagram, -⟩ := sameDatagram_toIpv6Frame (p := p) c hlen
  refine ⟨toIpv6Frame r p c, ?_, ⟨hfields.version, ?_, hfields.nextHdr, hfields.hopLimit,
    hfields.src, hfields.dst, ?_, ?_, hdatagram, fun len hcover => ?_⟩⟩
  · rw [nat64Ingress, classify, tryNat64Ingress, exec_translator_translate hplan,
      exec_bind_ok hexec]
    rfl
  · rw [hfields.payloadLen]
    exact toNat_sub_hdrLen hr.totLen
  · exact hdatagram.halfBe_eq (k := 0) (by show 0 + 2 ≤ l4CsumOff (ipv4Protocol r); omega)
  · exact hdatagram.halfBe_eq (k := 2) (by show 2 + 2 ≤ l4CsumOff (ipv4Protocol r); omega)
  · exact l4Valid6_iff hproto rfl hlen hcover hc

end Back

theorem completeL4_dnsQuery : CompleteL4 (dnsQuery 1 4096) :=
  show 54 + l4HdrLen ((dnsQuery 1 4096).getD 20 0) ≤ (dnsQuery 1 4096).length by decide

theorem isReplyTo_dnsAnswer : IsReplyTo nodeConfig (dnsQuery 1 4096) dnsAnswer where
  etherType := by decide
  verIhl := by decide
  sameProtocol := by decide
  src := by decide
  dst := by decide
  sport := by decide
  dport := by decide
  totLen := by decide
  length := by decide

end K3rs.Ebpf
