import K3rs.Ebpf.AllOrNothing

/-!
# UDP checksums over IPv6

A UDP checksum of zero means "none" over IPv4 and is forbidden over IPv6.  `csum_4to6` knows of
neither: it takes the field as a sum, and writes what the updates yield.  Two kinds of datagram
leave with a checksum that no receiver accepts:

* one without a checksum, unless zero happens to be its valid one;
* one with a valid checksum whose IPv6 sum without the field vanishes.  The last update fills in a
  word that was zero, so its result is never all ones (`OnesComplement.update_zero_lt`), and the
  field becomes zero.

All others keep a valid checksum other than zero: `udp_checksums_usable_iff`.
-/

namespace K3rs.Ebpf

open Wire Net Effects OnesComplement

/-! ## The plain update -/

/-- `bpf_l4_csum_replace` with `BPF_F_PSEUDO_HDR | 4` writes what RFC 1624 says, zero included. -/
structure Kernel.UpdatesPlainly (K : Kernel) : Prop extends K.UpdatesL4Csum where
  plain : ∀ (f : Frame) (off : ℕ) (m m' : UInt32), off + 2 ≤ f.length →
    K.l4CsumReplace f off m.toUInt64 m'.toUInt64 CSUM_FLAGS =
      some (splice f off
        (u16ToNe K.endian (OnesComplement.update (rawCsum K.endian f off) m m')))

theorem Kernel.linux_updatesPlainly (e : Endian) : (Kernel.linux e).UpdatesPlainly where
  toUpdatesL4Csum := Kernel.linux_updatesL4Csum e
  plain f off m m' h := by
    have hlen : off + (u16ToNe e (OnesComplement.update (rawCsum e f off) m m')).length ≤ f.length := by
      rwa [length_u16ToNe]
    simp only [Kernel.linux, UInt32.toUInt32_toUInt64]
    exact store_eq_some hlen

section Canonical

variable {K : Kernel} {f : Frame} {maps : Maps}

/-- The eight updates end with one that fills in a zero word. -/
theorem toIpv6_eq_last (p : ToIpv6) : ∃ front : TcM Unit,
    toIpv6 K p = front >>= fun _ =>
      l4CsumReplace K (ETH_HDR_LEN + IPV6_HDR_LEN + l4CsumOff p.protocol) 0
        (addrWords K p.dstIpv6).w₃ := by
  refine ⟨do
    changeProto K ETH_P_IPV6
    writeIpv6Header K p
    let off := ETH_HDR_LEN + IPV6_HDR_LEN + l4CsumOff p.protocol
    let s6 := addrWords K p.srcIpv6
    let d6 := addrWords K p.dstIpv6
    l4CsumReplace K off p.srcRaw s6.w₀
    l4CsumReplace K off 0 s6.w₁
    l4CsumReplace K off 0 s6.w₂
    l4CsumReplace K off 0 s6.w₃
    l4CsumReplace K off p.dstRaw d6.w₀
    l4CsumReplace K off 0 d6.w₁
    l4CsumReplace K off 0 d6.w₂, ?_⟩
  simp only [toIpv6, csum4to6, bind_assoc]

/-- An update that fills in a zero word leaves no all ones. -/
theorem l4CsumReplace_rawCsum_lt (hK : K.UpdatesPlainly) {off : ℕ} {m' : UInt32}
    {ctx ctx' : TcContext} (h : exec (l4CsumReplace K off 0 m') ctx = (.ok (), ctx')) :
    (rawCsum K.endian ctx'.frame off).toNat < 65535 := by
  cases hreplace : K.l4CsumReplace ctx.frame off (0 : UInt32).toUInt64 m'.toUInt64 CSUM_FLAGS with
  | none =>
      have hstop : exec (l4CsumReplace K off 0 m') ctx = (.error (), ctx) :=
        exec_modifies_none (by simp only [hreplace, Option.map_none])
      rw [hstop] at h
      cases h
  | some g =>
      have hstep : exec (l4CsumReplace K off 0 m') ctx = (.ok (), { ctx with frame := g }) :=
        exec_onFrame hreplace
      rw [hstep] at h
      cases h
      have hlen := (hK.bounded _ _ _ _ _ _ hreplace).1
      have hplain := hK.plain _ _ 0 m' hlen
      rw [hreplace] at hplain
      rw [Option.some_inj.mp hplain, rawCsum_splice _ hlen]
      exact update_zero_lt _ _

/-- A translation to IPv6 never leaves all ones in the checksum field. -/
theorem toIpv6_rawCsum_lt (hK : K.UpdatesPlainly) {p : ToIpv6} {ctx ctx' : TcContext}
    (h : exec (toIpv6 K p) ctx = (.ok (), ctx')) :
    (rawCsum K.endian ctx'.frame (54 + l4CsumOff p.protocol)).toNat < 65535 := by
  obtain ⟨front, hlast⟩ := toIpv6_eq_last (K := K) p
  rw [hlast] at h
  rcases hfront : exec front ctx with ⟨result, ctx₁⟩
  cases result with
  | error e =>
      rw [exec_bind_error hfront] at h
      cases h
  | ok u =>
      rw [exec_bind_ok hfront] at h
      exact l4CsumReplace_rawCsum_lt hK h

/-- All ones are all ones in either byte order. -/
theorem halfBe_lt_of_rawCsum {e : Endian} {g : Frame} {off : ℕ}
    (h : (rawCsum e g off).toNat < 65535) : (halfBe g off).toNat < 65535 := by
  have hlt := (halfBe g off).toNat_lt
  by_contra hge
  have hones : halfBe g off = 65535 := UInt16.toNat_inj.mp (by
    show _ = 65535
    omega)
  have hraw : rawCsum e g off = 65535 := by
    have hswap : rawCsum e g off = u16SwapToBe e 65535 := (u16OfNe_eq_swapToBe _ _ _ _).mpr hones
    rw [hswap]
    cases e <;> decide
  rw [hraw] at h
  exact absurd h (by decide)

end Canonical

/-! ## Usable checksums -/

/-- A datagram with a valid checksum, or with none, has got a valid one that is not zero. -/
def UdpUsable (f g : Frame) (len : UInt16) : Prop :=
  L4Valid4 f len ∨ halfBe f 40 = 0 → halfBe g 60 ≠ 0 ∧ L4Valid6 g len

/-- Neither exception applies: a zero checksum is a valid one, and the IPv6 sum of a valid
datagram without its checksum does not vanish. -/
structure KeepsChecksum (f : Frame) (src dst : Ipv6Addr) (len : UInt16) : Prop where
  present : halfBe f 40 = 0 → L4Valid4 f len
  nonzero : L4Valid4 f len → ¬ addrSum6 src dst + (IPPROTO_UDP.toNat + len.toNat) +
    bodySum f 34 UDP_CSUM_OFF len ≡ 0 [MOD 65535]

section Usable

variable {f : Frame} {p : ToIpv6} {c len : UInt16}

/-- The new checksum of a valid datagram is zero exactly if the sum of the rest vanishes. -/
private theorem csum_zero_iff {addrs addrs' t body csum csum' : ℕ} (hlt : csum' < 65535)
    (hc : csum' + addrs' ≡ csum + addrs [MOD 65535])
    (hvalid : addrs + t + (body + csum) ≡ 0 [MOD 65535]) :
    csum' = 0 ↔ addrs' + t + body ≡ 0 [MOD 65535] := by
  have hsum : csum' + (addrs' + t + body) ≡ 0 [MOD 65535] :=
    calc csum' + (addrs' + t + body) = csum' + addrs' + (t + body) := by ring
      _ ≡ csum + addrs + (t + body) [MOD 65535] := hc.add_right _
      _ = addrs + t + (body + csum) := by ring
      _ ≡ 0 [MOD 65535] := hvalid
  constructor
  · intro hzero
    rwa [hzero, Nat.zero_add] at hsum
  · intro hrest
    have hcsum : csum' ≡ 0 [MOD 65535] := Nat.ModEq.add_right_cancel (hrest.trans Nat.ModEq.rfl)
      (by simpa using hsum)
    exact hcsum.eq_of_lt_of_lt hlt (by decide)

/-- **One datagram.** -/
theorem udpUsable_iff (hproto : ipv4Protocol f = IPPROTO_UDP) (hsame : p.protocol = IPPROTO_UDP)
    (hlen : 42 ≤ f.length) (hcover : 8 ≤ len.toNat) (hcanonical : c.toNat < 65535)
    (hc : c.toNat + addrSum6 p.srcIpv6 p.dstIpv6 ≡ (halfBe f 40).toNat +
      addrSum4 (ipv4Src f) (ipv4Dst f) [MOD 65535]) :
    UdpUsable f (toIpv6Frame f p c) len ↔ KeepsChecksum f p.srcIpv6 p.dstIpv6 len := by
  have hoff : l4CsumOff p.protocol = 6 := by
    rw [hsame]
    rfl
  have hfield : halfBe (toIpv6Frame f p c) 60 = c := by
    have h := (sameDatagram_toIpv6Frame (p := p) c (by rw [hoff]; exact hlen)).2
    rwa [hoff] at h
  have hvalid6 : L4Valid6 (toIpv6Frame f p c) len ↔ L4Valid4 f len :=
    l4Valid6_iff (Or.inr hsame) (hproto.trans hsame.symm) (by rw [hoff]; exact hlen)
      (by rw [hoff]; exact hcover) (by rw [hoff]; exact hc)
  have hzero : L4Valid4 f len → (c = 0 ↔ addrSum6 p.srcIpv6 p.dstIpv6 +
      (IPPROTO_UDP.toNat + len.toNat) + bodySum f 34 UDP_CSUM_OFF len ≡ 0 [MOD 65535]) := by
    intro hvalid
    have hsum : wordSum (datagram f 34 len) =
        bodySum f 34 UDP_CSUM_OFF len + (halfBe f 40).toNat :=
      wordSum_datagram (by decide) hcover hlen
    rw [l4Valid4_iff_modEq (by rw [hproto]; decide), hproto, hsum] at hvalid
    rw [← UInt16.toNat_inj]
    exact csum_zero_iff hcanonical hc hvalid
  rw [UdpUsable, hfield, hvalid6]
  constructor
  · intro h
    exact ⟨fun hnone => (h (Or.inr hnone)).2,
      fun hvalid hvanishes => (h (Or.inl hvalid)).1 ((hzero hvalid).mpr hvanishes)⟩
  · intro h hany
    have hvalid : L4Valid4 f len := hany.elim id h.present
    exact ⟨fun hc0 => h.nonzero hvalid ((hzero hvalid).mp hc0), hvalid⟩

end Usable

/-! ## Both programs -/

section Programs

variable {K : Kernel} {f : Frame} {maps : Maps} {ctx' : TcContext}

/-- The end of both programs, on a UDP datagram. -/
theorem udpUsable_toIpv6_iff (hL3 : K.ResizesL3) (hK : K.UpdatesPlainly) {p : ToIpv6}
    {k : Unit → TcM Action} {action : Action} (hk : ∀ ctx, (exec (k ()) ctx).2 = ctx)
    (hexec : exec (toIpv6 K p >>= k) ⟨f, maps⟩ = (.ok action, ctx')) (hlong : 34 ≤ f.length)
    (hproto : ipv4Protocol f = IPPROTO_UDP) (hsame : p.protocol = IPPROTO_UDP)
    (hsrc : p.srcRaw = be32 K (ipv4Src f)) (hdst : p.dstRaw = be32 K (ipv4Dst f)) (len : UInt16)
    (hcover : 8 ≤ len.toNat) :
    UdpUsable f ctx'.frame len ↔ KeepsChecksum f p.srcIpv6 p.dstIpv6 len := by
  have hoff : l4CsumOff p.protocol = 6 := by
    rw [hsame]
    rfl
  have hlen : 42 ≤ f.length := by
    by_contra hshort
    have hcut : CutShort f 34 p.protocol := by
      unfold CutShort
      omega
    rw [exec_bind_error (toIpv6_exec_short hL3 hK.toUpdatesL4Csum p hlong hcut)] at hexec
    cases hexec
  obtain ⟨c, hwire, hc⟩ := toIpv6_exec_wire hL3 hK.toUpdatesL4Csum p _ _ hsrc hdst maps
    (by rw [hoff]; exact hlen)
  have hframe : ctx'.frame = toIpv6Frame f p c := by
    rw [exec_bind_ok hwire] at hexec
    have hleft := hk ⟨toIpv6Frame f p c, maps⟩
    rw [toIpv6Frame, hexec] at hleft
    exact congrArg TcContext.frame hleft
  have hcanonical : c.toNat < 65535 := by
    have hlt := halfBe_lt_of_rawCsum (toIpv6_rawCsum_lt hK hwire)
    have hfield := (sameDatagram_toIpv6Frame (p := p) c (by rw [hoff]; exact hlen)).2
    rwa [← toIpv6Frame, hfield] at hlt
  rw [hoff] at hc
  rw [hframe]
  exact udpUsable_iff hproto hsame hlen hcover hcanonical hc

end Programs

/-- **UDP checksums over IPv6.**  A UDP datagram that `siit_in` or `nat64_ingress` translates gets
a valid checksum other than zero, if it had a valid one or none, exactly if neither exception
applies. -/
theorem udp_checksums_usable_iff (K : Kernel) (hL3 : K.ResizesL3) (hK : K.UpdatesPlainly)
    (my : Globals) (maps : Maps) (f : Frame) (hudp : ipv4Protocol f = IPPROTO_UDP)
    (ctx' : TcContext) :
    (Translates (trySiitIn K my) ⟨f, maps⟩ ctx' → ∀ len : UInt16, 8 ≤ len.toNat →
        (UdpUsable f ctx'.frame len ↔
          KeepsChecksum f my.myGhostIpv6 (resolveDst my (ipv4Dst f)) len)) ∧
      (Translates (tryNat64Ingress K) ⟨f, maps⟩ ctx' →
        ∃ ct, maps.nat64Conntrack (replyKey f) = some ct ∧ ∀ len : UInt16, 8 ≤ len.toNat →
          (UdpUsable f ctx'.frame len ↔
            KeepsChecksum f (nat64Addr (ipv4Src f)) ct.srcIpv6 len)) := by
  refine ⟨fun h len hcover => ?_, fun h => ?_⟩
  · obtain ⟨p, action, hplan, hexec⟩ := h.plan
    obtain ⟨hfrom, rfl⟩ := siitInPlan_iff.mp hplan
    exact udpUsable_toIpv6_iff (p := fromPodPlan K my f) hL3 hK (fun _ => rfl) hexec
      (le_trans (by decide) hfrom.length) hudp hudp rfl rfl len hcover
  · obtain ⟨p, action, hplan, hexec⟩ := h.plan
    obtain ⟨htracked, ct, hct, rfl⟩ := nat64IngressPlan_iff.mp hplan
    exact ⟨ct, hct, fun len hcover => udpUsable_toIpv6_iff (p := trackedPlan K ct f) hL3 hK
      (fun _ => rfl) hexec (le_trans (by decide) htracked.length) hudp hudp rfl rfl len hcover⟩

/-! ## A datagram without a checksum -/

/-- `udpFrame` without a checksum. -/
def noCsumFrame : Frame := splice udpFrame 40 [0, 0]

/-- What `siit_in` of the sending pod leaves of it. -/
def noCsumTranslated : TcContext :=
  (exec (trySiitIn (.linux .little) (podGlobals 5 (.ofOctets 10 0 0 1))) ⟨noCsumFrame, {}⟩).2

theorem translates_noCsumFrame :
    Translates (trySiitIn (.linux .little) (podGlobals 5 (.ofOctets 10 0 0 1))) ⟨noCsumFrame, {}⟩
      noCsumTranslated := by
  refine ⟨⟨.ok, Prod.ext ?_ rfl⟩, ?_⟩
  · decide
  · decide

/-- It leaves with a checksum that is not valid. -/
theorem noCsumFrame_not_usable :
    Translates (trySiitIn (.linux .little) (podGlobals 5 (.ofOctets 10 0 0 1))) ⟨noCsumFrame, {}⟩
        noCsumTranslated ∧
      halfBe noCsumFrame 40 = 0 ∧ ¬ L4Valid6 noCsumTranslated.frame 8 ∧
        ¬ UdpUsable noCsumFrame noCsumTranslated.frame 8 := by
  have hzero : halfBe noCsumFrame 40 = 0 := by decide
  have hinvalid : ¬ L4Valid6 noCsumTranslated.frame 8 := by decide +kernel
  exact ⟨translates_noCsumFrame, hzero, hinvalid, fun h => hinvalid (h (Or.inr hzero)).2⟩

/-- `udpFrame` from port 18963, with its checksum. -/
def vanishingFrame : Frame := splice udpFrame 34 [0x4a, 0x13, 0x20, 0, 0, 8, 0x81, 0xc8]

-- the other exception: valid, and zero afterwards
example : L4Valid4 vanishingFrame 8 ∧ halfBe (siitIn (.linux .little)
    (podGlobals 5 (.ofOctets 10 0 0 1)) ⟨vanishingFrame, {}⟩).2.frame 60 = 0 := by
  decide +kernel

/-- The equivalence at the datagram without a checksum. -/
theorem udp_checksums_usable_iff_noCsumFrame :
    UdpUsable noCsumFrame noCsumTranslated.frame 8 ↔
      KeepsChecksum noCsumFrame (podGlobals 5 (.ofOctets 10 0 0 1)).myGhostIpv6
        (resolveDst (podGlobals 5 (.ofOctets 10 0 0 1)) (ipv4Dst noCsumFrame)) 8 :=
  (udp_checksums_usable_iff (.linux .little) (Kernel.linux_resizesL3 _)
    (Kernel.linux_updatesPlainly _) (podGlobals 5 (.ofOctets 10 0 0 1)) {} noCsumFrame
    (by decide) noCsumTranslated).1 translates_noCsumFrame 8 (by decide)

end K3rs.Ebpf
