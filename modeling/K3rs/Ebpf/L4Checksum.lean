import K3rs.Ebpf.RoundTrip

/-!
# L4 checksums

A receiver of TCP or UDP sums the pseudo header and the datagram, and accepts when the sum folds
to all ones.  The length in the pseudo header is that of the datagram: the UDP header has it, and
for TCP it is what the L3 header says.  `L4Valid4` and `L4Valid6` take it as an argument, so that
what is said here holds for either.

The translators update the checksum with raw words, in the byte order of the host.  Summed in the
wrong byte order, every 16-bit word is multiplied by 256 modulo 65535, the checksum as well
(`byteScale`), so what holds of raw words holds of the wire (`toIpv6_exec_wire`,
`toIpv4_exec_wire`).

* `l4Valid6_iff`, `l4Valid4_iff`: a translation keeps checksums valid, and invalid ones invalid.
-/

namespace K3rs.Ebpf

open Wire Net Effects OnesComplement

/-! ## What a receiver checks -/

/-- The pseudo header of an IPv4 datagram. -/
def pseudoHeader4 (src dst : UInt32) (protocol : UInt8) (len : UInt16) : List UInt8 :=
  u32ToBe src ++ (u32ToBe dst ++ ([0, protocol] ++ u16ToBe len))

/-- The pseudo header of an IPv6 datagram. -/
def pseudoHeader6 (src dst : Ipv6Addr) (protocol : UInt8) (len : UInt16) : List UInt8 :=
  src.octets ++ (dst.octets ++ ([0, 0] ++ (u16ToBe len ++ [0, 0, 0, protocol])))

/-- The datagram of a length that begins at an offset of a frame. -/
def datagram (f : Frame) (off : ℕ) (len : UInt16) : List UInt8 := (f.drop off).take len.toNat

/-- The L4 checksum of an IPv4 frame is accepted. -/
def L4Valid4 (f : Frame) (len : UInt16) : Prop :=
  fold (wordSum (pseudoHeader4 (ipv4Src f) (ipv4Dst f) (ipv4Protocol f) len ++
    datagram f 34 len)) = 65535

/-- The L4 checksum of an IPv6 frame is accepted. -/
def L4Valid6 (f : Frame) (len : UInt16) : Prop :=
  fold (wordSum (pseudoHeader6 (ipv6Src f) (ipv6Dst f) (f.getD 20 0) len ++
    datagram f 54 len)) = 65535

instance (f : Frame) (len : UInt16) : Decidable (L4Valid4 f len) := inferInstanceAs (Decidable (_ = _))

instance (f : Frame) (len : UInt16) : Decidable (L4Valid6 f len) := inferInstanceAs (Decidable (_ = _))

/-- The sum of two IPv4 addresses. -/
def addrSum4 (src dst : UInt32) : ℕ := wordSum (u32ToBe src) + wordSum (u32ToBe dst)

/-- The sum of two IPv6 addresses. -/
def addrSum6 (src dst : Ipv6Addr) : ℕ := wordSum src.octets + wordSum dst.octets

section Sums

theorem wordSum_u16ToBe (x : UInt16) : wordSum (u16ToBe x) = x.toNat := by
  rw [u16ToBe, wordSum, wordSum, Nat.add_zero, ← u16OfBe_toNat, u16OfBe_bytes]

theorem wordSum_pseudoHeader4 (src dst : UInt32) (protocol : UInt8) (len : UInt16) :
    wordSum (pseudoHeader4 src dst protocol len) =
      addrSum4 src dst + (protocol.toNat + len.toNat) := by
  have hproto : wordSum [0, protocol] = protocol.toNat := by simp [wordSum]
  rw [pseudoHeader4, wordSum_append _ (by simp), wordSum_append _ (by simp),
    wordSum_append _ (by simp), wordSum_u16ToBe, hproto, addrSum4, Nat.add_assoc]

theorem wordSum_pseudoHeader6 (src dst : Ipv6Addr) (protocol : UInt8) (len : UInt16) :
    wordSum (pseudoHeader6 src dst protocol len) =
      addrSum6 src dst + (protocol.toNat + len.toNat) := by
  have hzero : wordSum [0, 0] = 0 := rfl
  have hproto : wordSum [0, 0, 0, protocol] = protocol.toNat := by simp [wordSum]
  rw [pseudoHeader6, wordSum_append _ (by rw [src.length_octets]; decide),
    wordSum_append _ (by rw [dst.length_octets]; decide), wordSum_append _ (by decide),
    wordSum_append _ (by simp), wordSum_u16ToBe, hzero, hproto, addrSum6]
  omega

theorem length_datagram_lt (f : Frame) (off : ℕ) (len : UInt16) :
    (datagram f off len).length < 2 ^ 16 :=
  lt_of_le_of_lt (List.length_take_le _ _) len.toNat_lt

/-- A checksum is accepted exactly if the sum vanishes modulo 65535. -/
private theorem fold_append_iff {pseudo : List UInt8} {f : Frame} {off : ℕ} {len : UInt16}
    (heven : 2 ∣ pseudo.length) (hlen : pseudo.length ≤ 40) (hpos : 0 < wordSum pseudo) :
    fold (wordSum (pseudo ++ datagram f off len)) = 65535 ↔
      wordSum pseudo + wordSum (datagram f off len) ≡ 0 [MOD 65535] := by
  have hpseudo := wordSum_le pseudo
  have hdatagram := wordSum_le (datagram f off len)
  have hshort := length_datagram_lt f off len
  rw [wordSum_append _ heven]
  exact fold_eq_iff (by omega) (by omega)

theorem l4Valid4_iff_modEq {f : Frame} {len : UInt16} (hproto : ipv4Protocol f ≠ 0) :
    L4Valid4 f len ↔ addrSum4 (ipv4Src f) (ipv4Dst f) + ((ipv4Protocol f).toNat + len.toNat) +
      wordSum (datagram f 34 len) ≡ 0 [MOD 65535] := by
  have hpos : 0 < (ipv4Protocol f).toNat :=
    Nat.pos_of_ne_zero fun hzero => hproto (UInt8.toNat_inj.mp hzero)
  have hsum := wordSum_pseudoHeader4 (ipv4Src f) (ipv4Dst f) (ipv4Protocol f) len
  rw [L4Valid4, fold_append_iff (by simp [pseudoHeader4]) (by simp [pseudoHeader4]) (by omega), hsum]

theorem l4Valid6_iff_modEq {f : Frame} {len : UInt16} (hproto : f.getD 20 0 ≠ 0) :
    L4Valid6 f len ↔ addrSum6 (ipv6Src f) (ipv6Dst f) + ((f.getD 20 0).toNat + len.toNat) +
      wordSum (datagram f 54 len) ≡ 0 [MOD 65535] := by
  have hpos : 0 < (f.getD 20 0).toNat :=
    Nat.pos_of_ne_zero fun hzero => hproto (UInt8.toNat_inj.mp hzero)
  have hsum := wordSum_pseudoHeader6 (ipv6Src f) (ipv6Dst f) (f.getD 20 0) len
  have hlength : (pseudoHeader6 (ipv6Src f) (ipv6Dst f) (f.getD 20 0) len).length = 40 := by
    simp [pseudoHeader6, (ipv6Src f).length_octets, (ipv6Dst f).length_octets]
  rw [L4Valid6, fold_append_iff (by rw [hlength]; decide) (by rw [hlength]) (by omega), hsum]

end Sums

/-! ## Datagrams with a new checksum -/

/-- The datagram without its checksum field. -/
def bodySum (f : Frame) (off csumOff : ℕ) (len : UInt16) : ℕ :=
  wordSum ((datagram f off len).take csumOff) + wordSum ((datagram f off len).drop (csumOff + 2))

section Datagrams

variable {f : Frame} {len : UInt16} {off csumOff : ℕ}

/-- The sum of a datagram that covers its checksum field. -/
theorem wordSum_datagram (heven : 2 ∣ csumOff) (hlen : csumOff + 2 ≤ len.toNat)
    (hframe : off + csumOff + 2 ≤ f.length) :
    wordSum (datagram f off len) = bodySum f off csumOff len + (halfBe f (off + csumOff)).toNat := by
  have hlong : csumOff + 2 ≤ (datagram f off len).length := by
    rw [datagram, List.length_take, List.length_drop]
    omega
  have hget : ∀ i, i < csumOff + 2 → (datagram f off len).getD i 0 = f.getD (off + i) 0 := by
    intro i hi
    simp only [datagram, List.getD_eq_getElem?_getD]
    rw [List.getElem?_take_of_lt (by omega), List.getElem?_drop]
  have hdrop : (datagram f off len).drop csumOff = f.getD (off + csumOff) 0 ::
      f.getD (off + csumOff + 1) 0 :: (datagram f off len).drop (csumOff + 2) := by
    rw [drop_eq_getD_cons (by omega), drop_eq_getD_cons (by omega), hget _ (by omega),
      hget _ (by omega)]
    rfl
  have htake : ((datagram f off len).take csumOff).length = csumOff := by
    rw [List.length_take]
    omega
  conv_lhs => rw [← List.take_append_drop csumOff (datagram f off len), hdrop]
  rw [wordSum_append _ (by rw [htake]; exact heven), wordSum, bodySum, halfBe, u16OfBe_toNat]
  omega

/-- Behind another header, and with another checksum, the rest of the datagram is the same. -/
theorem bodySum_splice {pre : List UInt8} {k : ℕ} {bs : List UInt8} (hpre : pre.length = k)
    (hbs : bs.length = 2) (hframe : off + csumOff + 2 ≤ f.length) :
    bodySum (pre ++ splice (f.drop off) csumOff bs) k csumOff len = bodySum f off csumOff len := by
  have hfit : csumOff + bs.length ≤ (f.drop off).length := by
    rw [hbs, List.length_drop]
    omega
  have htake : (splice (f.drop off) csumOff bs).take csumOff = (f.drop off).take csumOff :=
    take_splice le_rfl hfit
  have hdrop : (splice (f.drop off) csumOff bs).drop (csumOff + 2) =
      (f.drop off).drop (csumOff + 2) := by
    apply List.ext_getElem?
    intro i
    rw [List.getElem?_drop, List.getElem?_drop,
      getElem?_splice_of_outside hfit (Or.inr (by rw [hbs]; omega))]
  simp only [bodySum, datagram, List.drop_left' hpre, List.take_take, List.drop_take]
  rw [hdrop, min_comm, ← List.take_take, htake, List.take_take]

end Datagrams

/-! ## Raw and wire order, once more -/

/-- What a word is multiplied by when its bytes are read in the order of the host. -/
def byteScale : Endian → ℕ
  | .big => 1
  | .little => 256

section Scale

variable (e : Endian)

theorem byteScale_u16 (b₀ b₁ : UInt8) :
    byteScale e * (u16OfNe e b₀ b₁).toNat ≡ (u16OfBe b₀ b₁).toNat [MOD 65535] := by
  cases e with
  | big => rw [byteScale, one_mul, u16OfNe]
  | little =>
      rw [byteScale, u16OfNe, u16OfBe_toNat, u16OfBe_toNat]
      exact (swap_modEq _ _).symm

theorem byteScale_u32 (b₀ b₁ b₂ b₃ : UInt8) :
    byteScale e * (u32OfNe e b₀ b₁ b₂ b₃).toNat ≡ wordSum [b₀, b₁, b₂, b₃] [MOD 65535] := by
  have hb₀ := b₀.toNat_lt
  have hb₁ := b₁.toNat_lt
  have hb₂ := b₂.toNat_lt
  have hb₃ := b₃.toNat_lt
  rw [wordSum, wordSum, wordSum, Nat.add_zero]
  cases e with
  | big =>
      rw [byteScale, one_mul, u32OfNe, u32OfBe_toNat]
      unfold Nat.ModEq
      omega
  | little =>
      rw [byteScale, u32OfNe, u32OfBe_toNat]
      unfold Nat.ModEq
      omega

theorem byteScale_rawCsum (f : Frame) (off : ℕ) :
    byteScale e * (rawCsum e f off).toNat ≡ (halfBe f off).toNat [MOD 65535] :=
  byteScale_u16 e _ _

theorem byteScale_swap (c : UInt16) :
    byteScale e * c.toNat ≡ (u16SwapToBe e c).toNat [MOD 65535] := by
  have hbytes : u16OfNe e (u16Byte (u16SwapToBe e c) 0) (u16Byte (u16SwapToBe e c) 1) = c := by
    have hiff := u16OfNe_eq_swapToBe e (u16Byte (u16SwapToBe e c) 0)
      (u16Byte (u16SwapToBe e c) 1) (u16SwapToBe e c)
    rw [u16SwapToBe_involutive] at hiff
    exact hiff.mpr (u16OfBe_bytes _)
  have h := byteScale_u16 e (u16Byte (u16SwapToBe e c) 0) (u16Byte (u16SwapToBe e c) 1)
  rwa [hbytes, u16OfBe_bytes] at h

theorem byteScale_be32 (K : Kernel) (x : UInt32) :
    byteScale K.endian * (be32 K x).toNat ≡ wordSum (u32ToBe x) [MOD 65535] := by
  have hbytes : be32 K x =
      u32OfNe K.endian (u32Byte x 0) (u32Byte x 1) (u32Byte x 2) (u32Byte x 3) :=
    ((u32OfNe_eq_swapToBe _ _ _ _ _ _).mpr (u32OfBe_bytes x)).symm
  rw [hbytes]
  exact byteScale_u32 _ _ _ _ _

theorem byteScale_addrWords (K : Kernel) (a : Ipv6Addr) :
    byteScale K.endian * (addrWords K a).sum ≡ wordSum a.octets [MOD 65535] := by
  have h₀ := byteScale_u32 K.endian (a.octet 0) (a.octet 1) (a.octet 2) (a.octet 3)
  have h₁ := byteScale_u32 K.endian (a.octet 4) (a.octet 5) (a.octet 6) (a.octet 7)
  have h₂ := byteScale_u32 K.endian (a.octet 8) (a.octet 9) (a.octet 10) (a.octet 11)
  have h₃ := byteScale_u32 K.endian (a.octet 12) (a.octet 13) (a.octet 14) (a.octet 15)
  have hall := ((h₀.add h₁).add h₂).add h₃
  have hsum : wordSum a.octets =
      wordSum [a.octet 0, a.octet 1, a.octet 2, a.octet 3] +
        wordSum [a.octet 4, a.octet 5, a.octet 6, a.octet 7] +
          wordSum [a.octet 8, a.octet 9, a.octet 10, a.octet 11] +
            wordSum [a.octet 12, a.octet 13, a.octet 14, a.octet 15] := by
    conv_lhs => rw [Ipv6Addr.octets_eq a]
    simp only [wordSum]
    omega
  rw [hsum]
  simpa only [AddrWords.sum, addrWords, mul_add] using hall

end Scale

/-! ## Both translations, on the wire -/

section Wire

variable {K : Kernel} {f : Frame}

/-- **An IPv4 frame becomes an IPv6 frame**: in terms of the fields on the wire. -/
theorem toIpv6_exec_wire (hL3 : K.ResizesL3) (hL4 : K.UpdatesL4Csum) (p : ToIpv6) (src dst : UInt32)
    (hsrc : p.srcRaw = be32 K src) (hdst : p.dstRaw = be32 K dst) (maps : Maps)
    (hlen : 34 + l4CsumOff p.protocol + 2 ≤ f.length) :
    ∃ c : UInt16,
      exec (toIpv6 K p) ⟨f, maps⟩ =
          (.ok (), ⟨f.take 14 ++ (ipv6Header p ++
            splice (f.drop 34) (l4CsumOff p.protocol) (u16ToBe c)), maps⟩) ∧
        c.toNat + addrSum6 p.srcIpv6 p.dstIpv6 ≡
          (halfBe f (34 + l4CsumOff p.protocol)).toNat + addrSum4 src dst [MOD 65535] := by
  obtain ⟨c, hexec, hc⟩ := toIpv6_exec hL3 hL4 p maps hlen
  have hbytes : u16ToNe K.endian c = u16ToBe (u16SwapToBe K.endian c) := by
    rw [← u16ToNe_swapToBe, u16SwapToBe_involutive]
  rw [hbytes] at hexec
  refine ⟨u16SwapToBe K.endian c, hexec, ?_⟩
  rw [rawCsum_drop 34 (by omega), hsrc, hdst] at hc
  have hscaled := hc.mul_left (byteScale K.endian)
  simp only [mul_add] at hscaled
  have hnew := (byteScale_swap K.endian c).add ((byteScale_addrWords K p.srcIpv6).add
    (byteScale_addrWords K p.dstIpv6))
  have hold := (byteScale_rawCsum K.endian f (34 + l4CsumOff p.protocol)).add
    ((byteScale_be32 K src).add (byteScale_be32 K dst))
  exact hnew.symm.trans (hscaled.trans hold)

/-- **An IPv6 frame becomes an IPv4 frame.** -/
theorem toIpv4_exec_wire (hL3 : K.ResizesL3) (hL4 : K.UpdatesL4Csum) (p : ToIpv4)
    (src6 dst6 : Ipv6Addr) (src dst : UInt32) (hsrc6 : p.srcV6 = addrWords K src6)
    (hdst6 : p.dstV6 = addrWords K dst6) (hsrc : p.srcRaw = be32 K src)
    (hdst : p.dstRaw = be32 K dst) (maps : Maps)
    (hlen : 54 + l4CsumOff p.nextHdr + 2 ≤ f.length) :
    ∃ c : UInt16,
      exec (toIpv4 K p) ⟨f, maps⟩ =
          (.ok (), ⟨f.take 14 ++ (ipv4Header K p ++
            splice (f.drop 54) (l4CsumOff p.nextHdr) (u16ToBe c)), maps⟩) ∧
        c.toNat + addrSum4 src dst ≡
          (halfBe f (54 + l4CsumOff p.nextHdr)).toNat + addrSum6 src6 dst6 [MOD 65535] := by
  obtain ⟨c, hexec, hc⟩ := toIpv4_exec hL3 hL4 p maps hlen
  have hbytes : u16ToNe K.endian c = u16ToBe (u16SwapToBe K.endian c) := by
    rw [← u16ToNe_swapToBe, u16SwapToBe_involutive]
  rw [hbytes] at hexec
  refine ⟨u16SwapToBe K.endian c, hexec, ?_⟩
  rw [rawCsum_drop 54 (by omega), hsrc, hdst, hsrc6, hdst6] at hc
  have hscaled := hc.mul_left (byteScale K.endian)
  simp only [mul_add] at hscaled
  have hnew := (byteScale_swap K.endian c).add
    ((byteScale_be32 K src).add (byteScale_be32 K dst))
  have hold := (byteScale_rawCsum K.endian f (54 + l4CsumOff p.nextHdr)).add
    ((byteScale_addrWords K src6).add (byteScale_addrWords K dst6))
  exact hnew.symm.trans (hscaled.trans hold)

end Wire

/-! ## The frames that result -/

theorem two_dvd_l4CsumOff (protocol : UInt8) : 2 ∣ l4CsumOff protocol := by
  unfold l4CsumOff
  split <;> decide

/-- The frame that `toIpv6` leaves, with the checksum in wire order. -/
def toIpv6Frame (f : Frame) (p : ToIpv6) (c : UInt16) : Frame :=
  f.take 14 ++ (ipv6Header p ++ splice (f.drop 34) (l4CsumOff p.protocol) (u16ToBe c))

/-- The frame that `toIpv4` leaves. -/
def toIpv4Frame (K : Kernel) (f : Frame) (p : ToIpv4) (c : UInt16) : Frame :=
  f.take 14 ++ (ipv4Header K p ++ splice (f.drop 54) (l4CsumOff p.nextHdr) (u16ToBe c))

/-- Two frames have the same datagram but for the checksum. -/
structure SameDatagram (f : Frame) (off : ℕ) (g : Frame) (off' csumOff : ℕ) : Prop where
  bytes : ∀ i, i ≠ csumOff → i ≠ csumOff + 1 → g[off' + i]? = f[off + i]?
  body : ∀ len, bodySum g off' csumOff len = bodySum f off csumOff len

theorem SameDatagram.halfBe_eq {f g : Frame} {off off' csumOff k : ℕ}
    (h : SameDatagram f off g off' csumOff) (hk : k + 2 ≤ csumOff) :
    halfBe g (off' + k) = halfBe f (off + k) := by
  have h₀ := h.bytes k (by omega) (by omega)
  have h₁ := h.bytes (k + 1) (by omega) (by omega)
  simp only [halfBe, List.getD_eq_getElem?_getD, Nat.add_assoc, h₀, h₁]

section Results

variable {f : Frame}

/-- The datagram behind a new header. -/
private theorem sameDatagram_behind {pre : List UInt8} {off off' csumOff : ℕ} {c : UInt16}
    (hpre : pre.length = off') (hlen : off + csumOff + 2 ≤ f.length) :
    SameDatagram f off (pre ++ splice (f.drop off) csumOff (u16ToBe c)) off' csumOff ∧
      halfBe (pre ++ splice (f.drop off) csumOff (u16ToBe c)) (off' + csumOff) = c := by
  have hfit : csumOff + (u16ToBe c).length ≤ (f.drop off).length := by
    rw [length_u16ToBe, List.length_drop]
    omega
  refine ⟨⟨fun i hne hne' => ?_, fun len => bodySum_splice hpre (length_u16ToBe c) hlen⟩, ?_⟩
  · rw [List.getElem?_append_right (by omega), hpre, Nat.add_sub_cancel_left,
      getElem?_splice_of_outside hfit (by rw [length_u16ToBe]; omega), List.getElem?_drop]
  · have h₀ : (splice (f.drop off) csumOff (u16ToBe c)).getD csumOff 0 = (u16ToBe c).getD 0 0 :=
      getD_splice (i := 0) hfit (by simp)
    have h₁ : (splice (f.drop off) csumOff (u16ToBe c)).getD (csumOff + 1) 0 =
        (u16ToBe c).getD 1 0 := getD_splice hfit (by simp)
    rw [halfBe_behind hpre csumOff rfl, halfBe, h₀, h₁]
    exact u16OfBe_bytes c

theorem sameDatagram_toIpv6Frame {p : ToIpv6} (c : UInt16)
    (hlen : 34 + l4CsumOff p.protocol + 2 ≤ f.length) :
    SameDatagram f 34 (toIpv6Frame f p c) 54 (l4CsumOff p.protocol) ∧
      halfBe (toIpv6Frame f p c) (54 + l4CsumOff p.protocol) = c := by
  have hpre : (f.take 14 ++ ipv6Header p).length = 54 := by
    rw [List.length_append, length_ipv6Header, List.length_take]
    omega
  rw [toIpv6Frame, ← List.append_assoc]
  exact sameDatagram_behind hpre hlen

theorem sameDatagram_toIpv4Frame (K : Kernel) {p : ToIpv4} (c : UInt16)
    (hlen : 54 + l4CsumOff p.nextHdr + 2 ≤ f.length) :
    SameDatagram f 54 (toIpv4Frame K f p c) 34 (l4CsumOff p.nextHdr) ∧
      halfBe (toIpv4Frame K f p c) (34 + l4CsumOff p.nextHdr) = c := by
  have hpre : (f.take 14 ++ ipv4Header K p).length = 34 := by
    rw [List.length_append, ipv4Header, length_ipv4HeaderWith K p (by simp), List.length_take]
    omega
  rw [toIpv4Frame, ← List.append_assoc]
  exact sameDatagram_behind hpre hlen

/-- The header fields of the new IPv6 frame. -/
structure Ipv6Fields (p : ToIpv6) (g : Frame) : Prop where
  version : g.getD 14 0 = 0x60
  payloadLen : halfBe g 18 = p.payloadLen
  nextHdr : g.getD 20 0 = p.protocol
  hopLimit : g.getD 21 0 = p.hopLimit
  src : ipv6Src g = p.srcIpv6
  dst : ipv6Dst g = p.dstIpv6

theorem ipv6Fields_toIpv6Frame (p : ToIpv6) (c : UInt16) (hlen : 14 ≤ f.length) :
    Ipv6Fields p (toIpv6Frame f p c) := by
  have heth : (f.take 14).length = 14 := by
    rw [List.length_take]
    omega
  refine ⟨getD_behind heth 0 rfl, ?_, getD_behind heth 6 rfl, getD_behind heth 7 rfl,
    ipv6Src_header p heth, ipv6Dst_header p heth⟩
  exact (halfBe_behind heth 4 rfl).trans (u16OfBe_bytes _)

/-- The header fields of the new IPv4 frame. -/
structure Ipv4Fields (p : ToIpv4) (src dst : UInt32) (g : Frame) : Prop where
  verIhl : g.getD 14 0 = 0x45
  totLen : ipv4TotLen g = p.totalLen
  ttl : ipv4Ttl g = p.hopLimit
  protocol : ipv4Protocol g = p.nextHdr
  src : ipv4Src g = src
  dst : ipv4Dst g = dst
  header : fold (wordSum ((g.drop 14).take 20)) = 65535

theorem ipv4Fields_toIpv4Frame {K : Kernel} {p : ToIpv4} (src dst : UInt32)
    (hsrcRaw : p.srcRaw = be32 K src) (hdstRaw : p.dstRaw = be32 K dst) (hsrc : p.srcIpv4 = src)
    (hdst : p.dstIpv4 = dst) (c : UInt16) (hlen : 14 ≤ f.length) :
    Ipv4Fields p src dst (toIpv4Frame K f p c) := by
  have heth : (f.take 14).length = 14 := by
    rw [List.length_take]
    omega
  rw [toIpv4Frame, ipv4Header_eq K p hsrcRaw hdstRaw]
  refine ⟨getD_behind heth 0 rfl, (halfBe_behind heth 2 rfl).trans (u16OfBe_bytes _),
    getD_behind heth 8 rfl, getD_behind heth 9 rfl,
    (wordBe_behind heth 12 rfl).trans (u32OfBe_bytes _),
    (wordBe_behind heth 16 rfl).trans (u32OfBe_bytes _), ?_⟩
  rw [List.drop_left' heth, List.take_left' (by simp), ToIpv4.hdrCsum, hsrc, hdst]
  exact header_verifies _ _ _ _ _

/-- When the checksum makes up for the difference of the addresses, one sum vanishes exactly if
the other does. -/
private theorem vanishes_iff {addrs addrs' t body csum csum' : ℕ}
    (h : csum' + addrs' ≡ csum + addrs [MOD 65535]) :
    addrs' + t + (body + csum') ≡ 0 [MOD 65535] ↔ addrs + t + (body + csum) ≡ 0 [MOD 65535] := by
  have hsums : addrs' + t + (body + csum') ≡ addrs + t + (body + csum) [MOD 65535] :=
    calc addrs' + t + (body + csum') = csum' + addrs' + (t + body) := by ring
      _ ≡ csum + addrs + (t + body) [MOD 65535] := h.add_right _
      _ = addrs + t + (body + csum) := by ring
  exact ⟨hsums.symm.trans, hsums.trans⟩

/-- **To IPv6 and valid**: exactly if it was. -/
theorem l4Valid6_iff {p : ToIpv6} {c len : UInt16}
    (hproto : p.protocol = IPPROTO_TCP ∨ p.protocol = IPPROTO_UDP)
    (hsame : ipv4Protocol f = p.protocol) (hlen : 34 + l4CsumOff p.protocol + 2 ≤ f.length)
    (hcover : l4CsumOff p.protocol + 2 ≤ len.toNat)
    (hc : c.toNat + addrSum6 p.srcIpv6 p.dstIpv6 ≡ (halfBe f (34 + l4CsumOff p.protocol)).toNat +
      addrSum4 (ipv4Src f) (ipv4Dst f) [MOD 65535]) :
    L4Valid6 (toIpv6Frame f p c) len ↔ L4Valid4 f len := by
  have hne : p.protocol ≠ 0 := by
    rcases hproto with h | h <;> rw [h] <;> decide
  obtain ⟨hdatagram, hcsum⟩ := sameDatagram_toIpv6Frame c hlen
  have hfields := ipv6Fields_toIpv6Frame p c (show 14 ≤ f.length by omega)
  have hlength : 54 + l4CsumOff p.protocol + 2 ≤ (toIpv6Frame f p c).length := by
    have hfit : l4CsumOff p.protocol + (u16ToBe c).length ≤ (f.drop 34).length := by
      rw [length_u16ToBe, List.length_drop]
      omega
    rw [toIpv6Frame, List.length_append, List.length_append, length_ipv6Header, List.length_take,
      length_splice hfit, List.length_drop]
    omega
  rw [l4Valid6_iff_modEq (by rw [hfields.nextHdr]; exact hne),
    l4Valid4_iff_modEq (by rw [hsame]; exact hne), hfields.src, hfields.dst, hfields.nextHdr, hsame,
    wordSum_datagram (two_dvd_l4CsumOff _) hcover hlength,
    wordSum_datagram (two_dvd_l4CsumOff _) hcover hlen, hcsum, hdatagram.body]
  exact vanishes_iff hc

/-- **To IPv4 and valid**: exactly if it was. -/
theorem l4Valid4_iff {K : Kernel} {p : ToIpv4} {src dst : UInt32} {c len : UInt16}
    (hfields : Ipv4Fields p src dst (toIpv4Frame K f p c))
    (hproto : p.nextHdr = IPPROTO_TCP ∨ p.nextHdr = IPPROTO_UDP) (hsame : f.getD 20 0 = p.nextHdr)
    (hlen : 54 + l4CsumOff p.nextHdr + 2 ≤ f.length) (hcover : l4CsumOff p.nextHdr + 2 ≤ len.toNat)
    (hc : c.toNat + addrSum4 src dst ≡ (halfBe f (54 + l4CsumOff p.nextHdr)).toNat +
      addrSum6 (ipv6Src f) (ipv6Dst f) [MOD 65535]) :
    L4Valid4 (toIpv4Frame K f p c) len ↔ L4Valid6 f len := by
  have hne : p.nextHdr ≠ 0 := by
    rcases hproto with h | h <;> rw [h] <;> decide
  obtain ⟨hdatagram, hcsum⟩ := sameDatagram_toIpv4Frame K c hlen
  have hlength : 34 + l4CsumOff p.nextHdr + 2 ≤ (toIpv4Frame K f p c).length := by
    have hfit : l4CsumOff p.nextHdr + (u16ToBe c).length ≤ (f.drop 54).length := by
      rw [length_u16ToBe, List.length_drop]
      omega
    rw [toIpv4Frame, List.length_append, List.length_append, ipv4Header,
      length_ipv4HeaderWith K p (by simp), List.length_take, length_splice hfit, List.length_drop]
    omega
  rw [l4Valid4_iff_modEq (by rw [hfields.protocol]; exact hne),
    l4Valid6_iff_modEq (by rw [hsame]; exact hne), hfields.src, hfields.dst, hfields.protocol, hsame,
    wordSum_datagram (two_dvd_l4CsumOff _) hcover hlength,
    wordSum_datagram (two_dvd_l4CsumOff _) hcover hlen, hcsum, hdatagram.body]
  exact vanishes_iff hc

end Results

end K3rs.Ebpf
