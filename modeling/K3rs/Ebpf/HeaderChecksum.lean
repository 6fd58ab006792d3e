import K3rs.Ebpf.RoundTrip

/-!
# The IPv4 header checksum, computed twice

The eBPF translators compute the checksum of a header they are about to write, from its fields and
with a fixed number of folds (`ipv4_hdr_csum`).  The userspace switch computes it over the bytes of
a header, word by word, and folds until no carry is left (`ipv4_checksum`).  They agree
(`ipv4_header_checksum`).

* A sum of nonzero words is folded to the representative of its residue class in `1 .. 65535`, so
  however the folding is done, the outcome is the same (`eq_of_modEq`).
* A nonzero sum has one complement that is not `0xffff`, and this is the checksum that both return.
-/

namespace K3rs.MacSwitch

open Wire OnesComplement K3rs.Ebpf

/-! ## The checksum of the switch -/

/-- The loop `while sum > 0xffff`. -/
def foldCarries (sum : UInt32) : UInt32 :=
  if 0xffff < sum then foldCarries ((sum &&& (0xFFFF : UInt32)) + sum >>> 16) else sum
termination_by sum.toNat
decreasing_by
  rename_i h
  have hlt : (65535 : ℕ) < sum.toNat := UInt32.lt_iff_toNat_lt.mp h
  rw [fold_step_toNat, carry]
  omega

/-- The word of a header at `i`; the last byte of an odd header is padded. -/
def headerWord (header : List UInt8) (i : ℕ) : UInt16 :=
  if i + 1 < header.length then u16OfBe (header.getD i 0) (header.getD (i + 1) 0)
  else u16OfBe (header.getD i 0) 0

/-- The sum of `ipv4_checksum`: the checksum field, at byte 10, is skipped. -/
def headerSum (header : List UInt8) : UInt32 :=
  (List.range' 0 ((header.length + 1) / 2) 2).foldl
    (fun sum i => if i = 10 then sum else sum + (headerWord header i).toUInt32) 0

/-- `ipv4_checksum`. -/
def ipv4Checksum (header : List UInt8) : UInt16 := ~~~ (foldCarries (headerSum header)).toUInt16

/-! ## The loop -/

theorem foldCarries_lt (sum : UInt32) : (foldCarries sum).toNat < 65536 := by
  induction sum using foldCarries.induct with
  | case1 sum h ih =>
      rw [foldCarries, if_pos h]
      exact ih
  | case2 sum h =>
      have hle : ¬ (65535 : ℕ) < sum.toNat := fun hlt => h (UInt32.lt_iff_toNat_lt.mpr hlt)
      rw [foldCarries, if_neg h]
      omega

theorem foldCarries_modEq (sum : UInt32) : (foldCarries sum).toNat ≡ sum.toNat [MOD 65535] := by
  induction sum using foldCarries.induct with
  | case1 sum h ih =>
      rw [foldCarries, if_pos h]
      refine ih.trans ?_
      rw [fold_step_toNat]
      exact carry_modEq _
  | case2 sum h => rw [foldCarries, if_neg h]

theorem foldCarries_pos {sum : UInt32} (hpos : 0 < sum.toNat) : 0 < (foldCarries sum).toNat := by
  induction sum using foldCarries.induct with
  | case1 sum h ih =>
      rw [foldCarries, if_pos h]
      refine ih ?_
      rw [fold_step_toNat]
      exact carry_pos hpos
  | case2 sum h =>
      rw [foldCarries, if_neg h]
      exact hpos

end K3rs.MacSwitch

namespace K3rs.Ebpf

open Wire Net OnesComplement

/-! ## One header, two checksums -/

/-- The 20 bytes of a header with the given fields. -/
def headerBytes (totalLen : UInt16) (ttl proto : UInt8) (src dst : UInt32) (csum : UInt16) :
    List UInt8 :=
  [0x45, 0] ++ (u16ToBe totalLen ++ ([0, 0, 0x40, 0, ttl, proto] ++
    (u16ToBe csum ++ (u32ToBe src ++ u32ToBe dst))))

section Header

variable (totalLen : UInt16) (ttl proto : UInt8) (src dst : UInt32)

/-- What the IPv4 translators settle on a packet with these fields. -/
def packetOf (K : Kernel) (srcV6 dstV6 : AddrWords) : ToIpv4 where
  srcV6 := srcV6
  dstV6 := dstV6
  payloadLen := totalLen - UInt16.ofNat IPV4_HDR_LEN
  nextHdr := proto
  hopLimit := ttl
  srcIpv4 := src
  dstIpv4 := dst
  srcRaw := be32 K src
  dstRaw := be32 K dst

theorem hdrSum_pos : 0 < hdrSum totalLen ttl proto src dst := by
  unfold hdrSum
  omega

theorem totalLen_packetOf (K : Kernel) (srcV6 dstV6 : AddrWords) :
    (packetOf totalLen ttl proto src dst K srcV6 dstV6).totalLen = totalLen :=
  UInt16.sub_add_cancel _ _

/-- The sum of 16-bit words does not overflow while there are few of them. -/
private theorem add_word_toNat {s : UInt32} {n : ℕ} (w : UInt16) (hs : s.toNat = n)
    (h : n + w.toNat < 2 ^ 32) : (s + w.toUInt32).toNat = n + w.toNat := by
  rw [UInt32.toNat_add, UInt16.toNat_toUInt32, hs, Nat.mod_eq_of_lt h]

/-- The switch sums the same nine words. -/
theorem headerSum_toNat (csum : UInt16) :
    (MacSwitch.headerSum (headerBytes totalLen ttl proto src dst csum)).toNat =
      hdrSum totalLen ttl proto src dst := by
  have hwords := wordSum_header totalLen 0 ttl proto src dst
  have hlt := hdrSum_lt totalLen ttl proto src dst
  have hsum : MacSwitch.headerSum (headerBytes totalLen ttl proto src dst csum) =
      0 + (u16OfBe 0x45 0).toUInt32 + (u16OfBe (u16Byte totalLen 0) (u16Byte totalLen 1)).toUInt32 +
        (u16OfBe 0 0).toUInt32 + (u16OfBe 0x40 0).toUInt32 + (u16OfBe ttl proto).toUInt32 +
        (u16OfBe (u32Byte src 0) (u32Byte src 1)).toUInt32 +
        (u16OfBe (u32Byte src 2) (u32Byte src 3)).toUInt32 +
        (u16OfBe (u32Byte dst 0) (u32Byte dst 1)).toUInt32 +
        (u16OfBe (u32Byte dst 2) (u32Byte dst 3)).toUInt32 := by
    have hlen : (headerBytes totalLen ttl proto src dst csum).length = 20 := by simp [headerBytes]
    rw [MacSwitch.headerSum, hlen]
    rfl
  have htotal : 0 + (u16OfBe 0x45 0).toNat +
      (u16OfBe (u16Byte totalLen 0) (u16Byte totalLen 1)).toNat + (u16OfBe 0 0).toNat +
      (u16OfBe 0x40 0).toNat + (u16OfBe ttl proto).toNat +
      (u16OfBe (u32Byte src 0) (u32Byte src 1)).toNat +
      (u16OfBe (u32Byte src 2) (u32Byte src 3)).toNat +
      (u16OfBe (u32Byte dst 0) (u32Byte dst 1)).toNat +
      (u16OfBe (u32Byte dst 2) (u32Byte dst 3)).toNat = hdrSum totalLen ttl proto src dst := by
    simp only [u16ToBe, u32ToBe, List.cons_append, List.nil_append, wordSum, UInt16.toNat_zero,
      Nat.add_zero] at hwords
    rw [← hwords]
    simp only [u16OfBe_toNat]
    have hzero : (u16Byte 0 0).toNat * 256 + (u16Byte 0 1).toNat = 0 := rfl
    rw [hzero]
    ring
  rw [hsum, ← htotal]
  rw [← htotal] at hlt
  refine add_word_toNat _ (add_word_toNat _ (add_word_toNat _ (add_word_toNat _ (add_word_toNat _
    (add_word_toNat _ (add_word_toNat _ (add_word_toNat _ (add_word_toNat _ rfl ?_) ?_) ?_) ?_) ?_)
      ?_) ?_) ?_) ?_
  all_goals omega

theorem foldCarries_headerSum (csum : UInt16) :
    (MacSwitch.foldCarries (MacSwitch.headerSum
      (headerBytes totalLen ttl proto src dst csum))).toNat =
        carry (carry (hdrSum totalLen ttl proto src dst)) := by
  have hlt := hdrSum_lt totalLen ttl proto src dst
  have hpos := hdrSum_pos totalLen ttl proto src dst
  have hsum := headerSum_toNat totalLen ttl proto src dst csum
  refine eq_of_modEq (MacSwitch.foldCarries_pos (hsum ▸ hpos)) (carry_pos (carry_pos hpos))
    (MacSwitch.foldCarries_lt _) (carry_carry_lt (by omega)) ?_
  calc (MacSwitch.foldCarries _).toNat
      ≡ (MacSwitch.headerSum (headerBytes totalLen ttl proto src dst csum)).toNat [MOD 65535] :=
        MacSwitch.foldCarries_modEq _
    _ = hdrSum totalLen ttl proto src dst := hsum
    _ ≡ carry (carry (hdrSum totalLen ttl proto src dst)) [MOD 65535] :=
        ((carry_modEq _).trans (carry_modEq _)).symm

/-- Of the checksums other than `0xffff`, one makes the header verify. -/
theorem fold_header_iff {c : UInt16} (hc : c ≠ 0xffff) :
    fold (wordSum (headerBytes totalLen ttl proto src dst c)) = 65535 ↔
      c = ipv4HdrCsum totalLen ttl proto src dst := by
  have hlt := hdrSum_lt totalLen ttl proto src dst
  have hpos := hdrSum_pos totalLen ttl proto src dst
  have hclt := c.toNat_lt
  have hne : c.toNat ≠ 65535 := fun h => hc (UInt16.toNat_inj.mp h)
  have hvalue := ipv4HdrCsum_toNat totalLen ttl proto src dst
  rw [headerBytes, wordSum_header, ← UInt16.toNat_inj, hvalue]
  generalize hdrSum totalLen ttl proto src dst = s at hlt hpos
  have hmod : carry (carry s) ≡ s [MOD 65535] := (carry_modEq _).trans (carry_modEq _)
  have hcarry : carry (carry s) < 65536 := carry_carry_lt (by omega)
  have hcarrypos : 0 < carry (carry s) := carry_pos (carry_pos hpos)
  rw [fold_eq_iff (by omega) (by omega)]
  unfold Nat.ModEq at hmod ⊢
  omega

theorem ipv4HdrCsum_ne : ipv4HdrCsum totalLen ttl proto src dst ≠ 0xffff := by
  intro h
  have hvalue := ipv4HdrCsum_toNat totalLen ttl proto src dst
  have hpos : 0 < carry (carry (hdrSum totalLen ttl proto src dst)) :=
    carry_pos (carry_pos (hdrSum_pos totalLen ttl proto src dst))
  rw [h, show (0xffff : UInt16).toNat = 65535 from rfl] at hvalue
  omega

/-- **One checksum.**  `ipv4_hdr_csum` is the one checksum other than `0xffff` for which the sum
over the header the translators write folds to all ones; two folds are enough, both when it is
computed and when it is verified; and `ipv4_checksum` returns it for these bytes. -/
theorem ipv4_header_checksum :
    (∀ (K : Kernel) (srcV6 dstV6 : AddrWords),
      ipv4Header K (packetOf totalLen ttl proto src dst K srcV6 dstV6) =
        headerBytes totalLen ttl proto src dst (ipv4HdrCsum totalLen ttl proto src dst)) ∧
    (∀ c, fold (wordSum (headerBytes totalLen ttl proto src dst c)) = 65535 ∧ c ≠ 0xffff ↔
      c = ipv4HdrCsum totalLen ttl proto src dst) ∧
    carry (carry (wordSum (headerBytes totalLen ttl proto src dst 0))) ≤ 0xffff ∧
    carry (carry (wordSum (headerBytes totalLen ttl proto src dst
      (ipv4HdrCsum totalLen ttl proto src dst)))) = 0xffff ∧
    MacSwitch.ipv4Checksum (headerBytes totalLen ttl proto src dst
      (ipv4HdrCsum totalLen ttl proto src dst)) = ipv4HdrCsum totalLen ttl proto src dst := by
  have hlt := hdrSum_lt totalLen ttl proto src dst
  have hne := ipv4HdrCsum_ne totalLen ttl proto src dst
  refine ⟨fun K srcV6 dstV6 => ?_, fun c => ?_, ?_, ?_, ?_⟩
  · rw [ipv4Header_eq K _ rfl rfl, ToIpv4.hdrCsum, totalLen_packetOf]
    rfl
  · constructor
    · rintro ⟨hfold, hc⟩
      exact (fold_header_iff _ _ _ _ _ hc).mp hfold
    · rintro rfl
      exact ⟨(fold_header_iff _ _ _ _ _ hne).mpr rfl, hne⟩
  · rw [headerBytes, wordSum_header]
    exact Nat.le_of_lt_succ (carry_carry_lt (by simp only [UInt16.toNat_zero]; omega))
  · have hfold := (fold_header_iff totalLen ttl proto src dst hne).mpr rfl
    rw [headerBytes, wordSum_header] at hfold ⊢
    exact carry_carry_eq (by have := (ipv4HdrCsum totalLen ttl proto src dst).toNat_lt; omega) hfold
  · rw [MacSwitch.ipv4Checksum, ← UInt16.toNat_inj, UInt16.toNat_not, UInt32.toNat_toUInt16,
      foldCarries_headerSum, ipv4HdrCsum_toNat, Nat.mod_eq_of_lt (carry_carry_lt (by omega))]
    rfl

end Header

end K3rs.Ebpf
