import K3rs.Ebpf.UdpChecksum

/-!
# What the sixteen updates add up to

`csum_4to6` and `csum_6to4` change a checksum field in eight updates each, with words in the byte
order of the host, paired as it happens to be convenient.  An update takes one word away and adds
another one, modulo 65535, so only the sum of all words counts, not their order or their pairing
(`updateAll_modEq`, `updateAll_perm`); and the byte order of the host multiplies both sides of the
congruence by the same number (`byteScale`).

After a zero has been filled in, the field is not `0xffff`, and no update makes it so again
(`updateAll_lt`).  That is why the way there and back is exact, but for the second representation
of zero (`checksum_deltas`).
-/

namespace K3rs.Ebpf

open Wire Net Effects OnesComplement

/-! ## The steps -/

/-- The context with another checksum, a raw word, in the field at `off`. -/
def withCsum (K : Kernel) (ctx : TcContext) (off : ℕ) (c : UInt16) : TcContext :=
  { ctx with frame := splice ctx.frame off (u16ToNe K.endian c) }

/-- The eight steps of `csum_4to6`. -/
def steps4to6 (s4 d4 : UInt32) (s6 d6 : AddrWords) : List (UInt32 × UInt32) :=
  [(s4, s6.w₀), (0, s6.w₁), (0, s6.w₂), (0, s6.w₃), (d4, d6.w₀), (0, d6.w₁), (0, d6.w₂), (0, d6.w₃)]

/-- The eight steps of `csum_6to4`. -/
def steps6to4 (s6 d6 : AddrWords) (s4 d4 : UInt32) : List (UInt32 × UInt32) :=
  [(s6.w₀, s4), (s6.w₁, 0), (s6.w₂, 0), (s6.w₃, 0), (d6.w₀, d4), (d6.w₁, 0), (d6.w₂, 0), (d6.w₃, 0)]

/-- The address sum of an IPv4 pseudo header, from the bytes of its words in memory. -/
def pseudoSum4 (K : Kernel) (s4 d4 : UInt32) : ℕ :=
  wordSum (u32ToNe K.endian s4) + wordSum (u32ToNe K.endian d4)

/-- The address sum of an IPv6 pseudo header, from the bytes of its words in memory. -/
def pseudoSum6 (K : Kernel) (s6 d6 : AddrWords) : ℕ :=
  addrSum6 (wordsAddr K s6) (wordsAddr K d6)

section Steps

variable {K : Kernel}

theorem rawCsum_withCsum {ctx : TcContext} {off : ℕ} (c : UInt16) (h : off + 2 ≤ ctx.frame.length) :
    rawCsum K.endian (withCsum K ctx off c).frame off = c :=
  rawCsum_splice c h

theorem length_withCsum {ctx : TcContext} {off : ℕ} (c : UInt16) (h : off + 2 ≤ ctx.frame.length) :
    (withCsum K ctx off c).frame.length = ctx.frame.length :=
  length_splice (by simpa using h)

/-- Several updates write what they come to. -/
theorem exec_csumReplaceAll_plain (hK : K.UpdatesPlainly) {off : ℕ}
    (steps : List (UInt32 × UInt32)) :
    ∀ ctx : TcContext, off + 2 ≤ ctx.frame.length →
      exec (csumReplaceAll K off steps) ctx =
        (.ok (), withCsum K ctx off (updateAll (rawCsum K.endian ctx.frame off) steps)) := by
  induction steps with
  | nil =>
      intro ctx h
      show (Except.ok (), ctx) = (Except.ok (), withCsum K ctx off (rawCsum K.endian ctx.frame off))
      rw [withCsum, splice_rawCsum h]
  | cons step rest ih =>
      intro ctx h
      have hfirst : exec (l4CsumReplace K off step.1 step.2) ctx =
          (.ok (), withCsum K ctx off (update (rawCsum K.endian ctx.frame off) step.1 step.2)) :=
        exec_onFrame (hK.plain _ _ _ _ h)
      rw [csumReplaceAll, exec_bind_ok hfirst, ih _ (by rwa [length_withCsum _ h]),
        rawCsum_withCsum _ h, withCsum, withCsum,
        splice_splice_self (by simp) (by simpa [withCsum] using h)]
      rfl

end Steps

/-! ## Sums -/

section Sums

variable (K : Kernel)

/-- A raw word has its bytes in memory. -/
theorem exists_raw (x : UInt32) : ∃ b₀ b₁ b₂ b₃, x = u32OfNe K.endian b₀ b₁ b₂ b₃ := by
  have hbytes := (u32OfNe_eq_swapToBe K.endian _ _ _ _ (be32 K x)).mpr (u32OfBe_bytes _)
  have hx : u32SwapToBe K.endian (be32 K x) = x := u32SwapToBe_involutive K.endian x
  exact ⟨_, _, _, _, hx.symm.trans hbytes.symm⟩

/-- Raw words are determined by their address. -/
theorem addrWords_wordsAddr (w : AddrWords) : addrWords K (wordsAddr K w) = w := by
  obtain ⟨w₀, w₁, w₂, w₃⟩ := w
  obtain ⟨_, _, _, _, rfl⟩ := exists_raw K w₀
  obtain ⟨_, _, _, _, rfl⟩ := exists_raw K w₁
  obtain ⟨_, _, _, _, rfl⟩ := exists_raw K w₂
  obtain ⟨_, _, _, _, rfl⟩ := exists_raw K w₃
  unfold addrWords wordsAddr Ipv6Addr.octet
  simp only [u32ToNe_ofNe]
  rfl

/-- The bytes of a raw word, summed, are the word on another scale. -/
theorem byteScale_raw (x : UInt32) :
    byteScale K.endian * x.toNat ≡ wordSum (u32ToNe K.endian x) [MOD 65535] := by
  obtain ⟨b₀, b₁, b₂, b₃, rfl⟩ := exists_raw K x
  rw [u32ToNe_ofNe]
  exact byteScale_u32 _ _ _ _ _

theorem byteScale_pseudoSum4 (s4 d4 : UInt32) :
    byteScale K.endian * (s4.toNat + d4.toNat) ≡ pseudoSum4 K s4 d4 [MOD 65535] := by
  rw [Nat.mul_add]
  exact (byteScale_raw K s4).add (byteScale_raw K d4)

theorem byteScale_pseudoSum6 (s6 d6 : AddrWords) :
    byteScale K.endian * (s6.sum + d6.sum) ≡ pseudoSum6 K s6 d6 [MOD 65535] := by
  have hs := byteScale_addrWords K (wordsAddr K s6)
  have hd := byteScale_addrWords K (wordsAddr K d6)
  rw [addrWords_wordsAddr] at hs hd
  rw [Nat.mul_add]
  exact hs.add hd

theorem updateAll_steps4to6 (hc : UInt16) (s4 d4 : UInt32) (s6 d6 : AddrWords) :
    (updateAll hc (steps4to6 s4 d4 s6 d6)).toNat + (s6.sum + d6.sum) ≡
      hc.toNat + (s4.toNat + d4.toNat) [MOD 65535] := by
  have h := updateAll_modEq (steps4to6 s4 d4 s6 d6) hc
  simpa only [steps4to6, AddrWords.sum, List.map_cons, List.map_nil, List.sum_cons, List.sum_nil,
    UInt32.toNat_zero, Nat.zero_add, Nat.add_zero, Nat.add_assoc] using h

theorem updateAll_steps6to4 (hc : UInt16) (s6 d6 : AddrWords) (s4 d4 : UInt32) :
    (updateAll hc (steps6to4 s6 d6 s4 d4)).toNat + (s4.toNat + d4.toNat) ≡
      hc.toNat + (s6.sum + d6.sum) [MOD 65535] := by
  have h := updateAll_modEq (steps6to4 s6 d6 s4 d4) hc
  simpa only [steps6to4, AddrWords.sum, List.map_cons, List.map_nil, List.sum_cons, List.sum_nil,
    UInt32.toNat_zero, Nat.zero_add, Nat.add_zero, Nat.add_assoc] using h

/-- Congruent raw checksums are congruent on the wire. -/
theorem be16_modEq {c c' : UInt16} (h : c.toNat ≡ c'.toNat [MOD 65535]) :
    (be16 K c).toNat ≡ (be16 K c').toNat [MOD 65535] :=
  ((byteScale_swap K.endian c).symm.trans (h.mul_left _)).trans (byteScale_swap K.endian c')

end Sums

/-- The representation of a checksum that is not `0xffff`. -/
theorem eq_of_modEq_of_lt {c c₀ : UInt16} (h : c.toNat ≡ c₀.toNat [MOD 65535])
    (hlt : c.toNat < 65535) : c = if c₀ = 0xffff then 0 else c₀ := by
  have hc₀ := c₀.toNat_lt
  unfold Nat.ModEq at h
  rw [← UInt16.toNat_inj]
  split_ifs with heq
  · rw [heq, show (0xffff : UInt16).toNat = 65535 from rfl] at h
    rw [UInt16.toNat_zero]
    omega
  · have hne : c₀.toNat ≠ 65535 := fun hval => heq (UInt16.toNat_inj.mp hval)
    omega

/-- **Checksum deltas.**  On the wire, `csum_4to6` changes the checksum by the difference of the
two address sums.  `csum_6to4` with the same words restores it, where `0xffff` comes back as `0`.
The eight steps of either may be made in any order. -/
theorem checksum_deltas {K : Kernel} (hK : K.UpdatesPlainly) {off : ℕ} {ctx : TcContext}
    (h : off + 2 ≤ ctx.frame.length) (s4 d4 : UInt32) (s6 d6 : AddrWords) :
    let c₀ := rawCsum K.endian ctx.frame off
    let c := updateAll c₀ (steps4to6 s4 d4 s6 d6)
    let c' := updateAll c₀ (steps6to4 s6 d6 s4 d4)
    exec (csum4to6 K off s4 d4 s6 d6) ctx = (.ok (), withCsum K ctx off c) ∧
    exec (csum6to4 K off s6 d6 s4 d4) ctx = (.ok (), withCsum K ctx off c') ∧
    (be16 K c).toNat + pseudoSum6 K s6 d6 ≡ (be16 K c₀).toNat + pseudoSum4 K s4 d4 [MOD 65535] ∧
    exec (csum6to4 K off s6 d6 s4 d4) (withCsum K ctx off c) =
      (.ok (), withCsum K ctx off (if c₀ = 0xffff then 0 else c₀)) ∧
    (∀ steps : List (UInt32 × UInt32), steps.Perm (steps4to6 s4 d4 s6 d6) →
      ∃ r : UInt16, exec (csumReplaceAll K off steps) ctx = (.ok (), withCsum K ctx off r) ∧
        (be16 K r).toNat ≡ (be16 K c).toNat [MOD 65535]) ∧
    (∀ steps : List (UInt32 × UInt32), steps.Perm (steps6to4 s6 d6 s4 d4) →
      ∃ r : UInt16, exec (csumReplaceAll K off steps) ctx = (.ok (), withCsum K ctx off r) ∧
        (be16 K r).toNat ≡ (be16 K c').toNat [MOD 65535]) := by
  intro c₀ c c'
  have hthere : exec (csum4to6 K off s4 d4 s6 d6) ctx = (.ok (), withCsum K ctx off c) := by
    rw [csum4to6_eq]
    exact exec_csumReplaceAll_plain hK _ ctx h
  have hsum : c.toNat + (s6.sum + d6.sum) ≡ c₀.toNat + (s4.toNat + d4.toNat) [MOD 65535] :=
    updateAll_steps4to6 c₀ s4 d4 s6 d6
  have hback : (updateAll c (steps6to4 s6 d6 s4 d4)).toNat ≡ c₀.toNat [MOD 65535] :=
    Nat.ModEq.add_right_cancel' _ ((updateAll_steps6to4 c s6 d6 s4 d4).trans hsum)
  refine ⟨hthere, ?_, ?_, ?_, fun steps hperm => ?_, fun steps hperm => ?_⟩
  · rw [csum6to4_eq]
    exact exec_csumReplaceAll_plain hK _ ctx h
  · have hwire := hsum.mul_left (byteScale K.endian)
    rw [Nat.mul_add _ c.toNat, Nat.mul_add _ c₀.toNat] at hwire
    exact ((((byteScale_swap K.endian c).add (byteScale_pseudoSum6 K s6 d6)).symm.trans hwire).trans
      ((byteScale_swap K.endian c₀).add (byteScale_pseudoSum4 K s4 d4)))
  · -- the steps of `csum_4to6` fill in zeros
    have hlt : c.toNat < 65535 :=
      updateAll_lt _ (Or.inr ⟨(0, s6.w₁), by simp [steps4to6], rfl⟩)
    have hlen : off + 2 ≤ (withCsum K ctx off c).frame.length := by rwa [length_withCsum c h]
    rw [csum6to4_eq, exec_csumReplaceAll_plain hK _ _ hlen, rawCsum_withCsum c h, withCsum,
      withCsum, splice_splice_self (by simp) (by simpa using h),
      ← eq_of_modEq_of_lt hback (updateAll_lt _ (Or.inl hlt))]
    rfl
  · exact ⟨_, exec_csumReplaceAll_plain hK _ ctx h, be16_modEq K (updateAll_perm hperm c₀)⟩
  · exact ⟨_, exec_csumReplaceAll_plain hK _ ctx h, be16_modEq K (updateAll_perm hperm c₀)⟩

/-- Two bytes of a frame on a little-endian host. -/
theorem checksum_deltas_one :
    exec (csum4to6 (.linux .little) 0 1 2 ⟨1, 2, 3, 4⟩ ⟨5, 6, 7, 8⟩) ⟨[0x12, 0x34], {}⟩ =
      (.ok (), withCsum (.linux .little) ⟨[0x12, 0x34], {}⟩ 0
        (updateAll 0x3412 (steps4to6 1 2 ⟨1, 2, 3, 4⟩ ⟨5, 6, 7, 8⟩))) :=
  (checksum_deltas (Kernel.linux_updatesPlainly .little)
    (show 0 + 2 ≤ (⟨[0x12, 0x34], {}⟩ : TcContext).frame.length by decide) 1 2 ⟨1, 2, 3, 4⟩
      ⟨5, 6, 7, 8⟩).1

end K3rs.Ebpf
