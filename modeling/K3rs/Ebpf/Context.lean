import K3rs.Vpc.GhostIpv6
import K3rs.Lib.OnesComplement

/-!
# The setting of the TC classifiers

A TC program sees a frame, the shared BPF maps and its own `.rodata` globals,
and calls kernel helpers.  `Kernel` collects what is not in this repository: the
byte order of the host and the two helpers that rewrite a frame,
`bpf_skb_change_proto` and `bpf_l4_csum_replace`.  What the programs rely on
about them is stated as predicates on a `Kernel`, never built in.

`TcContext::load` is bounds checked and returns the word in host order, so a
program compares it with a constant converted by `to_be`; the header views
`etherType` and `addrAt` are the byte-order-free reading of the same bytes, and
`load16_etherType`, `isGhostPrefix_eq`, `extractVpcId_eq` and
`loadWords_eq` connect the two.
-/

namespace K3rs.Ebpf

open Wire Net

/-! ## Constants -/

def ETH_P_IP : UInt16 := 0x0800
def ETH_P_IPV6 : UInt16 := 0x86DD

/-- `EthHdr::LEN`. -/
def ETH_HDR_LEN : ℕ := 14
def IPV4_HDR_LEN : ℕ := 20
def IPV6_HDR_LEN : ℕ := 40

/-- Source address of the IPv6 header, as a frame offset. -/
def IPV6_SRC_ADDR_OFF : ℕ := ETH_HDR_LEN + 8

/-- Destination address of the IPv6 header, as a frame offset. -/
def IPV6_DST_ADDR_OFF : ℕ := ETH_HDR_LEN + 24

def IPPROTO_TCP : UInt8 := 6
def IPPROTO_UDP : UInt8 := 17

/-- `k3rs_vpc_common::GHOST_PREFIX`. -/
def GHOST_PREFIX : UInt32 := 0xfd6b3372

/-! ## Verdicts, maps, globals, kernel -/

/-- An Ethernet frame. -/
abbrev Frame := List UInt8

/-- What a classifier returns: `TC_ACT_OK`, `TC_ACT_SHOT`, or the result of one of
the redirect helpers, with the interface it was called on. -/
inductive Action where
  | ok
  | shot
  | redirect (ifindex : UInt32)
  | redirectPeer (ifindex : UInt32)
  deriving DecidableEq, Repr

/-- The verdict as the kernel sees it.  Called with flags 0, both redirect helpers
return `TC_ACT_REDIRECT`. -/
def Action.code : Action → ℤ
  | .ok => 0
  | .shot => 2
  | .redirect _ => 7
  | .redirectPeer _ => 7

/-- Key of `PEERINGS`: a directed pair of VPC ids. -/
structure PeeringKey where
  srcVpcId : UInt16
  dstVpcId : UInt16
  deriving DecidableEq, Repr

structure PeeringValue where
  allowed : UInt32
  deriving DecidableEq, Repr

structure EndpointKey where
  ghostIpv6 : Ipv6Addr
  deriving DecidableEq, Repr

structure EndpointValue where
  nkIfindex : UInt32
  deriving DecidableEq, Repr

/-- Key of `NAT64_CONNTRACK`. -/
structure Nat64Key where
  protocol : UInt8
  srcPort : UInt16
  dstIpv4 : UInt32
  dstPort : UInt16
  deriving DecidableEq, Repr

structure Nat64Value where
  srcIpv6 : Ipv6Addr
  deriving DecidableEq, Repr

structure Nat64Config where
  nodeIpv4 : UInt32
  physIfindex : UInt32
  deriving DecidableEq, Repr

/-- The shared pinned maps the programs read.  `nat64Config` is the single cell of
a BPF array. -/
structure Maps where
  peerings : PeeringKey → Option PeeringValue := fun _ => none
  endpoints : EndpointKey → Option EndpointValue := fun _ => none
  nat64Conntrack : Nat64Key → Option Nat64Value := fun _ => none
  nat64Config : Option Nat64Config := none

/-- The `.rodata` globals a pod's or VM's programs are loaded with. -/
structure Globals where
  myGhostIpv6 : Ipv6Addr
  myGuestIpv4 : UInt32
  myVpcId : UInt16
  myVpcNetwork : UInt32
  myVpcMask : UInt32
  myPlatformPrefix : UInt32
  myClusterId : UInt32

/-- What the programs take from the kernel they run in.  A helper that fails
returns `none` and leaves the frame alone. -/
structure Kernel where
  endian : Endian
  /-- `bpf_skb_change_proto(skb, proto, 0)`. -/
  changeProto : Frame → UInt16 → Option Frame
  /-- `bpf_l4_csum_replace(skb, offset, from, to, flags)`. -/
  l4CsumReplace : Frame → ℕ → UInt64 → UInt64 → UInt64 → Option Frame

/-! ## What the programs rely on -/

/-- `bpf_skb_change_proto` only resizes the L3 header, by 20 bytes: the 14 Ethernet
bytes and everything after the header stay.  What the resized header holds is left
open, since the programs overwrite it. -/
structure Kernel.ResizesL3 (K : Kernel) : Prop where
  eth : ∀ f proto f', K.changeProto f proto = some f' → f'.take 14 = f.take 14
  grow : ∀ f : Frame, 34 ≤ f.length → ∃ hdr : List UInt8, hdr.length = 40 ∧
    K.changeProto f ETH_P_IPV6 = some (f.take 14 ++ (hdr ++ f.drop 34))
  shrink : ∀ f : Frame, 54 ≤ f.length → ∃ hdr : List UInt8, hdr.length = 20 ∧
    K.changeProto f ETH_P_IP = some (f.take 14 ++ (hdr ++ f.drop 54))

/-- `BPF_F_PSEUDO_HDR | 4`: a four-byte field of the pseudo header. -/
def CSUM_FLAGS : UInt64 := 0x10 ||| 4

/-- The checksum field a frame holds at `off`, as a raw word. -/
def rawCsum (e : Endian) (f : Frame) (off : ℕ) : UInt16 :=
  u16OfNe e (f.getD off 0) (f.getD (off + 1) 0)

/-- `bpf_l4_csum_replace` writes the two checksum bytes and nothing else, and for a
four-byte field of the pseudo header it performs the RFC 1624 update on the raw
words, up to the two representations of zero. -/
structure Kernel.UpdatesL4Csum (K : Kernel) : Prop where
  bounded : ∀ f off m m' flags f', K.l4CsumReplace f off m m' flags = some f' →
    off + 2 ≤ f.length ∧ ∃ c, f' = splice f off (u16ToNe K.endian c)
  update : ∀ (f : Frame) (off : ℕ) (m m' : UInt32), off + 2 ≤ f.length →
    ∃ c : UInt16,
      K.l4CsumReplace f off m.toUInt64 m'.toUInt64 CSUM_FLAGS =
          some (splice f off (u16ToNe K.endian c)) ∧
        c.toNat ≡ (OnesComplement.update (rawCsum K.endian f off) m m').toNat [MOD 65535]

/-- The kernel as Linux implements the two helpers: the gap of a grown header is
zeroed, and both fail on a frame too short for the header they resize or the field
they update. -/
def Kernel.linux (e : Endian) : Kernel where
  endian := e
  changeProto f proto :=
    if proto = ETH_P_IPV6 then
      if 34 ≤ f.length then some (f.take 14 ++ (List.replicate 20 0 ++ f.drop 14)) else none
    else if proto = ETH_P_IP then
      if 54 ≤ f.length then some (f.take 14 ++ f.drop 34) else none
    else none
  l4CsumReplace f off m m' _ :=
    store f off (u16ToNe e (OnesComplement.update (rawCsum e f off) m.toUInt32 m'.toUInt32))

theorem Kernel.linux_resizesL3 (e : Endian) : (Kernel.linux e).ResizesL3 where
  eth f proto f' h := by
    simp only [Kernel.linux] at h
    split_ifs at h <;> cases h <;> simp [List.take_append, List.take_take] <;> omega
  grow f h := by
    refine ⟨List.replicate 20 0 ++ (f.drop 14).take 20, by simp; omega, ?_⟩
    have hsplit : f.drop 14 = (f.drop 14).take 20 ++ f.drop 34 := by
      conv_lhs => rw [← List.take_append_drop 20 (f.drop 14), List.drop_drop]
    simp only [Kernel.linux, if_true, if_pos h, List.append_assoc, ← hsplit]
  shrink f h := by
    refine ⟨(f.drop 34).take 20, by simp; omega, ?_⟩
    have hsplit : f.drop 34 = (f.drop 34).take 20 ++ f.drop 54 := by
      conv_lhs => rw [← List.take_append_drop 20 (f.drop 34), List.drop_drop]
    have hne : ETH_P_IP ≠ ETH_P_IPV6 := by decide
    simp only [Kernel.linux, if_neg hne, if_true, if_pos h, ← hsplit]

theorem Kernel.linux_updatesL4Csum (e : Endian) : (Kernel.linux e).UpdatesL4Csum where
  bounded f off m m' flags f' h := by
    obtain ⟨hlen, rfl⟩ := store_eq_some_iff.mp h
    exact ⟨by simpa using hlen, _, rfl⟩
  update f off m m' h := by
    refine ⟨OnesComplement.update (rawCsum e f off) m m', ?_, Nat.ModEq.rfl⟩
    have hlen : off + (u16ToNe e (OnesComplement.update (rawCsum e f off) m m')).length ≤
        f.length := by simpa using h
    simp only [Kernel.linux, UInt32.toUInt32_toUInt64]
    exact store_eq_some hlen

/-! ## Loads -/

/-- A bounds check as the `?` of the source: `Err(())` when it fails. -/
def orErr {α : Type} : Option α → Except Unit α
  | some a => .ok a
  | none => .error ()

@[simp] theorem orErr_some {α : Type} (a : α) : orErr (some a) = .ok a := rfl

@[simp] theorem orErr_none {α : Type} : orErr (none : Option α) = .error () := rfl

section Loads

variable (K : Kernel) (f : Frame)

/-- `ctx.load::<u8>`. -/
def load8 (off : ℕ) : Except Unit UInt8 := orErr (Wire.load8 f off)

/-- `ctx.load::<u16>`. -/
def load16 (off : ℕ) : Except Unit UInt16 := orErr (Wire.load16 K.endian f off)

/-- `ctx.load::<u32>`. -/
def load32 (off : ℕ) : Except Unit UInt32 := orErr (Wire.load32 K.endian f off)

/-- `x.to_be()` and `u16::from_be(x)`, the same function. -/
def be16 (x : UInt16) : UInt16 := u16SwapToBe K.endian x

/-- `x.to_be()` and `u32::from_be(x)`. -/
def be32 (x : UInt32) : UInt32 := u32SwapToBe K.endian x

/-- Four raw words of an IPv6 address. -/
structure AddrWords where
  w₀ : UInt32
  w₁ : UInt32
  w₂ : UInt32
  w₃ : UInt32
  deriving DecidableEq, Repr

/-- `addr_words`. -/
def addrWords (a : Ipv6Addr) : AddrWords where
  w₀ := u32OfNe K.endian (a.octet 0) (a.octet 1) (a.octet 2) (a.octet 3)
  w₁ := u32OfNe K.endian (a.octet 4) (a.octet 5) (a.octet 6) (a.octet 7)
  w₂ := u32OfNe K.endian (a.octet 8) (a.octet 9) (a.octet 10) (a.octet 11)
  w₃ := u32OfNe K.endian (a.octet 12) (a.octet 13) (a.octet 14) (a.octet 15)

/-- The four loads of an address. -/
def loadWords (off : ℕ) : Except Unit AddrWords := do
  let w₀ ← load32 K f off
  let w₁ ← load32 K f (off + 4)
  let w₂ ← load32 K f (off + 8)
  let w₃ ← load32 K f (off + 12)
  return ⟨w₀, w₁, w₂, w₃⟩

/-- The address whose raw words are `w`, by `to_ne_bytes` on each. -/
def wordsAddr (w : AddrWords) : Ipv6Addr :=
  ⟨u32ToNe K.endian w.w₀ ++ u32ToNe K.endian w.w₁ ++ u32ToNe K.endian w.w₂
    ++ u32ToNe K.endian w.w₃, by simp⟩

/-- `read_ipv6_addr`. -/
def readIpv6Addr (off : ℕ) : Except Unit Ipv6Addr := do
  let w ← loadWords K f off
  return wordsAddr K w

/-- `is_ghost_prefix`. -/
def isGhostPrefix (addrOffset : ℕ) : Except Unit Bool := do
  let prefixRaw ← load32 K f addrOffset
  return prefixRaw == be32 K GHOST_PREFIX

/-- `extract_vpc_id`. -/
def extractVpcId (addrOffset : ℕ) : Except Unit UInt16 := do
  let raw ← load16 K f (addrOffset + 10)
  return be16 K raw

end Loads

/-! ## Header views -/

/-- The ethertype of a frame, read most significant byte first. -/
def etherType (f : Frame) : UInt16 := u16OfBe (f.getD 12 0) (f.getD 13 0)

/-- The IPv6 address at an offset of a frame. -/
def addrAt (f : Frame) (off : ℕ) : Ipv6Addr := .ofBytes (f.drop off)

/-- The platform prefix field of an address. -/
def ghostPrefix (a : Ipv6Addr) : UInt32 :=
  u32OfBe (a.octet 0) (a.octet 1) (a.octet 2) (a.octet 3)

/-- The VPC id field of an address. -/
def ghostVpcId (a : Ipv6Addr) : UInt16 := u16OfBe (a.octet 10) (a.octet 11)

/-- Whether an address has the Ghost prefix. -/
def isGhost (a : Ipv6Addr) : Bool := ghostPrefix a == GHOST_PREFIX

/-- Both views are fields of `parse`. -/
theorem parse_fields {a : Ipv6Addr} {fields : GhostFields} (h : parse a = .ok fields) :
    fields.platformPrefix = ghostPrefix a ∧ fields.vpcId = ghostVpcId a := by
  simp only [parse, Except.ok.injEq] at h
  subst h
  exact ⟨rfl, rfl⟩

theorem octet_ofBytes {bytes : List UInt8} {i : ℕ} (hi : i < 16) :
    (Ipv6Addr.ofBytes bytes).octet i = bytes.getD i 0 := by
  simp only [Ipv6Addr.octet, Ipv6Addr.ofBytes, List.getD_eq_getElem?_getD]
  rw [List.getElem?_take_of_lt hi]
  by_cases h : i < bytes.length
  · rw [List.getElem?_append_left h]
  · rw [List.getElem?_append_right (by omega), List.getElem?_eq_none (by omega : bytes.length ≤ i),
      List.getElem?_replicate]
    split <;> rfl

theorem octet_addrAt (f : Frame) (off : ℕ) {i : ℕ} (hi : i < 16) :
    (addrAt f off).octet i = f.getD (off + i) 0 := by
  rw [addrAt, octet_ofBytes hi]
  simp [List.getD_eq_getElem?_getD]

/-- The address at the offset where its octets were put. -/
theorem addrAt_append (pre : List UInt8) (a : Ipv6Addr) (post : List UInt8) :
    addrAt (pre ++ (a.octets ++ post)) pre.length = a := by
  apply Ipv6Addr.ext
  simp [addrAt, Ipv6Addr.ofBytes, a.length_octets]

section Views

variable (K : Kernel) {f : Frame}

theorem load8_eq {off : ℕ} (h : off + 1 ≤ f.length) : load8 f off = .ok (f.getD off 0) := by
  rw [load8, Wire.load8_eq h, orErr_some]

theorem load16_eq {off : ℕ} (h : off + 2 ≤ f.length) :
    load16 K f off = .ok (u16OfNe K.endian (f.getD off 0) (f.getD (off + 1) 0)) := by
  rw [load16, Wire.load16_eq h, orErr_some]

theorem load32_eq {off : ℕ} (h : off + 4 ≤ f.length) :
    load32 K f off = .ok (u32OfNe K.endian (f.getD off 0) (f.getD (off + 1) 0)
      (f.getD (off + 2) 0) (f.getD (off + 3) 0)) := by
  rw [load32, Wire.load32_eq h, orErr_some]

/-- The ethertype test of every program, `load(12) == proto.to_be()`. -/
theorem load16_etherType (h : 14 ≤ f.length) :
    ∃ w, load16 K f 12 = .ok w ∧ ∀ proto, w = be16 K proto ↔ etherType f = proto :=
  ⟨_, load16_eq K h, fun proto => u16OfNe_eq_swapToBe K.endian _ _ proto⟩

theorem isGhostPrefix_eq {off : ℕ} (h : off + 4 ≤ f.length) :
    isGhostPrefix K f off = .ok (isGhost (addrAt f off)) := by
  have hiff : (u32OfNe K.endian (f.getD off 0) (f.getD (off + 1) 0) (f.getD (off + 2) 0)
      (f.getD (off + 3) 0) = be32 K GHOST_PREFIX) ↔ ghostPrefix (addrAt f off) = GHOST_PREFIX := by
    rw [be32, u32OfNe_eq_swapToBe, ghostPrefix, octet_addrAt f off (by omega),
      octet_addrAt f off (by omega), octet_addrAt f off (by omega),
      octet_addrAt f off (by omega)]
    rfl
  rw [isGhostPrefix, load32_eq K h]
  simp only [bind, Except.bind, pure, Except.pure, Except.ok.injEq, isGhost]
  rw [Bool.eq_iff_iff, beq_iff_eq, beq_iff_eq]
  exact hiff

theorem extractVpcId_eq {off : ℕ} (h : off + 12 ≤ f.length) :
    extractVpcId K f off = .ok (ghostVpcId (addrAt f off)) := by
  rw [extractVpcId, load16_eq K (by omega)]
  simp only [bind, Except.bind, pure, Except.pure, be16, u16SwapToBe_ofNe]
  rw [ghostVpcId, octet_addrAt f off (by omega), octet_addrAt f off (by omega), Nat.add_assoc]

theorem loadWords_eq {off : ℕ} (h : off + 16 ≤ f.length) :
    loadWords K f off = .ok (addrWords K (addrAt f off)) := by
  rw [loadWords, load32_eq K (by omega), load32_eq K (by omega), load32_eq K (by omega),
    load32_eq K (by omega)]
  have hoct : ∀ i, i < 16 → (addrAt f off).octet i = f.getD (off + i) 0 :=
    fun i hi => octet_addrAt f off hi
  simp only [bind, Except.bind, pure, Except.pure, addrWords]
  rw [hoct 0 (by omega), hoct 1 (by omega), hoct 2 (by omega), hoct 3 (by omega),
    hoct 4 (by omega), hoct 5 (by omega), hoct 6 (by omega), hoct 7 (by omega),
    hoct 8 (by omega), hoct 9 (by omega), hoct 10 (by omega), hoct 11 (by omega),
    hoct 12 (by omega), hoct 13 (by omega), hoct 14 (by omega), hoct 15 (by omega)]
  rfl

/-- An address is determined by its raw words. -/
@[simp] theorem wordsAddr_addrWords (a : Ipv6Addr) : wordsAddr K (addrWords K a) = a := by
  apply Ipv6Addr.ext
  rw [Ipv6Addr.octets_eq a]
  simp [wordsAddr, addrWords]

theorem addrWords_injective : Function.Injective (addrWords K) :=
  Function.LeftInverse.injective (wordsAddr_addrWords K)

theorem readIpv6Addr_eq {off : ℕ} (h : off + 16 ≤ f.length) :
    readIpv6Addr K f off = .ok (addrAt f off) := by
  rw [readIpv6Addr, loadWords_eq K h]
  simp only [bind, Except.bind, pure, Except.pure, wordsAddr_addrWords]

end Views

/-- **One format, shared by all components.**  Parsing a constructed address gives
its fields back; the valid addresses are the constructed ones; the three encoders
agree byte for byte; and the frame readers see the same prefix and VPC id as
`parse`, on hosts of either byte order. -/
theorem ghost_format_bijection :
    (∀ p c v ip, parse (construct p c v ip) = .ok ⟨p, 1, 0, c, v, ip⟩) ∧
    (∀ a p, validate a p = .ok () ↔ ∃! fields : UInt32 × UInt16 × Ipv4Addr,
      a = construct p fields.1 fields.2.1 fields.2.2) ∧
    (∀ p c v ip, constructGhostIpv6 p c v ip.bits = construct p c v ip) ∧
    (∀ p c v ip, DnsServer.constructGhostIpv6 p c v ip.octets = some (construct p c v ip)) ∧
    (∀ (K : Kernel) (pre post : List UInt8) (a : Ipv6Addr),
      ∃ fields, parse a = .ok fields ∧
        isGhostPrefix K (pre ++ (a.octets ++ post)) pre.length =
            .ok (fields.platformPrefix == GHOST_PREFIX) ∧
          extractVpcId K (pre ++ (a.octets ++ post)) pre.length = .ok fields.vpcId) := by
  refine ⟨parse_construct, validate_ok_iff, constructGhostIpv6_eq,
    DnsServer.constructGhostIpv6_eq, ?_⟩
  intro K pre post a
  obtain ⟨fields, hparse⟩ : ∃ fields, parse a = .ok fields := ⟨_, rfl⟩
  obtain ⟨hpre, hvpc⟩ := parse_fields hparse
  have hlen : pre.length + 16 ≤ (pre ++ (a.octets ++ post)).length := by
    simp only [List.length_append, a.length_octets]
    omega
  refine ⟨fields, hparse, ?_, ?_⟩
  · rw [isGhostPrefix_eq K (by omega), addrAt_append, hpre]
    rfl
  · rw [extractVpcId_eq K (by omega), addrAt_append, hvpc]

end K3rs.Ebpf
