import K3rs.Ebpf.Isolation
import K3rs.Lib.Effects

/-!
# The four translators

`siit_in` and `nat64_ingress` turn IPv4 frames into IPv6 frames, `siit_out` and
`nat64_egress` do the converse.  Each first reads the frame, its globals and the maps, and
either returns a verdict or settles the header it will write (`Decision`); only then does
it touch the frame: `change_proto`, one store for each header field, and eight
incremental updates of the L4 checksum.  The second half is shared by the two programs of
each direction (`toIpv6`, `toIpv4`).

A program that fails half way leaves the frame as far as it got, and the classifier around
it fails open, so the model is `Effects.Prog` over the frame and the maps.

## Two facts about the second half

* `toIpv6_exec` and `toIpv4_exec`: on a frame with a complete L4 header nothing fails, the
  new header is the one given by `ipv6Header` or `ipv4Header`, and the L4 bytes change
  only in the checksum, by the difference of the two pseudo headers.
* `translations_keepEth`, `translations_keepMaps`: on any frame, the 14 Ethernet bytes and
  the maps stay.
-/

namespace K3rs.Ebpf

open Wire Net Effects

def NAT64_PREFIX_U32 : UInt32 := 0x0064ff9b
def TCP_CSUM_OFF : ℕ := 16
def UDP_CSUM_OFF : ℕ := 6

/-! ## Steps -/

/-- What a translator works on: the frame, and the maps `nat64_egress` also writes. -/
structure TcContext where
  frame : Frame
  maps : Maps

/-- A translator. -/
abbrev TcM (α : Type) := Prog TcContext α

/-- A helper call on the frame. -/
def onFrame (w : Frame → Option Frame) : TcM Unit :=
  modifies fun ctx => (w ctx.frame).map fun f => { ctx with frame := f }

/-- `ctx.store` of the given memory bytes. -/
def storeBytes (off : ℕ) (bytes : List UInt8) : TcM Unit := onFrame fun f => store f off bytes

/-- `ctx.store(off, &byte, 0)`. -/
def store8 (off : ℕ) (x : UInt8) : TcM Unit := storeBytes off [x]

section Steps

variable (K : Kernel)

/-- `ctx.change_proto(proto, 0)`. -/
def changeProto (proto : UInt16) : TcM Unit := onFrame fun f => K.changeProto f proto

/-- `ctx.store(off, &x, 0)` of a `u16`. -/
def store16 (off : ℕ) (x : UInt16) : TcM Unit := storeBytes off (u16ToNe K.endian x)

/-- `ctx.store(off, &x, 0)` of a `u32`. -/
def store32 (off : ℕ) (x : UInt32) : TcM Unit := storeBytes off (u32ToNe K.endian x)

/-- `ctx.l4_csum_replace(off, from, to, BPF_F_PSEUDO_HDR | 4)`. -/
def l4CsumReplace (off : ℕ) (m m' : UInt32) : TcM Unit :=
  onFrame fun f => K.l4CsumReplace f off m.toUInt64 m'.toUInt64 CSUM_FLAGS

/-! ## Shared parts of the source -/

/-- `ipv4_hdr_csum`. -/
def ipv4HdrCsum (totalLen : UInt16) (ttl proto : UInt8) (src dst : UInt32) : UInt16 :=
  let s : UInt32 := 0x4500
  let s : UInt32 := s + totalLen.toUInt32
  let s : UInt32 := s + 0x4000
  let s : UInt32 := s + (ttl.toUInt32 <<< 8 ||| proto.toUInt32)
  let s : UInt32 := s + (src >>> 16 &&& (0xFFFF : UInt32))
  let s : UInt32 := s + (src &&& (0xFFFF : UInt32))
  let s : UInt32 := s + (dst >>> 16 &&& (0xFFFF : UInt32))
  let s : UInt32 := s + (dst &&& (0xFFFF : UInt32))
  let s : UInt32 := (s &&& (0xFFFF : UInt32)) + s >>> 16
  let s : UInt32 := (s &&& (0xFFFF : UInt32)) + s >>> 16
  ~~~ s.toUInt16

/-- `nat64_addr`. -/
def nat64Addr (ipv4 : UInt32) : Ipv6Addr :=
  ⟨[0x00, 0x64, 0xff, 0x9b, 0, 0, 0, 0, 0, 0, 0, 0] ++ u32ToBe ipv4, by simp⟩

/-- `csum_6to4`. -/
def csum6to4 (off : ℕ) (s6 d6 : AddrWords) (s4 d4 : UInt32) : TcM Unit := do
  l4CsumReplace K off s6.w₀ s4
  l4CsumReplace K off s6.w₁ 0
  l4CsumReplace K off s6.w₂ 0
  l4CsumReplace K off s6.w₃ 0
  l4CsumReplace K off d6.w₀ d4
  l4CsumReplace K off d6.w₁ 0
  l4CsumReplace K off d6.w₂ 0
  l4CsumReplace K off d6.w₃ 0

/-- `csum_4to6`. -/
def csum4to6 (off : ℕ) (s4 d4 : UInt32) (s6 d6 : AddrWords) : TcM Unit := do
  l4CsumReplace K off s4 s6.w₀
  l4CsumReplace K off 0 s6.w₁
  l4CsumReplace K off 0 s6.w₂
  l4CsumReplace K off 0 s6.w₃
  l4CsumReplace K off d4 d6.w₀
  l4CsumReplace K off 0 d6.w₁
  l4CsumReplace K off 0 d6.w₂
  l4CsumReplace K off 0 d6.w₃

/-- Where the checksum of the L4 header stands in it. -/
def l4CsumOff (protocol : UInt8) : ℕ :=
  if protocol = IPPROTO_TCP then TCP_CSUM_OFF else UDP_CSUM_OFF

/-- What an IPv4 to IPv6 translator has settled before it touches the frame. -/
structure ToIpv6 where
  srcRaw : UInt32
  dstRaw : UInt32
  srcIpv6 : Ipv6Addr
  dstIpv6 : Ipv6Addr
  payloadLen : UInt16
  protocol : UInt8
  hopLimit : UInt8

/-- The IPv6 header, field by field. -/
def writeIpv6Header (p : ToIpv6) : TcM Unit := do
  let l3 := ETH_HDR_LEN
  let s6 := addrWords K p.srcIpv6
  let d6 := addrWords K p.dstIpv6
  store32 K l3 (be32 K 0x60000000)
  store16 K (l3 + 4) (be16 K p.payloadLen)
  store8 (l3 + 6) p.protocol
  store8 (l3 + 7) p.hopLimit
  store32 K (l3 + 8) s6.w₀
  store32 K (l3 + 12) s6.w₁
  store32 K (l3 + 16) s6.w₂
  store32 K (l3 + 20) s6.w₃
  store32 K (l3 + 24) d6.w₀
  store32 K (l3 + 28) d6.w₁
  store32 K (l3 + 32) d6.w₂
  store32 K (l3 + 36) d6.w₃

/-- The second half of `try_siit_in` and `try_nat64_ingress`. -/
def toIpv6 (p : ToIpv6) : TcM Unit := do
  changeProto K ETH_P_IPV6
  writeIpv6Header K p
  csum4to6 K (ETH_HDR_LEN + IPV6_HDR_LEN + l4CsumOff p.protocol) p.srcRaw p.dstRaw
    (addrWords K p.srcIpv6) (addrWords K p.dstIpv6)

/-- What an IPv6 to IPv4 translator has settled before it touches the frame. -/
structure ToIpv4 where
  srcV6 : AddrWords
  dstV6 : AddrWords
  payloadLen : UInt16
  nextHdr : UInt8
  hopLimit : UInt8
  srcIpv4 : UInt32
  dstIpv4 : UInt32
  srcRaw : UInt32
  dstRaw : UInt32

/-- The total length of the new IPv4 packet. -/
def ToIpv4.totalLen (p : ToIpv4) : UInt16 := p.payloadLen + UInt16.ofNat IPV4_HDR_LEN

/-- The IPv4 header, field by field; the checksum first as a placeholder. -/
def writeIpv4Header (p : ToIpv4) : TcM Unit := do
  let l3 := ETH_HDR_LEN
  store8 l3 0x45
  store8 (l3 + 1) 0
  store16 K (l3 + 2) (be16 K p.totalLen)
  store16 K (l3 + 4) 0
  store16 K (l3 + 6) (be16 K 0x4000)
  store8 (l3 + 8) p.hopLimit
  store8 (l3 + 9) p.nextHdr
  store16 K (l3 + 10) 0
  store32 K (l3 + 12) p.srcRaw
  store32 K (l3 + 16) p.dstRaw

/-- The second half of `try_siit_out` and `try_nat64_egress`. -/
def toIpv4 (p : ToIpv4) : TcM Unit := do
  changeProto K ETH_P_IP
  writeIpv4Header K p
  store16 K (ETH_HDR_LEN + 10)
    (be16 K (ipv4HdrCsum p.totalLen p.hopLimit p.nextHdr p.srcIpv4 p.dstIpv4))
  csum6to4 K (ETH_HDR_LEN + IPV4_HDR_LEN + l4CsumOff p.nextHdr) p.srcV6 p.dstV6
    p.srcRaw p.dstRaw

end Steps

/-! ## The programs -/

/-- What the first half of a translator ends in. -/
inductive Decision (π : Type) where
  | verdict (action : Action)
  | translate (plan : π)

/-- A program in two halves: decide, then act. -/
def translator {π : Type} (decide : TcContext → Except Unit (Decision π))
    (act : π → TcM Action) : TcM Action := do
  match ← reads decide with
  | .verdict action => return action
  | .translate plan => act plan

section Programs

variable (K : Kernel)

/-- Step 5 of `try_siit_in`: a destination inside the VPC's CIDR has a Ghost address by
formula, any other one a NAT64 address. -/
def resolveDst (my : Globals) (dstIp : UInt32) : Ipv6Addr :=
  if my.myVpcNetwork ≠ 0 ∧ dstIp &&& my.myVpcMask = my.myVpcNetwork &&& my.myVpcMask then
    constructGhostIpv6 my.myPlatformPrefix my.myClusterId my.myVpcId dstIp
  else nat64Addr dstIp

/-- The first half of `try_siit_in`. -/
def siitInPlan (my : Globals) (f : Frame) : Except Unit (Decision ToIpv6) := do
  let etype ← load16 K f 12
  if etype ≠ be16 K ETH_P_IP then
    return .verdict .ok
  let verIhl ← load8 f ETH_HDR_LEN
  if verIhl ≠ 0x45 then
    return .verdict .ok
  let protocol ← load8 f (ETH_HDR_LEN + 9)
  if protocol ≠ IPPROTO_TCP ∧ protocol ≠ IPPROTO_UDP then
    return .verdict .ok
  let srcRaw ← load32 K f (ETH_HDR_LEN + 12)
  let dstRaw ← load32 K f (ETH_HDR_LEN + 16)
  let srcIp := be32 K srcRaw
  let dstIp := be32 K dstRaw
  -- anti-spoof: the source must be this pod's guest IPv4
  if srcIp ≠ my.myGuestIpv4 then
    return .verdict .shot
  let dstIpv6 := resolveDst my dstIp
  let totLen ← load16 K f (ETH_HDR_LEN + 2)
  let payloadLen := be16 K totLen - UInt16.ofNat IPV4_HDR_LEN
  let ttl ← load8 f (ETH_HDR_LEN + 8)
  if ttl ≤ 1 then
    return .verdict .shot
  let _srcPort ← load16 K f (ETH_HDR_LEN + IPV4_HDR_LEN)
  return .translate
    { srcRaw, dstRaw, srcIpv6 := my.myGhostIpv6, dstIpv6, payloadLen, protocol,
      hopLimit := ttl - 1 }

/-- `try_siit_in`. -/
def trySiitIn (my : Globals) : TcM Action :=
  translator (fun ctx => siitInPlan K my ctx.frame) fun p => do
    toIpv6 K p
    return .ok

/-- The first half of `try_siit_out`. -/
def siitOutPlan (my : Globals) (f : Frame) : Except Unit (Decision ToIpv4) := do
  let etype ← load16 K f 12
  if etype ≠ be16 K ETH_P_IPV6 then
    return .verdict .ok
  let dstV6 ← loadWords K f IPV6_DST_ADDR_OFF
  -- not for this pod: pass through
  if dstV6 ≠ addrWords K my.myGhostIpv6 then
    return .verdict .ok
  let payloadLen ← load16 K f (ETH_HDR_LEN + 4)
  let nextHdr ← load8 f (ETH_HDR_LEN + 6)
  let hopLimit ← load8 f (ETH_HDR_LEN + 7)
  if nextHdr ≠ IPPROTO_TCP ∧ nextHdr ≠ IPPROTO_UDP then
    return .verdict .ok
  let srcV6 ← loadWords K f IPV6_SRC_ADDR_OFF
  let srcIpv4 := be32 K srcV6.w₃
  let dstIpv4 := my.myGuestIpv4
  return .translate
    { srcV6, dstV6, payloadLen := be16 K payloadLen, nextHdr, hopLimit, srcIpv4, dstIpv4,
      srcRaw := be32 K srcIpv4, dstRaw := be32 K dstIpv4 }

/-- `try_siit_out`. -/
def trySiitOut (my : Globals) : TcM Action :=
  translator (fun ctx => siitOutPlan K my ctx.frame) fun p => do
    toIpv4 K p
    return .ok

/-- What `try_nat64_egress` settles: the conntrack entry, the packet, the interface. -/
structure Nat64Egress where
  key : Nat64Key
  value : Nat64Value
  packet : ToIpv4
  physIfindex : UInt32

/-- The first half of `try_nat64_egress`. -/
def nat64EgressPlan (maps : Maps) (f : Frame) : Except Unit (Decision Nat64Egress) := do
  let etype ← load16 K f 12
  if etype ≠ be16 K ETH_P_IPV6 then
    return .verdict .ok
  let d0 ← load32 K f IPV6_DST_ADDR_OFF
  if d0 ≠ be32 K NAT64_PREFIX_U32 then
    return .verdict .ok
  let d1 ← load32 K f (IPV6_DST_ADDR_OFF + 4)
  let d2 ← load32 K f (IPV6_DST_ADDR_OFF + 8)
  if d1 ≠ 0 ∨ d2 ≠ 0 then
    return .verdict .ok
  let d3 ← load32 K f (IPV6_DST_ADDR_OFF + 12)
  let dstIpv4 := be32 K d3
  let payloadLen ← load16 K f (ETH_HDR_LEN + 4)
  let nextHdr ← load8 f (ETH_HDR_LEN + 6)
  let hopLimit ← load8 f (ETH_HDR_LEN + 7)
  if nextHdr ≠ IPPROTO_TCP ∧ nextHdr ≠ IPPROTO_UDP then
    return .verdict .ok
  -- a jumbogram
  if be16 K payloadLen = 0 then
    return .verdict .ok
  let srcV6 ← loadWords K f IPV6_SRC_ADDR_OFF
  let srcPort ← load16 K f (ETH_HDR_LEN + IPV6_HDR_LEN)
  let dstPort ← load16 K f (ETH_HDR_LEN + IPV6_HDR_LEN + 2)
  let cfg ← orErr maps.nat64Config
  return .translate
    { key := ⟨nextHdr, be16 K srcPort, dstIpv4, be16 K dstPort⟩
      value := ⟨wordsAddr K srcV6⟩
      packet :=
        { srcV6, dstV6 := ⟨d0, d1, d2, d3⟩, payloadLen := be16 K payloadLen, nextHdr, hopLimit,
          srcIpv4 := cfg.nodeIpv4, dstIpv4, srcRaw := be32 K cfg.nodeIpv4, dstRaw := d3 }
      physIfindex := cfg.physIfindex }

/-- `NAT64_CONNTRACK.insert`, with room in the map. -/
def insertConntrack (key : Nat64Key) (value : Nat64Value) : TcM Unit :=
  modifies fun ctx => some
    { ctx with maps.nat64Conntrack := Function.update ctx.maps.nat64Conntrack key (some value) }

/-- `try_nat64_egress`. -/
def tryNat64Egress : TcM Action :=
  translator (fun ctx => nat64EgressPlan K ctx.maps ctx.frame) fun p => do
    insertConntrack p.key p.value
    toIpv4 K p.packet
    return .redirect p.physIfindex

/-- The first half of `try_nat64_ingress`. -/
def nat64IngressPlan (maps : Maps) (f : Frame) : Except Unit (Decision ToIpv6) := do
  let etype ← load16 K f 12
  if etype ≠ be16 K ETH_P_IP then
    return .verdict .ok
  let verIhl ← load8 f ETH_HDR_LEN
  if verIhl ≠ 0x45 then
    return .verdict .ok
  let protocol ← load8 f (ETH_HDR_LEN + 9)
  if protocol ≠ IPPROTO_TCP ∧ protocol ≠ IPPROTO_UDP then
    return .verdict .ok
  let srcRaw ← load32 K f (ETH_HDR_LEN + 12)
  let dstRaw ← load32 K f (ETH_HDR_LEN + 16)
  let srcIp := be32 K srcRaw
  let dstIp := be32 K dstRaw
  let cfg ← orErr maps.nat64Config
  if dstIp ≠ cfg.nodeIpv4 then
    return .verdict .ok
  let sport ← load16 K f (ETH_HDR_LEN + IPV4_HDR_LEN)
  let dport ← load16 K f (ETH_HDR_LEN + IPV4_HDR_LEN + 2)
  let ct ← orErr (maps.nat64Conntrack ⟨protocol, be16 K dport, srcIp, be16 K sport⟩)
  let totLen ← load16 K f (ETH_HDR_LEN + 2)
  let payloadLen := be16 K totLen - UInt16.ofNat IPV4_HDR_LEN
  let ttl ← load8 f (ETH_HDR_LEN + 8)
  return .translate
    { srcRaw, dstRaw, srcIpv6 := nat64Addr srcIp, dstIpv6 := ct.srcIpv6, payloadLen, protocol,
      hopLimit := ttl }

/-- `try_nat64_ingress`. -/
def tryNat64Ingress : TcM Action :=
  translator (fun ctx => nat64IngressPlan K ctx.maps ctx.frame) fun p => do
    toIpv6 K p
    reads fun ctx => .ok (deliver ctx.maps p.dstIpv6)

/-- The classifier around a translator: it fails open, and what was done stays done. -/
def classify (program : TcM Action) (ctx : TcContext) : Action × TcContext :=
  (failOpen (exec program ctx).1, (exec program ctx).2)

/-- `siit_in`. -/
def siitIn (my : Globals) : TcContext → Action × TcContext := classify (trySiitIn K my)

/-- `siit_out`. -/
def siitOut (my : Globals) : TcContext → Action × TcContext := classify (trySiitOut K my)

/-- `nat64_egress`. -/
def nat64Egress : TcContext → Action × TcContext := classify (tryNat64Egress K)

/-- `nat64_ingress`. -/
def nat64Ingress : TcContext → Action × TcContext := classify (tryNat64Ingress K)

end Programs

/-! ## Sequences of stores -/

theorem exec_onFrame {w : Frame → Option Frame} {ctx : TcContext} {f : Frame}
    (h : w ctx.frame = some f) : exec (onFrame w) ctx = (.ok (), { ctx with frame := f }) :=
  exec_modifies_some (by rw [h]; rfl)

/-- Stores one after the other, each where the last one ended. -/
def storeAll : ℕ → List (List UInt8) → TcM Unit
  | _, [] => pure ()
  | off, bytes :: rest => do
      storeBytes off bytes
      storeAll (off + bytes.length) rest

/-- In bounds, they amount to one store. -/
theorem exec_storeAll (chunks : List (List UInt8)) :
    ∀ (off : ℕ) (ctx : TcContext), off + chunks.flatten.length ≤ ctx.frame.length →
      exec (storeAll off chunks) ctx =
        (.ok (), { ctx with frame := splice ctx.frame off chunks.flatten }) := by
  induction chunks with
  | nil =>
      intro off ctx _
      simp [storeAll, splice]
  | cons bytes rest ih =>
      intro off ctx h
      simp only [List.flatten_cons, List.length_append] at h
      have hstore : exec (storeBytes off bytes) ctx =
          (.ok (), { ctx with frame := splice ctx.frame off bytes }) :=
        exec_onFrame (store_eq_some (by omega))
      have hlen : (splice ctx.frame off bytes).length = ctx.frame.length :=
        length_splice (by omega)
      have hrest := ih (off + bytes.length) { ctx with frame := splice ctx.frame off bytes }
        (by rw [hlen]; omega)
      rw [storeAll, exec_bind_ok hstore, hrest, splice_splice_adjacent rfl (by omega),
        List.flatten_cons]

section Headers

variable (K : Kernel)

/-- The raw words of an address hold its octets. -/
theorem addrWords_bytes (a : Ipv6Addr) :
    u32ToNe K.endian (addrWords K a).w₀ ++ (u32ToNe K.endian (addrWords K a).w₁ ++
      (u32ToNe K.endian (addrWords K a).w₂ ++ u32ToNe K.endian (addrWords K a).w₃)) =
        a.octets := by
  have h := congrArg Ipv6Addr.octets (wordsAddr_addrWords K a)
  simpa only [wordsAddr, List.append_assoc] using h

/-- The 40 bytes `writeIpv6Header` leaves. -/
def ipv6Header (p : ToIpv6) : List UInt8 :=
  [0x60, 0, 0, 0] ++ (u16ToBe p.payloadLen ++ (p.protocol :: p.hopLimit ::
    (p.srcIpv6.octets ++ p.dstIpv6.octets)))

@[simp] theorem length_ipv6Header (p : ToIpv6) : (ipv6Header p).length = 40 := by
  simp [ipv6Header, p.srcIpv6.length_octets, p.dstIpv6.length_octets]

/-- The fields as one list of chunks. -/
private def ipv6Chunks (p : ToIpv6) : List (List UInt8) :=
  [u32ToNe K.endian (be32 K 0x60000000), u16ToNe K.endian (be16 K p.payloadLen),
    [p.protocol], [p.hopLimit],
    u32ToNe K.endian (addrWords K p.srcIpv6).w₀, u32ToNe K.endian (addrWords K p.srcIpv6).w₁,
    u32ToNe K.endian (addrWords K p.srcIpv6).w₂, u32ToNe K.endian (addrWords K p.srcIpv6).w₃,
    u32ToNe K.endian (addrWords K p.dstIpv6).w₀, u32ToNe K.endian (addrWords K p.dstIpv6).w₁,
    u32ToNe K.endian (addrWords K p.dstIpv6).w₂, u32ToNe K.endian (addrWords K p.dstIpv6).w₃]

private theorem flatten_ipv6Chunks (p : ToIpv6) : (ipv6Chunks K p).flatten = ipv6Header p := by
  have hfirst : u32ToBe 0x60000000 = [0x60, 0, 0, 0] := by decide
  rw [ipv6Header, ← addrWords_bytes K p.srcIpv6, ← addrWords_bytes K p.dstIpv6, ← hfirst]
  simp [ipv6Chunks, be32, be16]

private theorem writeIpv6Header_eq (p : ToIpv6) :
    writeIpv6Header K p = storeAll ETH_HDR_LEN (ipv6Chunks K p) := by
  simp [writeIpv6Header, ipv6Chunks, storeAll, store32, store16, store8]

theorem exec_writeIpv6Header (p : ToIpv6) (maps : Maps) {eth hdr rest : List UInt8}
    (heth : eth.length = 14) (hhdr : hdr.length = 40) :
    exec (writeIpv6Header K p) ⟨eth ++ (hdr ++ rest), maps⟩ =
      (.ok (), ⟨eth ++ (ipv6Header p ++ rest), maps⟩) := by
  rw [writeIpv6Header_eq, exec_storeAll _ _ _ ?_, flatten_ipv6Chunks]
  · have hsplice : splice (eth ++ (hdr ++ rest)) ETH_HDR_LEN (ipv6Header p) =
        eth ++ (ipv6Header p ++ rest) :=
      splice_append heth.symm (by rw [hhdr, length_ipv6Header])
    rw [hsplice]
  · rw [flatten_ipv6Chunks, length_ipv6Header]
    simp only [ETH_HDR_LEN, List.length_append, heth, hhdr]
    omega

/-- The 20 bytes `toIpv4` leaves before the L4 header, with the given checksum. -/
def ipv4HeaderWith (p : ToIpv4) (csum : List UInt8) : List UInt8 :=
  [0x45, 0] ++ (u16ToBe p.totalLen ++ ([0, 0, 0x40, 0, p.hopLimit, p.nextHdr] ++ (csum ++
    (u32ToNe K.endian p.srcRaw ++ u32ToNe K.endian p.dstRaw))))

/-- The header checksum of the new packet. -/
def ToIpv4.hdrCsum (p : ToIpv4) : UInt16 :=
  ipv4HdrCsum p.totalLen p.hopLimit p.nextHdr p.srcIpv4 p.dstIpv4

/-- The 20 bytes `toIpv4` leaves before the L4 header. -/
def ipv4Header (p : ToIpv4) : List UInt8 := ipv4HeaderWith K p (u16ToBe p.hdrCsum)

@[simp] theorem length_ipv4HeaderWith (p : ToIpv4) {csum : List UInt8} (h : csum.length = 2) :
    (ipv4HeaderWith K p csum).length = 20 := by
  simp [ipv4HeaderWith, h]

private def ipv4Chunks (p : ToIpv4) : List (List UInt8) :=
  [[0x45], [0], u16ToNe K.endian (be16 K p.totalLen), u16ToNe K.endian 0,
    u16ToNe K.endian (be16 K 0x4000), [p.hopLimit], [p.nextHdr], u16ToNe K.endian 0,
    u32ToNe K.endian p.srcRaw, u32ToNe K.endian p.dstRaw]

private theorem flatten_ipv4Chunks (p : ToIpv4) :
    (ipv4Chunks K p).flatten = ipv4HeaderWith K p [0, 0] := by
  have hzero : u16ToNe K.endian 0 = [0, 0] := by cases K.endian <;> decide
  have hdf : u16ToBe 0x4000 = [0x40, 0] := by decide
  simp [ipv4Chunks, ipv4HeaderWith, be16, hzero, hdf]

private theorem writeIpv4Header_eq (p : ToIpv4) :
    writeIpv4Header K p = storeAll ETH_HDR_LEN (ipv4Chunks K p) := by
  simp [writeIpv4Header, ipv4Chunks, storeAll, store32, store16, store8]

theorem exec_writeIpv4Header (p : ToIpv4) (maps : Maps) {eth hdr rest : List UInt8}
    (heth : eth.length = 14) (hhdr : hdr.length = 20) :
    exec (writeIpv4Header K p) ⟨eth ++ (hdr ++ rest), maps⟩ =
      (.ok (), ⟨eth ++ (ipv4HeaderWith K p [0, 0] ++ rest), maps⟩) := by
  rw [writeIpv4Header_eq, exec_storeAll _ _ _ ?_, flatten_ipv4Chunks]
  · have hsplice : splice (eth ++ (hdr ++ rest)) ETH_HDR_LEN (ipv4HeaderWith K p [0, 0]) =
        eth ++ (ipv4HeaderWith K p [0, 0] ++ rest) :=
      splice_append heth.symm (by rw [hhdr, length_ipv4HeaderWith K p rfl])
    rw [hsplice]
  · rw [flatten_ipv4Chunks, length_ipv4HeaderWith K p rfl]
    simp only [ETH_HDR_LEN, List.length_append, heth, hhdr]
    omega

/-- The checksum store after it completes the header. -/
theorem exec_storeHdrCsum (p : ToIpv4) (maps : Maps) {eth rest : List UInt8}
    (heth : eth.length = 14) :
    exec (store16 K (ETH_HDR_LEN + 10) (be16 K p.hdrCsum))
        ⟨eth ++ (ipv4HeaderWith K p [0, 0] ++ rest), maps⟩ =
      (.ok (), ⟨eth ++ (ipv4Header K p ++ rest), maps⟩) := by
  have hsplit : ∀ csum : List UInt8, eth ++ (ipv4HeaderWith K p csum ++ rest) =
      (eth ++ ([0x45, 0] ++ (u16ToBe p.totalLen ++ [0, 0, 0x40, 0, p.hopLimit, p.nextHdr]))) ++
        (csum ++ (u32ToNe K.endian p.srcRaw ++ u32ToNe K.endian p.dstRaw ++ rest)) := by
    intro csum
    simp [ipv4HeaderWith]
  rw [ipv4Header, hsplit, hsplit]
  have hbytes : u16ToNe K.endian (be16 K p.hdrCsum) = u16ToBe p.hdrCsum := by simp [be16]
  rw [store16, storeBytes, hbytes]
  refine exec_onFrame ?_
  rw [store_eq_some (by simp [heth, ETH_HDR_LEN]; omega)]
  exact congrArg some (splice_append (by simp [heth, ETH_HDR_LEN]) (by simp))

end Headers

/-! ## Sequences of checksum updates -/

/-- The sum of the four words of an address. -/
def AddrWords.sum (w : AddrWords) : ℕ := w.w₀.toNat + w.w₁.toNat + w.w₂.toNat + w.w₃.toNat

section Checksums

variable {K : Kernel}

theorem rawCsum_splice {e : Endian} {f : Frame} {off : ℕ} (c : UInt16)
    (h : off + 2 ≤ f.length) : rawCsum e (splice f off (u16ToNe e c)) off = c := by
  have h₀ : (splice f off (u16ToNe e c)).getD off 0 = (u16ToNe e c).getD 0 0 :=
    getD_splice (i := 0) (by simpa using h) (by simp)
  have h₁ : (splice f off (u16ToNe e c)).getD (off + 1) 0 = (u16ToNe e c).getD 1 0 :=
    getD_splice (by simpa using h) (by simp)
  rw [rawCsum, h₀, h₁]
  cases e <;> simp [u16ToNe, u16OfNe]

/-- The checksum field may be written back. -/
theorem splice_rawCsum {e : Endian} {f : Frame} {off : ℕ} (h : off + 2 ≤ f.length) :
    splice f off (u16ToNe e (rawCsum e f off)) = f := by
  rw [rawCsum, u16ToNe_ofNe, splice]
  have hdrop : f.drop off = f.getD off 0 :: f.getD (off + 1) 0 :: f.drop (off + 2) := by
    rw [drop_eq_getD_cons (by omega), drop_eq_getD_cons (by omega)]
  conv_rhs => rw [← List.take_append_drop off f, hdrop]
  rfl

/-- The updates of `csum_6to4` and `csum_4to6`, as a list of field changes. -/
def csumReplaceAll (K : Kernel) (off : ℕ) : List (UInt32 × UInt32) → TcM Unit
  | [] => pure ()
  | (m, m') :: rest => do
      l4CsumReplace K off m m'
      csumReplaceAll K off rest

/-- In bounds, they add the old fields to the checksum and take the new ones away. -/
theorem exec_csumReplaceAll (hL4 : K.UpdatesL4Csum) (off : ℕ)
    (changes : List (UInt32 × UInt32)) :
    ∀ ctx : TcContext, off + 2 ≤ ctx.frame.length →
      ∃ c : UInt16,
        exec (csumReplaceAll K off changes) ctx =
            (.ok (), { ctx with frame := splice ctx.frame off (u16ToNe K.endian c) }) ∧
          c.toNat + (changes.map fun p => p.2.toNat).sum ≡
            (rawCsum K.endian ctx.frame off).toNat + (changes.map fun p => p.1.toNat).sum
              [MOD 65535] := by
  induction changes with
  | nil =>
      intro ctx h
      refine ⟨rawCsum K.endian ctx.frame off, ?_, Nat.ModEq.rfl⟩
      rw [splice_rawCsum h]
      rfl
  | cons change rest ih =>
      obtain ⟨m, m'⟩ := change
      intro ctx h
      obtain ⟨c₁, hfirst, hc₁⟩ := hL4.update ctx.frame off m m' h
      set f₁ := splice ctx.frame off (u16ToNe K.endian c₁) with hf₁
      have hlen : f₁.length = ctx.frame.length := length_splice (by simpa using h)
      obtain ⟨c, hrest, hc⟩ := ih { ctx with frame := f₁ } (by rw [hlen]; exact h)
      refine ⟨c, ?_, ?_⟩
      · have hstep : exec (l4CsumReplace K off m m') ctx = (.ok (), { ctx with frame := f₁ }) :=
          exec_onFrame hfirst
        rw [csumReplaceAll, exec_bind_ok hstep, hrest, hf₁,
          splice_splice_self (by simp) (by simpa using h)]
      · rw [hf₁, rawCsum_splice c₁ h] at hc
        have hupdate : c₁.toNat + m'.toNat ≡ (rawCsum K.endian ctx.frame off).toNat + m.toNat
            [MOD 65535] :=
          (hc₁.add_right _).trans (OnesComplement.update_modEq _ m m')
        simp only [List.map_cons, List.sum_cons]
        calc c.toNat + (m'.toNat + (rest.map fun p => p.2.toNat).sum)
            = c.toNat + (rest.map fun p => p.2.toNat).sum + m'.toNat := by ring
          _ ≡ c₁.toNat + (rest.map fun p => p.1.toNat).sum + m'.toNat [MOD 65535] :=
              hc.add_right _
          _ = c₁.toNat + m'.toNat + (rest.map fun p => p.1.toNat).sum := by ring
          _ ≡ (rawCsum K.endian ctx.frame off).toNat + m.toNat +
                (rest.map fun p => p.1.toNat).sum [MOD 65535] := hupdate.add_right _
          _ = (rawCsum K.endian ctx.frame off).toNat +
                (m.toNat + (rest.map fun p => p.1.toNat).sum) := by ring

theorem csum4to6_eq (off : ℕ) (s4 d4 : UInt32) (s6 d6 : AddrWords) :
    csum4to6 K off s4 d4 s6 d6 = csumReplaceAll K off
      [(s4, s6.w₀), (0, s6.w₁), (0, s6.w₂), (0, s6.w₃),
        (d4, d6.w₀), (0, d6.w₁), (0, d6.w₂), (0, d6.w₃)] := by
  simp [csum4to6, csumReplaceAll]

theorem csum6to4_eq (off : ℕ) (s6 d6 : AddrWords) (s4 d4 : UInt32) :
    csum6to4 K off s6 d6 s4 d4 = csumReplaceAll K off
      [(s6.w₀, s4), (s6.w₁, 0), (s6.w₂, 0), (s6.w₃, 0),
        (d6.w₀, d4), (d6.w₁, 0), (d6.w₂, 0), (d6.w₃, 0)] := by
  simp [csum6to4, csumReplaceAll]

theorem exec_csum4to6 (hL4 : K.UpdatesL4Csum) {off : ℕ} (s4 d4 : UInt32) (s6 d6 : AddrWords)
    {ctx : TcContext} (h : off + 2 ≤ ctx.frame.length) :
    ∃ c : UInt16,
      exec (csum4to6 K off s4 d4 s6 d6) ctx =
          (.ok (), { ctx with frame := splice ctx.frame off (u16ToNe K.endian c) }) ∧
        c.toNat + (s6.sum + d6.sum) ≡
          (rawCsum K.endian ctx.frame off).toNat + (s4.toNat + d4.toNat) [MOD 65535] := by
  obtain ⟨c, hexec, hc⟩ := exec_csumReplaceAll hL4 off _ ctx h
  refine ⟨c, csum4to6_eq off s4 d4 s6 d6 ▸ hexec, ?_⟩
  simpa [AddrWords.sum, Nat.add_assoc] using hc

theorem exec_csum6to4 (hL4 : K.UpdatesL4Csum) {off : ℕ} (s6 d6 : AddrWords) (s4 d4 : UInt32)
    {ctx : TcContext} (h : off + 2 ≤ ctx.frame.length) :
    ∃ c : UInt16,
      exec (csum6to4 K off s6 d6 s4 d4) ctx =
          (.ok (), { ctx with frame := splice ctx.frame off (u16ToNe K.endian c) }) ∧
        c.toNat + (s4.toNat + d4.toNat) ≡
          (rawCsum K.endian ctx.frame off).toNat + (s6.sum + d6.sum) [MOD 65535] := by
  obtain ⟨c, hexec, hc⟩ := exec_csumReplaceAll hL4 off _ ctx h
  refine ⟨c, csum6to4_eq off s6 d6 s4 d4 ▸ hexec, ?_⟩
  simpa [AddrWords.sum, Nat.add_assoc] using hc

/-! ## The second halves -/

theorem rawCsum_append_right {e : Endian} {a f : Frame} {off : ℕ} (k : ℕ)
    (h : off = a.length + k) : rawCsum e (a ++ f) off = rawCsum e f k := by
  subst h
  simp only [rawCsum, List.getD_eq_getElem?_getD, Nat.add_assoc]
  rw [List.getElem?_append_right (by omega), List.getElem?_append_right (by omega),
    Nat.add_sub_cancel_left, Nat.add_sub_cancel_left]

/-- The end of both directions: an update of the L4 checksum behind a new header. -/
private theorem csum_behind {csum : ℕ → TcM Unit} {sum sum' : ℕ}
    (hcsum : ∀ (off : ℕ) (ctx : TcContext), off + 2 ≤ ctx.frame.length →
      ∃ c : UInt16,
        exec (csum off) ctx =
            (.ok (), { ctx with frame := splice ctx.frame off (u16ToNe K.endian c) }) ∧
          c.toNat + sum' ≡ (rawCsum K.endian ctx.frame off).toNat + sum [MOD 65535])
    (maps : Maps) (eth hdr : List UInt8) {rest : List UInt8} {off : ℕ} (rel : ℕ)
    (hoff : off = (eth ++ hdr).length + rel) (hrel : rel + 2 ≤ rest.length) :
    ∃ c : UInt16,
      exec (csum off) ⟨eth ++ (hdr ++ rest), maps⟩ =
          (.ok (), ⟨eth ++ (hdr ++ splice rest rel (u16ToNe K.endian c)), maps⟩) ∧
        c.toNat + sum' ≡ (rawCsum K.endian rest rel).toNat + sum [MOD 65535] := by
  have hframe : eth ++ (hdr ++ rest) = (eth ++ hdr) ++ rest := (List.append_assoc _ _ _).symm
  have hlen : off + 2 ≤ (eth ++ (hdr ++ rest)).length := by
    simp only [List.length_append] at hoff ⊢
    omega
  obtain ⟨c, hexec, hc⟩ := hcsum off ⟨eth ++ (hdr ++ rest), maps⟩ hlen
  have hsplice : splice (eth ++ (hdr ++ rest)) off (u16ToNe K.endian c) =
      eth ++ (hdr ++ splice rest rel (u16ToNe K.endian c)) := by
    rw [hframe, splice_append_right rel hoff, List.append_assoc]
  have hraw : rawCsum K.endian (eth ++ (hdr ++ rest)) off = rawCsum K.endian rest rel := by
    rw [hframe, rawCsum_append_right rel hoff]
  rw [hsplice] at hexec
  rw [hraw] at hc
  exact ⟨c, hexec, hc⟩

/-- **An IPv4 frame becomes an IPv6 frame.**  The L3 header is replaced and the L4 checksum
is updated by the difference of the pseudo headers; nothing else changes. -/
theorem toIpv6_exec (hL3 : K.ResizesL3) (hL4 : K.UpdatesL4Csum) (p : ToIpv6) (maps : Maps)
    {f : Frame} (hlen : 34 + l4CsumOff p.protocol + 2 ≤ f.length) :
    ∃ c : UInt16,
      exec (toIpv6 K p) ⟨f, maps⟩ =
          (.ok (), ⟨f.take 14 ++ (ipv6Header p ++
            splice (f.drop 34) (l4CsumOff p.protocol) (u16ToNe K.endian c)), maps⟩) ∧
        c.toNat + ((addrWords K p.srcIpv6).sum + (addrWords K p.dstIpv6).sum) ≡
          (rawCsum K.endian (f.drop 34) (l4CsumOff p.protocol)).toNat +
            (p.srcRaw.toNat + p.dstRaw.toNat) [MOD 65535] := by
  obtain ⟨hdr, hhdr, hresize⟩ := hL3.grow f (by omega)
  have heth : (f.take 14).length = 14 := by
    rw [List.length_take]
    omega
  have hrest : l4CsumOff p.protocol + 2 ≤ (f.drop 34).length := by
    rw [List.length_drop]
    omega
  have hoff : ETH_HDR_LEN + IPV6_HDR_LEN + l4CsumOff p.protocol =
      (f.take 14 ++ ipv6Header p).length + l4CsumOff p.protocol := by
    rw [List.length_append, heth, length_ipv6Header]
    rfl
  obtain ⟨c, hcsum, hc⟩ := csum_behind (fun off ctx h =>
    exec_csum4to6 hL4 p.srcRaw p.dstRaw (addrWords K p.srcIpv6) (addrWords K p.dstIpv6) h)
    maps (f.take 14) (ipv6Header p) (l4CsumOff p.protocol) hoff hrest
  refine ⟨c, ?_, hc⟩
  have hproto : exec (changeProto K ETH_P_IPV6) ⟨f, maps⟩ =
      (.ok (), ⟨f.take 14 ++ (hdr ++ f.drop 34), maps⟩) := exec_onFrame hresize
  rw [toIpv6, exec_bind_ok hproto, exec_bind_ok (exec_writeIpv6Header K p maps heth hhdr)]
  exact hcsum

/-- **An IPv6 frame becomes an IPv4 frame.** -/
theorem toIpv4_exec (hL3 : K.ResizesL3) (hL4 : K.UpdatesL4Csum) (p : ToIpv4) (maps : Maps)
    {f : Frame} (hlen : 54 + l4CsumOff p.nextHdr + 2 ≤ f.length) :
    ∃ c : UInt16,
      exec (toIpv4 K p) ⟨f, maps⟩ =
          (.ok (), ⟨f.take 14 ++ (ipv4Header K p ++
            splice (f.drop 54) (l4CsumOff p.nextHdr) (u16ToNe K.endian c)), maps⟩) ∧
        c.toNat + (p.srcRaw.toNat + p.dstRaw.toNat) ≡
          (rawCsum K.endian (f.drop 54) (l4CsumOff p.nextHdr)).toNat +
            (p.srcV6.sum + p.dstV6.sum) [MOD 65535] := by
  obtain ⟨hdr, hhdr, hresize⟩ := hL3.shrink f (by omega)
  have heth : (f.take 14).length = 14 := by
    rw [List.length_take]
    omega
  have hrest : l4CsumOff p.nextHdr + 2 ≤ (f.drop 54).length := by
    rw [List.length_drop]
    omega
  have hoff : ETH_HDR_LEN + IPV4_HDR_LEN + l4CsumOff p.nextHdr =
      (f.take 14 ++ ipv4Header K p).length + l4CsumOff p.nextHdr := by
    rw [List.length_append, heth, ipv4Header, length_ipv4HeaderWith K p (by simp)]
    rfl
  obtain ⟨c, hcsum, hc⟩ := csum_behind (fun off ctx h =>
    exec_csum6to4 hL4 p.srcV6 p.dstV6 p.srcRaw p.dstRaw h)
    maps (f.take 14) (ipv4Header K p) (l4CsumOff p.nextHdr) hoff hrest
  refine ⟨c, ?_, hc⟩
  have hproto : exec (changeProto K ETH_P_IP) ⟨f, maps⟩ =
      (.ok (), ⟨f.take 14 ++ (hdr ++ f.drop 54), maps⟩) := exec_onFrame hresize
  rw [toIpv4, exec_bind_ok hproto, exec_bind_ok (exec_writeIpv4Header K p maps heth hhdr)]
  rw [← ToIpv4.hdrCsum, exec_bind_ok (exec_storeHdrCsum K p maps heth)]
  exact hcsum

end Checksums

/-! ## What no translation can change -/

section Frame

variable {K : Kernel} {I : TcContext → Prop}

private theorem keeps_storeAll
    (hstore : ∀ off bytes, 14 ≤ off → Keeps I (storeBytes off bytes))
    (chunks : List (List UInt8)) : ∀ {off : ℕ}, 14 ≤ off → Keeps I (storeAll off chunks) := by
  induction chunks with
  | nil => exact fun _ => Keeps.pure ()
  | cons bytes rest ih =>
      exact fun hoff => Keeps.bind (hstore _ bytes hoff) fun _ => ih (by omega)

private theorem keeps_csumReplaceAll {off : ℕ}
    (hcsum : ∀ m m', Keeps I (l4CsumReplace K off m m')) (changes : List (UInt32 × UInt32)) :
    Keeps I (csumReplaceAll K off changes) := by
  induction changes with
  | nil => exact Keeps.pure ()
  | cons change rest ih => exact Keeps.bind (hcsum _ _) fun _ => ih

/-- What resizing, stores behind the Ethernet header and checksum updates keep, both
translations keep. -/
theorem translations_keep (hproto : ∀ proto, Keeps I (changeProto K proto))
    (hstore : ∀ off bytes, 14 ≤ off → Keeps I (storeBytes off bytes))
    (hcsum : ∀ off m m', 14 ≤ off → Keeps I (l4CsumReplace K off m m')) :
    (∀ p, Keeps I (toIpv6 K p)) ∧ ∀ p, Keeps I (toIpv4 K p) := by
  refine ⟨fun p => ?_, fun p => ?_⟩
  · refine Keeps.bind (hproto _) fun _ => Keeps.bind ?_ fun _ => ?_
    · rw [writeIpv6Header_eq]
      exact keeps_storeAll hstore _ (le_refl 14)
    · rw [csum4to6_eq]
      exact keeps_csumReplaceAll (fun m m' => hcsum _ m m' (by rw [ETH_HDR_LEN]; omega)) _
  · refine Keeps.bind (hproto _) fun _ => Keeps.bind ?_ fun _ => Keeps.bind ?_ fun _ => ?_
    · rw [writeIpv4Header_eq]
      exact keeps_storeAll hstore _ (le_refl 14)
    · exact hstore _ _ (by rw [ETH_HDR_LEN]; omega)
    · rw [csum6to4_eq]
      exact keeps_csumReplaceAll (fun m m' => hcsum _ m m' (by rw [ETH_HDR_LEN]; omega)) _

/-- The first 14 bytes of the frame are `eth`. -/
def HasEth (eth : List UInt8) (ctx : TcContext) : Prop := ctx.frame.take 14 = eth

theorem keepsEth_onFrame {eth : List UInt8} {w : Frame → Option Frame}
    (h : ∀ f f', w f = some f' → f'.take 14 = f.take 14) : Keeps (HasEth eth) (onFrame w) := by
  refine Keeps.modifies fun ctx ctx' hw hctx => ?_
  obtain ⟨f', hf', rfl⟩ := Option.map_eq_some_iff.mp hw
  exact (h _ _ hf').trans hctx

/-- The Ethernet header stays. -/
theorem translations_keepEth (hL3 : K.ResizesL3) (hL4 : K.UpdatesL4Csum) (eth : List UInt8) :
    (∀ p, Keeps (HasEth eth) (toIpv6 K p)) ∧ ∀ p, Keeps (HasEth eth) (toIpv4 K p) := by
  refine translations_keep (fun proto => keepsEth_onFrame fun f f' h => hL3.eth f proto f' h)
    (fun off bytes hoff => keepsEth_onFrame fun f f' h => ?_)
    (fun off m m' hoff => keepsEth_onFrame fun f f' h => ?_)
  · obtain ⟨hlen, rfl⟩ := store_eq_some_iff.mp h
    exact take_splice hoff hlen
  · obtain ⟨hlen, c, rfl⟩ := hL4.bounded _ _ _ _ _ _ h
    exact take_splice hoff (by simpa using hlen)

theorem keepsMaps_onFrame {maps : Maps} (w : Frame → Option Frame) :
    Keeps (fun ctx => ctx.maps = maps) (onFrame w) := by
  refine Keeps.modifies fun ctx ctx' hw hctx => ?_
  obtain ⟨f', hf', rfl⟩ := Option.map_eq_some_iff.mp hw
  exact hctx

/-- So do the maps. -/
theorem translations_keepMaps (maps : Maps) :
    (∀ p, Keeps (fun ctx => ctx.maps = maps) (toIpv6 K p)) ∧
      ∀ p, Keeps (fun ctx => ctx.maps = maps) (toIpv4 K p) :=
  translations_keep (fun _ => keepsMaps_onFrame _) (fun _ _ _ => keepsMaps_onFrame _)
    fun _ _ _ _ => keepsMaps_onFrame _

end Frame

/-! ## Programs in two halves -/

section Translator

variable {π : Type} {decide : TcContext → Except Unit (Decision π)} {act : π → TcM Action}
  {ctx : TcContext}

theorem exec_translator_verdict {action : Action} (h : decide ctx = .ok (.verdict action)) :
    exec (translator decide act) ctx = (.ok action, ctx) := by
  have hread : exec (reads decide) ctx = (.ok (.verdict action), ctx) := by rw [exec_reads, h]
  rw [translator, exec_bind_ok hread]
  rfl

theorem exec_translator_translate {plan : π} (h : decide ctx = .ok (.translate plan)) :
    exec (translator decide act) ctx = exec (act plan) ctx := by
  have hread : exec (reads decide) ctx = (.ok (.translate plan), ctx) := by rw [exec_reads, h]
  rw [translator, exec_bind_ok hread]

theorem exec_translator_error (h : decide ctx = .error ()) :
    exec (translator decide act) ctx = (.error (), ctx) := by
  have hread : exec (reads decide) ctx = (.error (), ctx) := by rw [exec_reads, h]
  rw [translator, exec_bind_error hread]

/-- A program changes something only when its first half decides so. -/
theorem exists_plan_of_exec_ne (h : (exec (translator decide act) ctx).2 ≠ ctx) :
    ∃ plan, decide ctx = .ok (.translate plan) := by
  cases hdecide : decide ctx with
  | error e => exact absurd (by rw [exec_translator_error hdecide]) h
  | ok decision =>
      cases decision with
      | verdict action => exact absurd (by rw [exec_translator_verdict hdecide]) h
      | translate plan => exact ⟨plan, rfl⟩

theorem keeps_translator {I : TcContext → Prop} (h : ∀ plan, Keeps I (act plan)) :
    Keeps I (translator decide act) := by
  refine Keeps.bind (Keeps.reads decide) fun decision => ?_
  cases decision with
  | verdict action => exact Keeps.pure action
  | translate plan => exact h plan

end Translator

end K3rs.Ebpf
