import K3rs.Lib.CheckedReads
import K3rs.Lib.IpRoundTrip

/-!
# The DHCP options of k3rs-init

A DHCP packet is a header of 240 bytes that ends in the magic cookie, and options behind it: a code,
a length and the data, with zeros between them and an end mark behind them.  `for_each_option` walks
over them, and `build_request` writes them.

* `forEachOption_safe`: the walk ends without a read out of bounds, whatever the bytes are.
* `forEachOption_encoded`: it visits the options that are encoded.
* `dhcp_options_round_trip`: what `build_request` writes is found again.
-/

namespace K3rs

open CheckedReads Net Wire

/-! ## Constants -/

/-- `DHCP_REQUEST`. -/
def DHCP_REQUEST : UInt8 := 3

/-- `OPT_SUBNET_MASK`. -/
def OPT_SUBNET_MASK : UInt8 := 1

/-- `OPT_ROUTER`. -/
def OPT_ROUTER : UInt8 := 3

/-- `OPT_DNS`. -/
def OPT_DNS : UInt8 := 6

/-- `OPT_REQUESTED_IP`. -/
def OPT_REQUESTED_IP : UInt8 := 50

/-- `OPT_MSG_TYPE`. -/
def OPT_MSG_TYPE : UInt8 := 53

/-- `OPT_SERVER_ID`. -/
def OPT_SERVER_ID : UInt8 := 54

/-- `OPT_PARAM_LIST`. -/
def OPT_PARAM_LIST : UInt8 := 55

/-- `OPT_END`. -/
def OPT_END : UInt8 := 255

/-- `MAGIC_COOKIE`. -/
def MAGIC_COOKIE : List UInt8 := [99, 130, 83, 99]

/-! ## The walk -/

section Walk

variable {σ τ : Type}

/-- The closure that is called for each option: it may change its state, and it may end the walk
with a result. -/
abbrev OptionVisitor (σ τ : Type) := σ → UInt8 → List UInt8 → σ × Option τ

/-- The loop of `for_each_option`. -/
def forEachOptionFrom (pkt : List UInt8) (f : OptionVisitor σ τ) (s : σ) (pos : ℕ) :
    Checked (σ × Option τ) :=
  if pos < pkt.length then do
    let opt ← read pkt pos
    if opt = OPT_END then return (s, none)
    else if opt = 0 then forEachOptionFrom pkt f s (pos + 1)
    else if pkt.length ≤ pos + 1 then return (s, none)
    else
      let len ← read pkt (pos + 1)
      if pkt.length < pos + 2 + len.toNat then return (s, none)
      else
        let data ← slice pkt (pos + 2) (pos + 2 + len.toNat)
        let out := f s opt data
        match out.2 with
        | some result => return (out.1, some result)
        | none => forEachOptionFrom pkt f out.1 (pos + 2 + len.toNat)
  else return (s, none)
termination_by pkt.length - pos

/-- `for_each_option`. -/
def forEachOption (pkt : List UInt8) (f : OptionVisitor σ τ) (s : σ) : Checked (σ × Option τ) :=
  if pkt.length < 240 then return (s, none)
  else do
    let cookie ← slice pkt 236 240
    if cookie ≠ MAGIC_COOKIE then return (s, none)
    else forEachOptionFrom pkt f s 240

/-- The closure is called for these options, until it ends the walk. -/
def OptionVisitor.visit (f : OptionVisitor σ τ) : σ → List (UInt8 × List UInt8) → σ × Option τ
  | s, [] => (s, none)
  | s, (opt, data) :: rest =>
      let out := f s opt data
      match out.2 with
      | some result => (out.1, some result)
      | none => f.visit out.1 rest

end Walk

/-! ## Option parsers -/

/-- `get_msg_type`. -/
def getMsgType (pkt : List UInt8) : Checked (Option UInt8) := do
  let out ← forEachOption pkt
    (fun _ opt data => ((), if opt = OPT_MSG_TYPE then data.head? else none)) ()
  return out.2

/-- The first four bytes, as a dotted quad. -/
def firstQuad : List UInt8 → Option String
  | b₀ :: b₁ :: b₂ :: b₃ :: _ => some (ipv4ToString (.ofOctets b₀ b₁ b₂ b₃))
  | _ => none

/-- `get_option_ip`. -/
def getOptionIp (pkt : List UInt8) (optCode : UInt8) : Checked (Option String) := do
  let out ← forEachOption pkt
    (fun _ opt data => ((), if opt = optCode then firstQuad data else none)) ()
  return out.2

/-- All dotted quads of the data. -/
def allQuads : List UInt8 → List String
  | b₀ :: b₁ :: b₂ :: b₃ :: rest => ipv4ToString (.ofOctets b₀ b₁ b₂ b₃) :: allQuads rest
  | _ => []

/-- `get_option_ips`. -/
def getOptionIps (pkt : List UInt8) (optCode : UInt8) : Checked (List String) := do
  let out ← forEachOption pkt
    (fun result opt data =>
      (if opt = optCode then result ++ allQuads data else result, (none : Option Unit))) []
  return out.1

/-! ## Requests -/

/-- `parse_ip_to_bytes`. -/
def parseIpToBytes (ip : String) : Except String Ipv4Addr := do
  let parts ← (ip.toList.splitOn '.').mapM (parseUnsigned 256)
  match parts with
  | [b₀, b₁, b₂, b₃] => return .ofOctets (.ofNat b₀) (.ofNat b₁) (.ofNat b₂) (.ofNat b₃)
  | _ => .error ("invalid IP: " ++ ip)

/-- The bytes are written at the position, which moves behind them. -/
def writeAt (cursor : List UInt8 × ℕ) (bytes : List UInt8) : List UInt8 × ℕ :=
  (splice cursor.1 cursor.2 bytes, cursor.2 + bytes.length)

/-- An option that has an address, if the text is one. -/
def writeIpOption (cursor : List UInt8 × ℕ) (optCode : UInt8) (ip : String) : List UInt8 × ℕ :=
  match parseIpToBytes ip with
  | .ok addr => writeAt cursor (optCode :: 4 :: addr.octets)
  | .error _ => cursor

/-- `build_request`.  The packet has 300 bytes, and nothing is written behind the 261st. -/
def buildRequest (offer : List UInt8) (offeredIp : String) (serverIp : Option String) :
    Checked (List UInt8) := do
  let pkt := List.replicate 300 0
  -- BOOTREQUEST, Ethernet, six bytes, no hops
  let pkt := splice pkt 0 [1, 1, 6, 0]
  let xid ← slice offer 4 8
  let pkt := splice pkt 4 xid
  let pkt := splice pkt 10 [0x80]
  let chaddr ← slice offer 28 44
  let pkt := splice pkt 28 chaddr
  let pkt := splice pkt 236 MAGIC_COOKIE
  let cursor := writeAt (pkt, 240) [OPT_MSG_TYPE, 1, DHCP_REQUEST]
  let cursor := writeIpOption cursor OPT_REQUESTED_IP offeredIp
  let cursor :=
    match serverIp with
    | some srv => writeIpOption cursor OPT_SERVER_ID srv
    | none => cursor
  let cursor := writeAt cursor [OPT_PARAM_LIST, 3, OPT_SUBNET_MASK, OPT_ROUTER, OPT_DNS]
  let pkt := splice cursor.1 cursor.2 [OPT_END]
  return pkt.take (cursor.2 + 1)

/-! ## Encodings -/

/-- An option: its code is neither that of the padding nor the end mark, and the length of its data
fits in a byte. -/
structure DhcpOption where
  code : UInt8
  data : List UInt8
  code_ne_zero : code ≠ 0
  code_ne_end : code ≠ OPT_END
  length_le : data.length ≤ 255

/-- What is visited of an option. -/
def DhcpOption.visited (o : DhcpOption) : UInt8 × List UInt8 := (o.code, o.data)

/-- An option with zeros before it. -/
def encodeOption (padding : ℕ) (o : DhcpOption) : List UInt8 :=
  List.replicate padding 0 ++ o.code :: UInt8.ofNat o.data.length :: o.data

/-- Options with zeros between them. -/
def encodeOptions (options : List (ℕ × DhcpOption)) : List UInt8 :=
  options.flatMap fun e => encodeOption e.1 e.2

/-- A header that ends in the magic cookie. -/
structure IsHeader (header : List UInt8) : Prop where
  length_eq : header.length = 240
  cookie : header.drop 236 = MAGIC_COOKIE

section Walks

variable {σ τ : Type} {f : OptionVisitor σ τ} {pkt pre : List UInt8}

/-- **Safety of the loop.** -/
theorem forEachOptionFrom_safe (f : OptionVisitor σ τ) (s : σ) (pos : ℕ) :
    ∃ r, forEachOptionFrom pkt f s pos = .ok r := by
  induction hleft : pkt.length - pos using Nat.strong_induction_on generalizing s pos with
  | _ left ih =>
      rw [forEachOptionFrom]
      by_cases hpos : pos < pkt.length
      · rw [if_pos hpos, read_eq hpos, ok_bind]
        split_ifs with hend hpad hlast
        · exact ⟨_, rfl⟩
        · exact ih _ (by omega) s (pos + 1) rfl
        · exact ⟨_, rfl⟩
        · rw [read_eq (not_le.mp hlast), ok_bind]
          split_ifs with hcut
          · exact ⟨_, rfl⟩
          · rw [slice_eq (Nat.le_add_right _ _) (not_lt.mp hcut), ok_bind]
            dsimp only
            split
            · exact ⟨_, rfl⟩
            · exact ih _ (by omega) _ _ rfl
      · rw [if_neg hpos]
        exact ⟨_, rfl⟩

/-- **Safety.**  The walk reads within bounds, whatever the bytes are. -/
theorem forEachOption_safe (pkt : List UInt8) (f : OptionVisitor σ τ) (s : σ) :
    ∃ r, forEachOption pkt f s = .ok r := by
  rw [forEachOption]
  split_ifs with hshort
  · exact ⟨_, rfl⟩
  · rw [slice_eq (by decide) (not_lt.mp hshort), ok_bind]
    split_ifs
    · exact ⟨_, rfl⟩
    · exact forEachOptionFrom_safe f s 240

/-- Zeros are passed over. -/
theorem forEachOptionFrom_padding (f : OptionVisitor σ τ) (s : σ) (padding : ℕ) :
    ∀ pre rest : List UInt8,
      forEachOptionFrom (pre ++ (List.replicate padding 0 ++ rest)) f s pre.length =
        forEachOptionFrom (pre ++ (List.replicate padding 0 ++ rest)) f s
          (pre.length + padding) := by
  induction padding with
  | zero => exact fun _ _ => rfl
  | succ padding ih =>
      intro pre rest
      have hsplit : pre ++ (List.replicate (padding + 1) 0 ++ rest) =
          pre ++ [0] ++ (List.replicate padding 0 ++ rest) := by
        rw [List.replicate_succ, List.append_assoc]
        rfl
      have hnext := ih (pre ++ [0]) rest
      rw [List.length_append, List.length_singleton, ← hsplit] at hnext
      have hpos : pre.length < (pre ++ (List.replicate (padding + 1) 0 ++ rest)).length := by
        simp
      have hread : read (pre ++ (List.replicate (padding + 1) 0 ++ rest)) pre.length = .ok 0 :=
        read_append 0 _ rfl
      rw [forEachOptionFrom, if_pos hpos, hread, ok_bind, if_neg (by decide), if_pos rfl, hnext,
        Nat.add_assoc, Nat.add_comm 1 padding]

/-- The end mark ends the walk. -/
theorem forEachOptionFrom_end (f : OptionVisitor σ τ) (s : σ) (pre rest : List UInt8) :
    forEachOptionFrom (pre ++ OPT_END :: rest) f s pre.length = .ok (s, none) := by
  have hpos : pre.length < (pre ++ OPT_END :: rest).length := by simp
  rw [forEachOptionFrom, if_pos hpos, read_append _ _ rfl, ok_bind, if_pos rfl]
  rfl

/-- An option is visited. -/
theorem forEachOptionFrom_option (f : OptionVisitor σ τ) (s : σ) (o : DhcpOption)
    (pre rest : List UInt8) :
    forEachOptionFrom (pre ++ (o.code :: UInt8.ofNat o.data.length :: (o.data ++ rest))) f s
        pre.length =
      match (f s o.code o.data).2 with
      | some result => .ok ((f s o.code o.data).1, some result)
      | none => forEachOptionFrom
          (pre ++ (o.code :: UInt8.ofNat o.data.length :: (o.data ++ rest))) f
            (f s o.code o.data).1 (pre.length + (2 + o.data.length)) := by
  have hlen : (UInt8.ofNat o.data.length).toNat = o.data.length := by
    have hle := o.length_le
    rw [UInt8.toNat_ofNat']
    omega
  set pkt := pre ++ (o.code :: UInt8.ofNat o.data.length :: (o.data ++ rest)) with hpkt
  have hlength : pkt.length = pre.length + (2 + o.data.length) + rest.length := by
    rw [hpkt]
    simp only [List.length_append, List.length_cons]
    omega
  have hcode : read pkt pre.length = .ok o.code := read_append _ _ rfl
  have hsecond : read pkt (pre.length + 1) = .ok (UInt8.ofNat o.data.length) := by
    have hsplit : pkt = pre ++ [o.code] ++ UInt8.ofNat o.data.length :: (o.data ++ rest) := by
      rw [hpkt, List.append_assoc]
      rfl
    rw [hsplit]
    exact read_append _ _ (by simp)
  have hdata : slice pkt (pre.length + 2) (pre.length + 2 + o.data.length) = .ok o.data := by
    have hsplit : pkt = pre ++ [o.code, UInt8.ofNat o.data.length] ++ (o.data ++ rest) := by
      rw [hpkt, List.append_assoc]
      rfl
    rw [hsplit]
    exact slice_append rest (by simp) rfl
  rw [forEachOptionFrom, if_pos (by omega), hcode, ok_bind, if_neg o.code_ne_end,
    if_neg o.code_ne_zero, if_neg (by omega), hsecond, ok_bind, hlen, if_neg (by omega), hdata,
    ok_bind]
  dsimp only
  rw [Nat.add_assoc]
  cases (f s o.code o.data).2 with
  | some result => rfl
  | none => rfl

/-- **The encoded options are visited**, from their first byte on. -/
theorem forEachOptionFrom_encoded (f : OptionVisitor σ τ) (options : List (ℕ × DhcpOption))
    (padding : ℕ) (rest : List UInt8) : ∀ (pre : List UInt8) (s : σ),
      forEachOptionFrom
          (pre ++ (encodeOptions options ++ (List.replicate padding 0 ++ OPT_END :: rest))) f s
            pre.length =
        .ok (f.visit s (options.map fun e => e.2.visited)) := by
  induction options with
  | nil =>
      intro pre s
      show forEachOptionFrom (pre ++ (List.replicate padding 0 ++ OPT_END :: rest)) f s pre.length =
        .ok (s, none)
      rw [forEachOptionFrom_padding, ← List.append_assoc]
      have hend := forEachOptionFrom_end f s (pre ++ List.replicate padding 0) rest
      rwa [List.length_append, List.length_replicate] at hend
  | cons e options ih =>
      obtain ⟨zeros, o⟩ := e
      intro pre s
      set tail := encodeOptions options ++ (List.replicate padding 0 ++ OPT_END :: rest) with htail
      have hsplit : pre ++ (encodeOptions ((zeros, o) :: options) ++
          (List.replicate padding 0 ++ OPT_END :: rest)) =
            pre ++ (List.replicate zeros 0 ++
              (o.code :: UInt8.ofNat o.data.length :: (o.data ++ tail))) := by
        rw [encodeOptions, List.flatMap_cons, encodeOption, htail, encodeOptions]
        simp only [List.append_assoc, List.cons_append]
      have hfirst := forEachOptionFrom_option f s o (pre ++ List.replicate zeros 0) tail
      have hbehind := ih (pre ++ List.replicate zeros 0 ++
        (o.code :: UInt8.ofNat o.data.length :: o.data)) (f s o.code o.data).1
      have hlengths : (pre ++ List.replicate zeros 0 ++
          (o.code :: UInt8.ofNat o.data.length :: o.data)).length =
            pre.length + zeros + (2 + o.data.length) := by
        simp only [List.length_append, List.length_cons, List.length_replicate]
        omega
      rw [hlengths] at hbehind
      rw [List.length_append, List.length_replicate] at hfirst
      simp only [List.append_assoc, List.cons_append] at hfirst hbehind
      rw [hsplit, forEachOptionFrom_padding, hfirst, List.map_cons, DhcpOption.visited,
        OptionVisitor.visit]
      cases (f s o.code o.data).2 with
      | some result => rfl
      | none => exact hbehind

/-- Behind its header, a packet is walked over. -/
theorem forEachOption_header {header : List UInt8} (h : IsHeader header) (f : OptionVisitor σ τ)
    (s : σ) (body : List UInt8) :
    forEachOption (header ++ body) f s = forEachOptionFrom (header ++ body) f s header.length := by
  have hlong : ¬(header ++ body).length < 240 := by
    rw [List.length_append, h.length_eq]
    omega
  have hcookie : slice (header ++ body) 236 240 = .ok MAGIC_COOKIE := by
    have hsplit : header ++ body = header.take 236 ++ (MAGIC_COOKIE ++ body) := by
      rw [← h.cookie, ← List.append_assoc, List.take_append_drop]
    have htake : (header.take 236).length = 236 := by
      rw [List.length_take, h.length_eq]
      rfl
    rw [hsplit]
    exact slice_append body htake.symm rfl
  rw [forEachOption, if_neg hlong, hcookie, ok_bind, if_neg (not_not.mpr rfl), h.length_eq]

/-- **The encoded options are visited.** -/
theorem forEachOption_encoded {header : List UInt8} (h : IsHeader header)
    (f : OptionVisitor σ τ) (s : σ) (options : List (ℕ × DhcpOption)) (padding : ℕ)
    (rest : List UInt8) :
    forEachOption (header ++ (encodeOptions options ++
        (List.replicate padding 0 ++ OPT_END :: rest))) f s =
      .ok (f.visit s (options.map fun e => e.2.visited)) :=
  (forEachOption_header h f s _).trans (forEachOptionFrom_encoded f options padding rest header s)

end Walks

/-! ## The request -/

section Request

/-- The packet is written up to the position, and zero behind it. -/
def blankBehind (written : List UInt8) (n : ℕ) : List UInt8 × ℕ :=
  (written ++ List.replicate n 0, written.length)

theorem writeAt_blankBehind (written : List UInt8) (n : ℕ) (bytes : List UInt8) :
    writeAt (blankBehind written n) bytes = blankBehind (written ++ bytes) (n - bytes.length) := by
  have hsplice : splice (written ++ List.replicate n 0) written.length bytes =
      written ++ bytes ++ List.replicate (n - bytes.length) 0 := by
    rw [splice, List.take_left, List.drop_append, List.drop_eq_nil_of_le (by omega), List.nil_append,
      Nat.add_sub_cancel_left, List.drop_replicate, List.append_assoc]
  rw [writeAt, blankBehind, blankBehind, hsplice, List.length_append]

/-- A byte in decimal is read back, and has no dot. -/
theorem parseUnsigned_byte (b : UInt8) :
    parseUnsigned 256 (Nat.toDigits 10 b.toNat) = .ok b.toNat ∧ '.' ∉ Nat.toDigits 10 b.toNat := by
  have hall : ∀ n < 256, parseUnsigned 256 (Nat.toDigits 10 n) = .ok n ∧
      '.' ∉ Nat.toDigits 10 n := by
    decide +kernel
  exact hall b.toNat b.toNat_lt

/-- A dotted quad is read back. -/
theorem parseIpToBytes_ipv4ToString (a : Ipv4Addr) : parseIpToBytes (ipv4ToString a) = .ok a := by
  have hsplit : (ipv4ToString a).toList.splitOn '.' =
      [Nat.toDigits 10 (u32Byte a.bits 0).toNat, Nat.toDigits 10 (u32Byte a.bits 1).toNat,
        Nat.toDigits 10 (u32Byte a.bits 2).toNat, Nat.toDigits 10 (u32Byte a.bits 3).toNat] := by
    rw [toList_ipv4ToString, List.splitOn_append_cons_self_of_not_mem (parseUnsigned_byte _).2,
      List.splitOn_append_cons_self_of_not_mem (parseUnsigned_byte _).2,
      List.splitOn_append_cons_self_of_not_mem (parseUnsigned_byte _).2,
      List.splitOn_eq_singleton (parseUnsigned_byte _).2]
  have hbits : Ipv4Addr.ofOctets (u32Byte a.bits 0) (u32Byte a.bits 1) (u32Byte a.bits 2)
      (u32Byte a.bits 3) = a := by
    rw [Ipv4Addr.ofOctets, u32OfBe_bytes]
  rw [parseIpToBytes, hsplit]
  simp only [List.mapM_cons, List.mapM_nil, (parseUnsigned_byte _).1]
  show Except.ok (Ipv4Addr.ofOctets (.ofNat _) (.ofNat _) (.ofNat _) (.ofNat _)) = _
  rw [UInt8.ofNat_toNat, UInt8.ofNat_toNat, UInt8.ofNat_toNat, UInt8.ofNat_toNat, hbits]

/-- An option that has an address. -/
def ipOption (optCode : UInt8) (hzero : optCode ≠ 0) (hend : optCode ≠ OPT_END) (a : Ipv4Addr) :
    DhcpOption where
  code := optCode
  data := a.octets
  code_ne_zero := hzero
  code_ne_end := hend
  length_le := by simp [Ipv4Addr.octets]

/-- The options of a request. -/
def requestOptions (ip : Ipv4Addr) (server : Option Ipv4Addr) : List DhcpOption :=
  ⟨OPT_MSG_TYPE, [DHCP_REQUEST], by decide, by decide, by decide⟩ ::
    ipOption OPT_REQUESTED_IP (by decide) (by decide) ip ::
      (server.map (ipOption OPT_SERVER_ID (by decide) (by decide))).toList ++
        [⟨OPT_PARAM_LIST, [OPT_SUBNET_MASK, OPT_ROUTER, OPT_DNS], by decide, by decide, by decide⟩]

/-- The header of a request. -/
def requestHeader (xid chaddr : List UInt8) : List UInt8 :=
  (splice (splice (splice (splice (List.replicate 300 0) 0 [1, 1, 6, 0]) 4 xid) 10 [0x80]) 28
    chaddr).take 236 ++ MAGIC_COOKIE

section Header

variable {xid chaddr : List UInt8}

/-- The fields of the header lie before the cookie. -/
theorem requestHeader_spec (hxid : xid.length = 4) (hchaddr : chaddr.length = 16) :
    IsHeader (requestHeader xid chaddr) ∧
      splice (splice (splice (splice (splice (List.replicate 300 0) 0 [1, 1, 6, 0]) 4 xid) 10
        [0x80]) 28 chaddr) 236 MAGIC_COOKIE = requestHeader xid chaddr ++ List.replicate 60 0 := by
  have hzeros : (List.replicate 300 (0 : UInt8)).length = 300 := List.length_replicate
  have h₁ : (splice (List.replicate 300 0) 0 [1, 1, 6, 0]).length = 300 :=
    (length_splice (by rw [hzeros]; decide)).trans hzeros
  have h₂ : (splice (splice (List.replicate 300 0) 0 [1, 1, 6, 0]) 4 xid).length = 300 :=
    (length_splice (by omega)).trans h₁
  have h₃ : (splice (splice (splice (List.replicate 300 0) 0 [1, 1, 6, 0]) 4 xid) 10
      [0x80]).length = 300 := (length_splice (by rw [h₂]; decide)).trans h₂
  have h₄ : (splice (splice (splice (splice (List.replicate 300 0) 0 [1, 1, 6, 0]) 4 xid) 10
      [0x80]) 28 chaddr).length = 300 := (length_splice (by omega)).trans h₃
  have htake : (requestHeader xid chaddr).length = 240 := by
    rw [requestHeader, List.length_append, List.length_take, h₄]
    rfl
  refine ⟨⟨htake, ?_⟩, ?_⟩
  · rw [requestHeader]
    exact List.drop_left' (by rw [List.length_take, h₄]; rfl)
  · have hbehind : (splice (splice (splice (splice (List.replicate 300 0) 0 [1, 1, 6, 0]) 4 xid)
        10 [0x80]) 28 chaddr).drop 240 = List.replicate 60 0 := by
      rw [drop_splice (by omega) (by omega), drop_splice (by omega) (by simp),
        drop_splice (by omega) (by omega), drop_splice (by omega) (by simp), List.drop_replicate]
    rw [splice, show 236 + MAGIC_COOKIE.length = 240 from rfl, hbehind, requestHeader,
      List.append_assoc]

end Header

/-- An address is written as an option. -/
theorem writeIpOption_blankBehind (written : List UInt8) (n : ℕ) {optCode : UInt8} {ip : String}
    {a : Ipv4Addr} (hzero : optCode ≠ 0) (hend : optCode ≠ OPT_END)
    (hip : parseIpToBytes ip = .ok a) :
    writeIpOption (blankBehind written n) optCode ip =
      blankBehind (written ++ encodeOption 0 (ipOption optCode hzero hend a)) (n - 6) := by
  rw [writeIpOption, hip]
  dsimp only
  rw [writeAt_blankBehind]
  rfl

/-- The end mark, and the packet cut behind it. -/
theorem take_splice_blankBehind (written : List UInt8) (n : ℕ) (b : UInt8) :
    (splice (blankBehind written n).1 (blankBehind written n).2 [b]).take
      ((blankBehind written n).2 + 1) = written ++ [b] := by
  have hwrite : splice (blankBehind written n).1 (blankBehind written n).2 [b] =
      written ++ [b] ++ List.replicate (n - 1) 0 :=
    congrArg Prod.fst (writeAt_blankBehind written n [b])
  have hlength : (written ++ [b]).length = (blankBehind written n).2 + 1 := List.length_append
  rw [hwrite]
  exact List.take_left' hlength

/-- **A request** is a header, its options and the end mark. -/
theorem buildRequest_eq {offer : List UInt8} (hoffer : 44 ≤ offer.length) {offered : String}
    {ip : Ipv4Addr} (hip : parseIpToBytes offered = .ok ip) {server : Option String}
    {srv : Option Ipv4Addr} (hsrv : server.map parseIpToBytes = srv.map .ok) :
    ∃ header, IsHeader header ∧ buildRequest offer offered server =
      .ok (header ++ (encodeOptions ((requestOptions ip srv).map fun o => (0, o)) ++ [OPT_END])) := by
  have hxid : ((offer.drop 4).take (8 - 4)).length = 4 := by
    rw [List.length_take, List.length_drop]
    omega
  have hchaddr : ((offer.drop 28).take (44 - 28)).length = 16 := by
    rw [List.length_take, List.length_drop]
    omega
  obtain ⟨hheader, hwritten⟩ := requestHeader_spec hxid hchaddr
  refine ⟨_, hheader, ?_⟩
  rw [buildRequest]
  dsimp only
  rw [slice_eq (by decide) (by omega), ok_bind, slice_eq (by decide) hoffer, ok_bind, hwritten]
  generalize requestHeader _ _ = header at hheader
  have hstart : (header ++ List.replicate 60 0, 240) = blankBehind header 60 := by
    rw [blankBehind, hheader.length_eq]
  rw [hstart, writeAt_blankBehind, writeIpOption_blankBehind _ _ (by decide) (by decide) hip]
  cases server with
  | none =>
      obtain rfl : srv = none := by
        cases srv with
        | none => rfl
        | some a => cases hsrv
      dsimp only
      rw [writeAt_blankBehind, take_splice_blankBehind]
      simp only [List.append_assoc]
      rfl
  | some text =>
      cases srv with
      | none => cases hsrv
      | some a =>
          dsimp only
          rw [writeIpOption_blankBehind _ _ (by decide) (by decide) (Option.some_inj.mp hsrv),
            writeAt_blankBehind, take_splice_blankBehind]
          simp only [List.append_assoc]
          rfl

/-! ## What is found again -/

/-- The visits of an option parser end at the first option that it takes. -/
theorem visit_unit {τ : Type} (g : UInt8 → List UInt8 → Option τ) :
    ∀ options : List (UInt8 × List UInt8),
      OptionVisitor.visit (fun _ opt data => ((), g opt data)) () options =
        ((), options.findSome? fun o => g o.1 o.2) := by
  intro options
  induction options with
  | nil => rfl
  | cons o options ih =>
      rw [OptionVisitor.visit, List.findSome?_cons]
      cases g o.1 o.2 with
      | some result => rfl
      | none => exact ih

theorem firstQuad_octets (a : Ipv4Addr) : firstQuad a.octets = some (ipv4ToString a) := by
  show some (ipv4ToString (.ofOctets _ _ _ _)) = _
  rw [Ipv4Addr.ofOctets, u32OfBe_bytes]

/-- The closure of `get_option_ips` takes every option of the code. -/
theorem visit_allQuads (optCode : UInt8) : ∀ (options : List (UInt8 × List UInt8))
    (result : List String),
      OptionVisitor.visit (fun result opt data =>
        (if opt = optCode then result ++ allQuads data else result, (none : Option Unit))) result
          options =
        (result ++ (options.filter fun o => decide (o.1 = optCode)).flatMap fun o => allQuads o.2,
          none) := by
  intro options
  induction options with
  | nil => exact fun result => by rw [List.filter_nil, List.flatMap_nil, List.append_nil]; rfl
  | cons o options ih =>
      intro result
      rw [OptionVisitor.visit]
      dsimp only
      rw [ih]
      by_cases hcode : o.1 = optCode
      · have hfilter : (o :: options).filter (fun o => decide (o.1 = optCode)) =
            o :: options.filter fun o => decide (o.1 = optCode) :=
          List.filter_cons_of_pos (decide_eq_true hcode)
        rw [if_pos hcode, hfilter, List.flatMap_cons, List.append_assoc]
      · have hfilter : (o :: options).filter (fun o => decide (o.1 = optCode)) =
            options.filter fun o => decide (o.1 = optCode) :=
          List.filter_cons_of_neg (by simpa using hcode)
        rw [if_neg hcode, hfilter]

/-- **All addresses of a code are found.** -/
theorem getOptionIps_encoded {header : List UInt8} (h : IsHeader header)
    (options : List (ℕ × DhcpOption)) (padding : ℕ) (rest : List UInt8) (optCode : UInt8) :
    getOptionIps (header ++ (encodeOptions options ++
        (List.replicate padding 0 ++ OPT_END :: rest))) optCode =
      .ok (((options.map fun e => e.2.visited).filter fun o => decide (o.1 = optCode)).flatMap
        fun o => allQuads o.2) := by
  rw [getOptionIps, forEachOption_encoded h, ok_bind, visit_allQuads]
  rfl

/-- An option parser takes the first option of a request that it can. -/
theorem forEachOption_request {τ : Type} {header : List UInt8} (h : IsHeader header)
    {ip : Ipv4Addr} {srv : Option Ipv4Addr} (g : UInt8 → List UInt8 → Option τ) :
    forEachOption (header ++ (encodeOptions ((requestOptions ip srv).map fun o => (0, o)) ++
        [OPT_END])) (fun _ opt data => ((), g opt data)) () =
      .ok ((), (requestOptions ip srv).findSome? fun o => g o.code o.data) := by
  have hwalk := forEachOption_encoded h (fun _ opt data => ((), g opt data)) ()
    ((requestOptions ip srv).map fun o => (0, o)) 0 []
  rw [visit_unit, List.map_map, List.findSome?_map] at hwalk
  exact hwalk

end Request

/-- **DHCP options.**  The walk over them never reads out of bounds; it visits the options that are
encoded behind a header, with any zeros between them; and what `build_request` writes is found
again: the type of the message, the requested address, and the server, if there is one. -/
theorem dhcp_options_round_trip :
    (∀ (σ τ : Type) (pkt : List UInt8) (f : OptionVisitor σ τ) (s : σ),
      ∃ r, forEachOption pkt f s = .ok r) ∧
    (∀ (σ τ : Type) (header : List UInt8), IsHeader header → ∀ (options : List (ℕ × DhcpOption))
      (padding : ℕ) (rest : List UInt8) (f : OptionVisitor σ τ) (s : σ),
        forEachOption (header ++ (encodeOptions options ++
            (List.replicate padding 0 ++ OPT_END :: rest))) f s =
          .ok (f.visit s (options.map fun e => e.2.visited))) ∧
    (∀ offer : List UInt8, 44 ≤ offer.length → ∀ (offered : String) (ip : Ipv4Addr),
      parseIpToBytes offered = .ok ip → ∀ (server : Option String) (srv : Option Ipv4Addr),
        server.map parseIpToBytes = srv.map .ok →
          ∃ pkt, buildRequest offer offered server = .ok pkt ∧
            getMsgType pkt = .ok (some DHCP_REQUEST) ∧
            getOptionIp pkt OPT_REQUESTED_IP = .ok (some (ipv4ToString ip)) ∧
            getOptionIp pkt OPT_SERVER_ID = .ok (srv.map ipv4ToString)) ∧
    ∀ a : Ipv4Addr, parseIpToBytes (ipv4ToString a) = .ok a := by
  refine ⟨fun σ τ pkt f s => forEachOption_safe pkt f s,
    fun σ τ header h options padding rest f s => forEachOption_encoded h f s options padding rest,
    fun offer hoffer offered ip hip server srv hsrv => ?_, parseIpToBytes_ipv4ToString⟩
  obtain ⟨header, hheader, hbuilt⟩ := buildRequest_eq hoffer hip hsrv
  refine ⟨_, hbuilt, ?_, ?_, ?_⟩
  · rw [getMsgType, forEachOption_request hheader]
    rfl
  · rw [getOptionIp, forEachOption_request hheader]
    show Except.ok (firstQuad ip.octets) = _
    rw [firstQuad_octets]
  · rw [getOptionIp, forEachOption_request hheader]
    cases srv with
    | none => rfl
    | some a =>
        show Except.ok (firstQuad a.octets) = _
        rw [firstQuad_octets]
        rfl

/-- The type of an acknowledgement. -/
def ackOption : DhcpOption :=
  ⟨OPT_MSG_TYPE, [5], by decide, by decide, by decide⟩

/-- An acknowledgement is walked over, and an offer of `192.168.64.2` by `192.168.64.1` is
requested. -/
theorem dhcp_options_round_trip_vmnet :
    IsHeader (List.replicate 236 0 ++ MAGIC_COOKIE) ∧
    forEachOption (List.replicate 236 0 ++ MAGIC_COOKIE ++ (encodeOptions [(2, ackOption)] ++
        (List.replicate 1 0 ++ OPT_END :: [])))
      (fun seen opt data => (seen ++ [(opt, data)], (none : Option Unit))) [] =
        .ok ([(OPT_MSG_TYPE, [5])], none) ∧
    parseIpToBytes "192.168.64.2" = .ok (.ofOctets 192 168 64 2) ∧
    (some "192.168.64.1").map parseIpToBytes = (some (.ofOctets 192 168 64 1)).map .ok ∧
    ∃ pkt, buildRequest (List.replicate 44 0) "192.168.64.2" (some "192.168.64.1") = .ok pkt ∧
      getMsgType pkt = .ok (some DHCP_REQUEST) ∧
      getOptionIp pkt OPT_REQUESTED_IP = .ok (some "192.168.64.2") ∧
      getOptionIp pkt OPT_SERVER_ID = .ok (some "192.168.64.1") := by
  have hheader : IsHeader (List.replicate 236 0 ++ MAGIC_COOKIE) := ⟨rfl, rfl⟩
  have hip : parseIpToBytes "192.168.64.2" = .ok (.ofOctets 192 168 64 2) := rfl
  have hsrv : (some "192.168.64.1").map parseIpToBytes =
      (some (.ofOctets 192 168 64 1)).map .ok := rfl
  exact ⟨hheader, dhcp_options_round_trip.2.1 _ _ _ hheader [(2, ackOption)] 1 [] _ _, hip, hsrv,
    dhcp_options_round_trip.2.2.1 _ (by decide) _ _ hip _ _ hsrv⟩

end K3rs
