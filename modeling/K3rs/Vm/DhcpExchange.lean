import K3rs.Vm.Dhcp
import K3rs.Vm.BootParams

/-!
# The DHCP exchange of k3rs-init

Without boot parameters a guest asks a DHCP server for its address: it sends a DISCOVER, waits for
an OFFER, sends a REQUEST for what was offered, and waits for an ACK.  Whatever is not the message it
waits for ends the attempt, and there are three attempts.

What the calls of the socket return may depend on all that happened before (`DhcpNetwork`), so every
network and every server is one of these.  The client never reads out of bounds, and a lease comes
from an OFFER that it requested and the ACK behind it (`dhcp_lease_provenance`).
-/

namespace K3rs

open CheckedReads Net Wire Words

/-! ## Constants -/

/-- `DHCP_DISCOVER`. -/
def DHCP_DISCOVER : UInt8 := 1

/-- `DHCP_OFFER`. -/
def DHCP_OFFER : UInt8 := 2

/-- `DHCP_ACK`. -/
def DHCP_ACK : UInt8 := 5

/-- `XID`. -/
def XID : UInt32 := 0x4b335253

/-! ## Leases -/

/-- `DhcpLease`. -/
structure DhcpLease where
  ip : String
  prefixLen : ℕ
  gateway : Option String
  dnsServers : List String
  deriving DecidableEq, Repr

/-- `u32::leading_ones`. -/
def leadingOnes (x : UInt32) : ℕ :=
  ((List.range 32).takeWhile fun i => x.toBitVec.getMsbD i).length

/-- `mask_to_prefix`. -/
def maskToPrefix (mask : String) : ℕ :=
  match (mask.toList.splitOn '.').filterMap fun s => (parseUnsigned 256 s).toOption with
  | [b₀, b₁, b₂, b₃] => leadingOnes (u32OfBe (.ofNat b₀) (.ofNat b₁) (.ofNat b₂) (.ofNat b₃))
  | _ => 24

/-- Four bytes of a packet, as a dotted quad. -/
def quadAt (pkt : List UInt8) (i : ℕ) : Checked String := do
  let b₀ ← read pkt i
  let b₁ ← read pkt (i + 1)
  let b₂ ← read pkt (i + 2)
  let b₃ ← read pkt (i + 3)
  return ipv4ToString (.ofOctets b₀ b₁ b₂ b₃)

/-- `parse_lease`. -/
def parseLease (ack : List UInt8) : Checked DhcpLease := do
  let ip ← quadAt ack 16
  let maskStr ← getOptionIp ack OPT_SUBNET_MASK
  let gateway ← getOptionIp ack OPT_ROUTER
  let dnsServers ← getOptionIps ack OPT_DNS
  return {
    ip
    prefixLen := match maskStr with
      | some maskStr => maskToPrefix maskStr
      | none => 24
    gateway
    dnsServers }

/-! ## The socket -/

/-- What happens at the socket. -/
inductive DhcpEvent where
  | sent (data : List UInt8)
  | sendFailed
  | timeoutSet (ms : ℕ)
  | timeoutFailed
  | received (data : List UInt8)
  | recvFailed
  | closed
  deriving DecidableEq, Repr

/-- What the calls return, after what happened so far: that of `create_dhcp_socket`, the file with
the hardware address, and those of `sendto`, `setsockopt` and `recvfrom`. -/
structure DhcpNetwork where
  createSocket : Except String Unit
  address : List DhcpEvent → Option String
  sendto : List DhcpEvent → List UInt8 → Except String Unit
  setsockopt : List DhcpEvent → ℕ → Except String Unit
  recvfrom : List DhcpEvent → Except String (List UInt8)

/-- `send_broadcast`. -/
def sendBroadcast (net : DhcpNetwork) (history : List DhcpEvent) (data : List UInt8) :
    List DhcpEvent × Except String Unit :=
  match net.sendto history data with
  | .ok () => (history ++ [.sent data], .ok ())
  | .error e => (history ++ [.sendFailed], .error ("sendto() failed: " ++ e))

/-- `set_recv_timeout`. -/
def setRecvTimeout (net : DhcpNetwork) (history : List DhcpEvent) (ms : ℕ) :
    List DhcpEvent × Except String Unit :=
  match net.setsockopt history ms with
  | .ok () => (history ++ [.timeoutSet ms], .ok ())
  | .error e => (history ++ [.timeoutFailed], .error ("setsockopt(SO_RCVTIMEO) failed: " ++ e))

/-- `{:08x}`. -/
def hex08 (n : ℕ) : String :=
  String.ofList (List.replicate (8 - (Nat.toDigits 16 n).length) '0' ++ Nat.toDigits 16 n)

/-- The checks of `recv_dhcp`, on what is in its buffer. -/
def checkReply (buf : List UInt8) : Checked (Except String (List UInt8)) :=
  if buf.length < 240 then return .error "DHCP: packet too short"
  else do
    let op ← read buf 0
    if op ≠ 2 then return .error "DHCP: not a reply"
    else
      let b₄ ← read buf 4
      let b₅ ← read buf 5
      let b₆ ← read buf 6
      let b₇ ← read buf 7
      let rxid := u32OfBe b₄ b₅ b₆ b₇
      if rxid ≠ XID then
        return .error ("DHCP: XID mismatch: expected " ++ hex08 XID.toNat ++ ", got "
          ++ hex08 rxid.toNat)
      else return .ok buf

/-- `recv_dhcp`.  The buffer has 1500 bytes. -/
def recvDhcp (net : DhcpNetwork) (history : List DhcpEvent) :
    Checked (List DhcpEvent × Except String (List UInt8)) :=
  match net.recvfrom history with
  | .error e => return (history ++ [.recvFailed], .error ("recvfrom() failed: " ++ e))
  | .ok data => do
      let reply ← checkReply (data.take 1500)
      return (history ++ [.received data], reply)

/-! ## Messages of the client -/

/-- The fields of a DISCOVER, with what is read from the file of the hardware address. -/
def discoverFields (macStr : Option String) : List UInt8 :=
  let pkt := List.replicate 300 0
  -- BOOTREQUEST, Ethernet, six bytes, no hops
  let pkt := splice pkt 0 [1, 1, 6, 0]
  let pkt := splice pkt 4 (u32ToBe XID)
  let pkt := splice pkt 10 [0x80, 0x00]
  let pkt := splice pkt 28 [0x02, 0x6b, 0x33, 0x72, 0x73, 0x01]
  match macStr with
  | some text =>
      let parts := ((trim text.toList).splitOn ':').filterMap (fromStrRadix 16 256)
      if parts.length = 6 then splice pkt 28 (parts.map UInt8.ofNat) else pkt
  | none => pkt

/-- `build_discover`. -/
def buildDiscover (macStr : Option String) : List UInt8 :=
  let pkt := splice (discoverFields macStr) 236 MAGIC_COOKIE
  let cursor := writeAt (pkt, 240) [OPT_MSG_TYPE, 1, DHCP_DISCOVER]
  let cursor := writeAt cursor [OPT_PARAM_LIST, 3, OPT_SUBNET_MASK, OPT_ROUTER, OPT_DNS]
  let pkt := splice cursor.1 cursor.2 [OPT_END]
  pkt.take (cursor.2 + 1)

/-! ## The exchange -/

/-- How an attempt ends. -/
inductive Attempt where
  | leased (lease : DhcpLease)
  | retry
  | failed (message : String)
  deriving DecidableEq, Repr

/-- The next datagram, if it is a reply of the type. -/
def awaitMessage (net : DhcpNetwork) (msgType : UInt8) (history : List DhcpEvent) :
    Checked (List DhcpEvent × Option (List UInt8)) := do
  let out ← recvDhcp net history
  match out.2 with
  | .error _ => return (out.1, none)
  | .ok msg =>
      let gotType ← getMsgType msg
      return (out.1, if gotType = some msgType then some msg else none)

/-- The second half of an attempt: the REQUEST, and the ACK. -/
def requestLease (net : DhcpNetwork) (history : List DhcpEvent) (offer : List UInt8) :
    Checked (List DhcpEvent × Attempt) := do
  let offeredIp ← quadAt offer 16
  let serverIp ← getOptionIp offer OPT_SERVER_ID
  let request ← buildRequest offer offeredIp serverIp
  let sending := sendBroadcast net history request
  match sending.2 with
  | .error e => return (sending.1, .failed e)
  | .ok () =>
      let reply ← awaitMessage net DHCP_ACK sending.1
      match reply.2 with
      | none => return (reply.1, .retry)
      | some ack =>
          let lease ← parseLease ack
          return (reply.1, .leased lease)

/-- The body of the loop of `do_dhcp`. -/
def attempt (net : DhcpNetwork) (n : ℕ) (history : List DhcpEvent) :
    Checked (List DhcpEvent × Attempt) := do
  let sending := sendBroadcast net history (buildDiscover (net.address history))
  match sending.2 with
  | .error e => return (sending.1, .failed e)
  | .ok () =>
      let waiting := setRecvTimeout net sending.1 (2000 * 2 ^ n)
      match waiting.2 with
      | .error e => return (waiting.1, .failed e)
      | .ok () =>
          let reply ← awaitMessage net DHCP_OFFER waiting.1
          match reply.2 with
          | none => return (reply.1, .retry)
          | some offer => requestLease net reply.1 offer

/-- The loop of `do_dhcp`.  A socket is not closed when an error ends the loop. -/
def attempts (net : DhcpNetwork) : List ℕ → List DhcpEvent →
    Checked (List DhcpEvent × Except String DhcpLease)
  | [], history => return (history ++ [.closed], .error "DHCP: failed after 3 attempts")
  | n :: rest, history => do
      let out ← attempt net n history
      match out.2 with
      | .leased lease => return (out.1 ++ [.closed], .ok lease)
      | .retry => attempts net rest out.1
      | .failed e => return (out.1, .error e)

/-- `do_dhcp`. -/
def doDhcp (net : DhcpNetwork) : Checked (List DhcpEvent × Except String DhcpLease) :=
  match net.createSocket with
  | .error e => return ([], .error e)
  | .ok () => attempts net (List.range 3) []

/-! ## What the option parsers return -/

section Walks

variable {σ τ : Type} {f : OptionVisitor σ τ} {pkt : List UInt8}

/-- What the closure keeps is kept by the loop, and a result is one of the closure. -/
theorem forEachOptionFrom_keeps (I : σ → Prop) (Q : τ → Prop)
    (hf : ∀ s opt data, I s → I (f s opt data).1 ∧ ∀ r, (f s opt data).2 = some r → Q r) (pos : ℕ) :
    ∀ {s : σ} {out : σ × Option τ}, I s → forEachOptionFrom pkt f s pos = .ok out →
      I out.1 ∧ ∀ r, out.2 = some r → Q r := by
  induction hleft : pkt.length - pos using Nat.strong_induction_on generalizing pos with
  | _ left ih =>
      intro s out hs h
      rw [forEachOptionFrom] at h
      by_cases hpos : pos < pkt.length
      · rw [if_pos hpos, read_eq hpos, ok_bind] at h
        split_ifs at h with hend hpad hlast
        · obtain rfl := Except.ok.inj h
          exact ⟨hs, by simp⟩
        · exact ih _ (by omega) (pos + 1) rfl hs h
        · obtain rfl := Except.ok.inj h
          exact ⟨hs, by simp⟩
        · rw [read_eq (not_le.mp hlast), ok_bind] at h
          split_ifs at h with hcut
          · obtain rfl := Except.ok.inj h
            exact ⟨hs, by simp⟩
          · rw [slice_eq (Nat.le_add_right _ _) (not_lt.mp hcut), ok_bind] at h
            dsimp only at h
            obtain ⟨hkept, hresult⟩ := hf s _ _ hs
            split at h
            · rename_i result heq
              obtain rfl := Except.ok.inj h
              exact ⟨hkept, fun r hr => hresult r (heq.trans hr)⟩
            · exact ih _ (by omega) _ rfl hkept h
      · rw [if_neg hpos] at h
        obtain rfl := Except.ok.inj h
        exact ⟨hs, by simp⟩

/-- What the closure keeps is kept by the walk. -/
theorem forEachOption_keeps (I : σ → Prop) (Q : τ → Prop)
    (hf : ∀ s opt data, I s → I (f s opt data).1 ∧ ∀ r, (f s opt data).2 = some r → Q r)
    {s : σ} {out : σ × Option τ} (hs : I s) (h : forEachOption pkt f s = .ok out) :
    I out.1 ∧ ∀ r, out.2 = some r → Q r := by
  rw [forEachOption] at h
  split_ifs at h with hshort
  · obtain rfl := Except.ok.inj h
    exact ⟨hs, by simp⟩
  · rw [slice_eq (by decide) (not_lt.mp hshort), ok_bind] at h
    split_ifs at h
    · obtain rfl := Except.ok.inj h
      exact ⟨hs, by simp⟩
    · exact forEachOptionFrom_keeps I Q hf 240 hs h

end Walks

section Parsers

variable (pkt : List UInt8) (optCode : UInt8)

theorem exists_getMsgType : ∃ t, getMsgType pkt = .ok t :=
  exists_ok_bind (forEachOption_safe pkt _ ()) fun _ _ => ⟨_, rfl⟩

theorem exists_of_firstQuad {data : List UInt8} {text : String} (h : firstQuad data = some text) :
    ∃ a, text = ipv4ToString a := by
  unfold firstQuad at h
  split at h
  · exact ⟨_, (Option.some.inj h).symm⟩
  · cases h

theorem exists_allQuads (data : List UInt8) :
    ∃ as : List Ipv4Addr, allQuads data = as.map ipv4ToString := by
  induction data using allQuads.induct with
  | case1 b₀ b₁ b₂ b₃ rest ih =>
      obtain ⟨as, has⟩ := ih
      exact ⟨.ofOctets b₀ b₁ b₂ b₃ :: as, by rw [allQuads, has, List.map_cons]⟩
  | case2 data h => exact ⟨[], allQuads.eq_2 data h⟩

/-- An address of an option is the text of one. -/
theorem exists_getOptionIp :
    ∃ a : Option Ipv4Addr, getOptionIp pkt optCode = .ok (a.map ipv4ToString) := by
  obtain ⟨out, hout⟩ := forEachOption_safe pkt
    (fun _ opt data => ((), if opt = optCode then firstQuad data else none)) ()
  have hquad : ∀ text, out.2 = some text → ∃ a, text = ipv4ToString a := by
    refine (forEachOption_keeps (fun _ => True) _ (fun _ opt data _ => ⟨trivial, fun text h => ?_⟩)
      trivial hout).2
    dsimp only at h
    split_ifs at h
    exact exists_of_firstQuad h
  unfold getOptionIp
  rw [hout, ok_bind]
  cases hval : out.2 with
  | none => exact ⟨none, rfl⟩
  | some text =>
      obtain ⟨a, rfl⟩ := hquad text hval
      exact ⟨some a, rfl⟩

/-- So are all addresses of an option. -/
theorem exists_getOptionIps :
    ∃ as : List Ipv4Addr, getOptionIps pkt optCode = .ok (as.map ipv4ToString) := by
  obtain ⟨out, hout⟩ := forEachOption_safe pkt (fun result opt data =>
    (if opt = optCode then result ++ allQuads data else result, (none : Option Unit))) []
  have htexts : ∃ as : List Ipv4Addr, out.1 = as.map ipv4ToString := by
    refine (forEachOption_keeps (fun result => ∃ as : List Ipv4Addr, result = as.map ipv4ToString)
      (fun _ => True) (fun result opt data h => ⟨?_, fun _ _ => trivial⟩) ⟨[], rfl⟩ hout).1
    dsimp only
    split_ifs
    · obtain ⟨as, rfl⟩ := h
      obtain ⟨more, hmore⟩ := exists_allQuads data
      exact ⟨as ++ more, by rw [hmore, List.map_append]⟩
    · exact h
  obtain ⟨as, has⟩ := htexts
  refine ⟨as, ?_⟩
  unfold getOptionIps
  rw [hout, ok_bind, has]
  rfl

end Parsers

/-- The address in a packet. -/
def addressAt (pkt : List UInt8) (i : ℕ) : Ipv4Addr :=
  .ofOctets (pkt.getD i 0) (pkt.getD (i + 1) 0) (pkt.getD (i + 2) 0) (pkt.getD (i + 3) 0)

theorem read_getD {bytes : List UInt8} {i : ℕ} (h : i < bytes.length) :
    read bytes i = .ok (bytes.getD i 0) := by
  rw [read_eq h, List.getD_eq_getElem?_getD, List.getElem?_eq_getElem h, Option.getD_some]

theorem quadAt_eq {pkt : List UInt8} {i : ℕ} (h : i + 4 ≤ pkt.length) :
    quadAt pkt i = .ok (ipv4ToString (addressAt pkt i)) := by
  rw [quadAt, read_getD (by omega), ok_bind, read_getD (by omega), ok_bind, read_getD (by omega),
    ok_bind, read_getD (by omega), ok_bind]
  rfl

/-! ## Masks -/

section Masks

theorem leadingOnes_le (x : UInt32) : leadingOnes x ≤ 32 := by
  unfold leadingOnes
  exact (List.takeWhile_sublist _).length_le.trans_eq List.length_range

theorem filterMap_of_mapM {α β ε : Type} {f : α → Except ε β} : ∀ {l : List α} {r : List β},
    l.mapM f = .ok r → l.filterMap (fun a => (f a).toOption) = r := by
  intro l
  induction l with
  | nil =>
      intro r h
      obtain rfl := Except.ok.inj h
      rfl
  | cons a l ih =>
      intro r h
      rw [List.mapM_cons] at h
      cases hfirst : f a with
      | error e =>
          rw [hfirst] at h
          cases h
      | ok b =>
          rw [hfirst] at h
          cases hrest : l.mapM f with
          | error e =>
              rw [hrest] at h
              cases h
          | ok bs =>
              rw [hrest] at h
              obtain rfl := Except.ok.inj h
              rw [List.filterMap_cons, hfirst, ih hrest]
              rfl

/-- The four numbers of a dotted quad. -/
theorem exists_parts (a : Ipv4Addr) :
    ∃ b₀ b₁ b₂ b₃ : ℕ, ((ipv4ToString a).toList.splitOn '.').mapM (parseUnsigned 256) =
        .ok [b₀, b₁, b₂, b₃] ∧ a = .ofOctets (.ofNat b₀) (.ofNat b₁) (.ofNat b₂) (.ofNat b₃) := by
  have h := parseIpToBytes_ipv4ToString a
  unfold parseIpToBytes at h
  cases hparts : ((ipv4ToString a).toList.splitOn '.').mapM (parseUnsigned 256) with
  | error e =>
      rw [hparts] at h
      cases h
  | ok parts =>
      rw [hparts] at h
      change (match parts with
        | [b₀, b₁, b₂, b₃] => Except.ok (Ipv4Addr.ofOctets (.ofNat b₀) (.ofNat b₁) (.ofNat b₂)
            (.ofNat b₃))
        | _ => .error ("invalid IP: " ++ ipv4ToString a)) = .ok a at h
      split at h
      · rename_i b₀ b₁ b₂ b₃
        exact ⟨b₀, b₁, b₂, b₃, rfl, (Except.ok.inj h).symm⟩
      · cases h

theorem maskToPrefix_ipv4ToString (a : Ipv4Addr) :
    maskToPrefix (ipv4ToString a) = leadingOnes a.bits := by
  obtain ⟨b₀, b₁, b₂, b₃, hparts, ha⟩ := exists_parts a
  have hfour : ((ipv4ToString a).toList.splitOn '.').filterMap
      (fun s => (parseUnsigned 256 s).toOption) = [b₀, b₁, b₂, b₃] := filterMap_of_mapM hparts
  unfold maskToPrefix
  rw [hfour, ha]
  generalize leadingOnes = ones
  rfl

end Masks

/-! ## What is handed out -/

/-- What a server hands out. -/
structure Handout where
  ip : Ipv4Addr
  prefixLen : ℕ
  gateway : Option Ipv4Addr
  dnsServers : List Ipv4Addr
  prefixLen_le : prefixLen ≤ 32

/-- As a lease. -/
def Handout.lease (h : Handout) : DhcpLease where
  ip := ipv4ToString h.ip
  prefixLen := h.prefixLen
  gateway := h.gateway.map ipv4ToString
  dnsServers := h.dnsServers.map ipv4ToString

/-- **A lease is parsed** from any packet that is long enough. -/
theorem exists_parseLease {ack : List UInt8} (hack : 240 ≤ ack.length) :
    ∃ h : Handout, parseLease ack = .ok h.lease ∧ h.ip = addressAt ack 16 := by
  obtain ⟨mask, hmask⟩ := exists_getOptionIp ack OPT_SUBNET_MASK
  obtain ⟨gateway, hgateway⟩ := exists_getOptionIp ack OPT_ROUTER
  obtain ⟨dnsServers, hdns⟩ := exists_getOptionIps ack OPT_DNS
  unfold parseLease
  rw [quadAt_eq (by omega), ok_bind, hmask, ok_bind, hgateway, ok_bind, hdns, ok_bind]
  cases mask with
  | none => exact ⟨⟨addressAt ack 16, 24, gateway, dnsServers, by decide⟩, rfl, rfl⟩
  | some mask =>
      refine ⟨⟨addressAt ack 16, leadingOnes mask.bits, gateway, dnsServers, leadingOnes_le _⟩, ?_,
        rfl⟩
      rw [Option.map_some]
      dsimp only
      rw [maskToPrefix_ipv4ToString]
      rfl

/-! ## Requests -/

/-- What a REQUEST takes from the OFFER. -/
structure Requests (offer request : List UInt8) : Prop where
  msgType : getMsgType request = .ok (some DHCP_REQUEST)
  offered : getOptionIp request OPT_REQUESTED_IP = .ok (some (ipv4ToString (addressAt offer 16)))
  server : getOptionIp request OPT_SERVER_ID = getOptionIp offer OPT_SERVER_ID
  xid : (request.drop 4).take 4 = (offer.drop 4).take 4
  chaddr : (request.drop 28).take 16 = (offer.drop 28).take 16

section Requests

variable {pre f bytes : List UInt8} {off i n : ℕ} {cursor : List UInt8 × ℕ}

/-- What lies in a beginning. -/
theorem take_drop_within (h : pre <+: f) (hin : i + n ≤ pre.length) :
    (f.drop i).take n = (pre.drop i).take n := by
  obtain ⟨rest, rfl⟩ := h
  rw [List.take_drop, List.take_drop, List.take_append_of_le_length hin]

/-- What lies before a write. -/
theorem take_drop_splice (hin : i + n ≤ off) (hbytes : off + bytes.length ≤ f.length) :
    ((splice f off bytes).drop i).take n = (f.drop i).take n := by
  rw [List.take_drop, List.take_drop, take_splice hin hbytes]

/-- What is written. -/
theorem take_drop_splice_self (hoff : off ≤ f.length) :
    ((splice f off bytes).drop off).take bytes.length = bytes := by
  have hfront : (f.take off).length = off := List.length_take_of_le hoff
  rw [splice, List.drop_left' hfront, List.take_left]

/-- A write behind a beginning. -/
theorem prefix_splice (h : pre <+: f) (hoff : pre.length ≤ off) (bytes : List UInt8) :
    pre <+: splice f off bytes := by
  obtain ⟨rest, rfl⟩ := h
  rw [splice, List.take_append, List.take_of_length_le hoff, List.append_assoc]
  exact List.prefix_append _ _

/-- The beginning of what is written, and the cursor behind it. -/
def BeginsWith (pre : List UInt8) (cursor : List UInt8 × ℕ) : Prop :=
  pre <+: cursor.1 ∧ pre.length ≤ cursor.2

theorem BeginsWith.writeAt (h : BeginsWith pre cursor) (bytes : List UInt8) :
    BeginsWith pre (writeAt cursor bytes) :=
  ⟨prefix_splice h.1 h.2 bytes, h.2.trans (Nat.le_add_right _ _)⟩

theorem BeginsWith.writeIpOption (h : BeginsWith pre cursor) (optCode : UInt8) (ip : String) :
    BeginsWith pre (writeIpOption cursor optCode ip) := by
  unfold K3rs.writeIpOption
  split
  · exact h.writeAt _
  · exact h

theorem BeginsWith.finish (h : BeginsWith pre cursor) :
    pre <+: (splice cursor.1 cursor.2 [OPT_END]).take (cursor.2 + 1) := by
  have hprefix := (prefix_splice h.1 h.2 [OPT_END]).take (cursor.2 + 1)
  rwa [List.take_of_length_le (Nat.le_succ_of_le h.2)] at hprefix

/-- The header of a request, in front of the cookie. -/
def requestFields (xid chaddr : List UInt8) : List UInt8 :=
  splice (splice (splice (splice (List.replicate 300 0) 0 [1, 1, 6, 0]) 4 xid) 10 [0x80]) 28 chaddr

theorem requestFields_spec {xid chaddr : List UInt8} (hxid : xid.length = 4)
    (hchaddr : chaddr.length = 16) :
    (requestFields xid chaddr).length = 300 ∧
      ((requestFields xid chaddr).drop 4).take 4 = xid ∧
      ((requestFields xid chaddr).drop 28).take 16 = chaddr := by
  have hzeros : (List.replicate 300 (0 : UInt8)).length = 300 := List.length_replicate
  have h₁ : (splice (List.replicate 300 (0 : UInt8)) 0 [1, 1, 6, 0]).length = 300 :=
    (length_splice (by rw [hzeros]; decide)).trans hzeros
  unfold requestFields
  generalize splice (List.replicate 300 (0 : UInt8)) 0 [1, 1, 6, 0] = f at h₁
  have h₂ : (splice f 4 xid).length = 300 := (length_splice (by omega)).trans h₁
  have h₃ : (splice (splice f 4 xid) 10 [0x80]).length = 300 :=
    (length_splice (by rw [h₂]; decide)).trans h₂
  have hfour : ((splice f 4 xid).drop 4).take xid.length = xid := take_drop_splice_self (by omega)
  have hsixteen : ((splice (splice (splice f 4 xid) 10 [0x80]) 28 chaddr).drop 28).take
      chaddr.length = chaddr := take_drop_splice_self (by omega)
  rw [hxid] at hfour
  rw [hchaddr] at hsixteen
  refine ⟨(length_splice (by omega)).trans h₃, ?_, hsixteen⟩
  rw [take_drop_splice (by decide) (by omega), take_drop_splice (by decide) (by rw [h₂]; decide),
    hfour]

theorem prefix_buildRequest {offer request : List UInt8} {offered : String}
    {server : Option String} (hoffer : 44 ≤ offer.length)
    (h : buildRequest offer offered server = .ok request) :
    (requestFields ((offer.drop 4).take 4) ((offer.drop 28).take 16)).take 44 <+: request := by
  rw [buildRequest] at h
  dsimp only at h
  rw [slice_eq (by decide) (by omega), ok_bind, slice_eq (by decide) hoffer, ok_bind] at h
  obtain rfl := Except.ok.inj h
  set front := (requestFields ((offer.drop 4).take 4) ((offer.drop 28).take 16)).take 44 with hfront
  have hlength : front.length ≤ 44 := by
    rw [hfront, List.length_take]
    exact min_le_left _ _
  have hbegin : front <+: requestFields ((offer.drop 4).take 4) ((offer.drop 28).take 16) :=
    List.take_prefix _ _
  have hcookie : BeginsWith front
      (splice (requestFields ((offer.drop 4).take 4) ((offer.drop 28).take 16)) 236 MAGIC_COOKIE,
        240) :=
    ⟨prefix_splice hbegin (by omega) _, by dsimp only; omega⟩
  have hoffered := (hcookie.writeAt [OPT_MSG_TYPE, 1, DHCP_REQUEST]).writeIpOption OPT_REQUESTED_IP
    offered
  cases server with
  | none => exact (hoffered.writeAt _).finish
  | some srv => exact ((hoffered.writeIpOption OPT_SERVER_ID srv).writeAt _).finish

/-- **A request** is built for every message that is long enough. -/
theorem exists_buildRequest {offer : List UInt8} (hoffer : 240 ≤ offer.length) :
    ∃ server request, getOptionIp offer OPT_SERVER_ID = .ok server ∧
      buildRequest offer (ipv4ToString (addressAt offer 16)) server = .ok request ∧
      Requests offer request := by
  obtain ⟨srv, hsrv⟩ := exists_getOptionIp offer OPT_SERVER_ID
  have hparse : (srv.map ipv4ToString).map parseIpToBytes = srv.map .ok := by
    rw [Option.map_map]
    exact congrArg (fun f => srv.map f) (funext parseIpToBytes_ipv4ToString)
  have hlong : 44 ≤ offer.length := by omega
  obtain ⟨header, hheader, hbuilt⟩ := buildRequest_eq hlong
    (parseIpToBytes_ipv4ToString (addressAt offer 16)) hparse
  have hxid : ((offer.drop 4).take 4).length = 4 := by
    rw [List.length_take, List.length_drop]
    omega
  have hchaddr : ((offer.drop 28).take 16).length = 16 := by
    rw [List.length_take, List.length_drop]
    omega
  obtain ⟨hlength, hfour, hsixteen⟩ := requestFields_spec hxid hchaddr
  have hprefix := prefix_buildRequest hlong hbuilt
  have hfront : ((requestFields ((offer.drop 4).take 4) ((offer.drop 28).take 16)).take 44).length
      = 44 := List.length_take_of_le (by omega)
  have hfields : (requestFields ((offer.drop 4).take 4) ((offer.drop 28).take 16)).take 44 <+:
      requestFields ((offer.drop 4).take 4) ((offer.drop 28).take 16) := List.take_prefix _ _
  refine ⟨_, _, hsrv, hbuilt, ⟨?_, ?_, ?_, ?_, ?_⟩⟩
  · rw [getMsgType, forEachOption_request hheader]
    rfl
  · rw [getOptionIp, forEachOption_request hheader]
    show Except.ok (firstQuad (addressAt offer 16).octets) = _
    rw [firstQuad_octets]
  · rw [hsrv, getOptionIp, forEachOption_request hheader]
    cases srv with
    | none => rfl
    | some a =>
        show Except.ok (firstQuad a.octets) = _
        rw [firstQuad_octets]
        rfl
  · rw [take_drop_within hprefix (by omega), ← take_drop_within hfields (by omega), hfour]
  · rw [take_drop_within hprefix (by omega), ← take_drop_within hfields (by omega), hsixteen]

end Requests

/-! ## Discovers -/

/-- The fields end before the options. -/
theorem discoverFields_spec (macStr : Option String) :
    (discoverFields macStr).length = 300 ∧
      (discoverFields macStr).drop 240 = List.replicate 60 0 := by
  have hstatic : (splice (splice (splice (splice (List.replicate 300 (0 : UInt8)) 0 [1, 1, 6, 0]) 4
      (u32ToBe XID)) 10 [0x80, 0x00]) 28 [0x02, 0x6b, 0x33, 0x72, 0x73, 0x01]).length = 300 ∧
      (splice (splice (splice (splice (List.replicate 300 (0 : UInt8)) 0 [1, 1, 6, 0]) 4
        (u32ToBe XID)) 10 [0x80, 0x00]) 28 [0x02, 0x6b, 0x33, 0x72, 0x73, 0x01]).drop 240 =
        List.replicate 60 0 := by
    decide +kernel
  unfold discoverFields
  dsimp only
  generalize splice (splice _ _ _) 28 _ = pkt at hstatic
  cases macStr with
  | none => exact hstatic
  | some text =>
      dsimp only
      split_ifs with hsix
      · have hfits : 28 + ((((trim text.toList).splitOn ':').filterMap
            (fromStrRadix 16 256)).map UInt8.ofNat).length ≤ 240 := by
          rw [List.length_map, hsix]
          decide
        exact ⟨(length_splice (by omega)).trans hstatic.1,
          (drop_splice (by omega) hfits).trans hstatic.2⟩
      · exact hstatic

/-- A cookie behind the fields. -/
theorem splice_cookie {fields : List UInt8} (hlength : fields.length = 300)
    (hbehind : fields.drop 240 = List.replicate 60 0) :
    IsHeader (fields.take 236 ++ MAGIC_COOKIE) ∧
      (splice fields 236 MAGIC_COOKIE, 240) = blankBehind (fields.take 236 ++ MAGIC_COOKIE) 60 := by
  have htake : (fields.take 236).length = 236 := List.length_take_of_le (by omega)
  have hheader : (fields.take 236 ++ MAGIC_COOKIE).length = 240 := by
    rw [List.length_append, htake]
    rfl
  refine ⟨⟨hheader, List.drop_left' htake⟩, ?_⟩
  rw [blankBehind, hheader, splice, show 236 + MAGIC_COOKIE.length = 240 from rfl, hbehind,
    List.append_assoc]

/-- **A DISCOVER** says so, whatever the file of the hardware address holds. -/
theorem getMsgType_buildDiscover (macStr : Option String) :
    getMsgType (buildDiscover macStr) = .ok (some DHCP_DISCOVER) := by
  obtain ⟨hlength, hbehind⟩ := discoverFields_spec macStr
  obtain ⟨hheader, hstart⟩ := splice_cookie hlength hbehind
  have hbuilt : buildDiscover macStr = (discoverFields macStr).take 236 ++ MAGIC_COOKIE ++
      (encodeOptions [(0, ⟨OPT_MSG_TYPE, [DHCP_DISCOVER], by decide, by decide, by decide⟩),
        (0, ⟨OPT_PARAM_LIST, [OPT_SUBNET_MASK, OPT_ROUTER, OPT_DNS], by decide, by decide,
          by decide⟩)] ++ (List.replicate 0 0 ++ OPT_END :: [])) := by
    unfold buildDiscover
    dsimp only
    rw [hstart, writeAt_blankBehind, writeAt_blankBehind, take_splice_blankBehind]
    simp only [List.append_assoc]
    rfl
  rw [hbuilt, getMsgType, forEachOption_encoded hheader, ok_bind, visit_unit]
  rfl

/-! ## Receptions -/

/-- What `recv_dhcp` accepts. -/
structure IsReply (msg : List UInt8) : Prop where
  length_le : 240 ≤ msg.length
  op : msg.getD 0 0 = 2
  xid : u32OfBe (msg.getD 4 0) (msg.getD 5 0) (msg.getD 6 0) (msg.getD 7 0) = XID

/-- A reply of a type. -/
structure IsMessage (t : UInt8) (msg : List UInt8) : Prop extends IsReply msg where
  msgType : getMsgType msg = .ok (some t)

theorem checkReply_cases (buf : List UInt8) :
    IsReply buf ∧ checkReply buf = .ok (.ok buf) ∨
      ¬ IsReply buf ∧ ∃ e, checkReply buf = .ok (.error e) := by
  unfold checkReply
  split_ifs with hshort
  · exact Or.inr ⟨fun h => absurd h.length_le (by omega), _, rfl⟩
  · rw [read_getD (by omega), ok_bind]
    by_cases hop : buf.getD 0 0 = 2
    · rw [if_neg (not_not.mpr hop), read_getD (by omega), ok_bind, read_getD (by omega), ok_bind,
        read_getD (by omega), ok_bind, read_getD (by omega), ok_bind]
      dsimp only
      by_cases hxid : u32OfBe (buf.getD 4 0) (buf.getD 5 0) (buf.getD 6 0) (buf.getD 7 0) = XID
      · rw [if_neg (not_not.mpr hxid)]
        exact Or.inl ⟨⟨not_lt.mp hshort, hop, hxid⟩, rfl⟩
      · rw [if_pos hxid]
        exact Or.inr ⟨fun h => hxid h.xid, _, rfl⟩
    · rw [if_pos hop]
      exact Or.inr ⟨fun h => hop h.op, _, rfl⟩

/-- What a wait for a message ends with. -/
inductive Awaited (net : DhcpNetwork) (t : UInt8) (history : List DhcpEvent) :
    DhcpEvent → Option (List UInt8) → Prop
  | message {data : List UInt8} (hrecv : net.recvfrom history = .ok data)
      (hmsg : IsMessage t (data.take 1500)) : Awaited net t history (.received data)
        (some (data.take 1500))
  | other {data : List UInt8} (hrecv : net.recvfrom history = .ok data)
      (hmsg : ¬ IsMessage t (data.take 1500)) : Awaited net t history (.received data) none
  | failed {e : String} (hrecv : net.recvfrom history = .error e) :
      Awaited net t history .recvFailed none

theorem awaitMessage_spec (net : DhcpNetwork) (t : UInt8) (history : List DhcpEvent) :
    ∃ event answer, awaitMessage net t history = .ok (history ++ [event], answer) ∧
      Awaited net t history event answer := by
  unfold awaitMessage recvDhcp
  cases hrecv : net.recvfrom history with
  | error e => exact ⟨_, _, rfl, .failed hrecv⟩
  | ok data =>
      dsimp only
      rcases checkReply_cases (data.take 1500) with ⟨hreply, hcheck⟩ | ⟨hreply, e, hcheck⟩
      · obtain ⟨gotType, hgot⟩ := exists_getMsgType (data.take 1500)
        rw [hcheck, ok_bind]
        show ∃ event answer, (getMsgType (data.take 1500) >>= fun gotType => _) = _ ∧ _
        rw [hgot, ok_bind]
        by_cases htype : gotType = some t
        · refine ⟨_, _, rfl, ?_⟩
          rw [if_pos htype]
          exact .message hrecv ⟨hreply, htype ▸ hgot⟩
        · refine ⟨_, _, rfl, ?_⟩
          rw [if_neg htype]
          refine .other hrecv fun hmsg => htype ?_
          exact Except.ok.inj (hgot.symm.trans hmsg.msgType)
      · rw [hcheck, ok_bind]
        exact ⟨_, _, rfl, .other hrecv fun hmsg => hreply hmsg.toIsReply⟩

/-! ## Attempts -/

/-- A DISCOVER of the client. -/
def DhcpEvent.isDiscover : DhcpEvent → Bool
  | .sent data => decide (getMsgType data = .ok (some DHCP_DISCOVER))
  | _ => false

@[simp] theorem isDiscover_sendFailed : DhcpEvent.sendFailed.isDiscover = false := rfl

@[simp] theorem isDiscover_timeoutFailed : DhcpEvent.timeoutFailed.isDiscover = false := rfl

@[simp] theorem isDiscover_timeoutSet (ms : ℕ) : (DhcpEvent.timeoutSet ms).isDiscover = false := rfl

@[simp] theorem isDiscover_received (data : List UInt8) :
    (DhcpEvent.received data).isDiscover = false := rfl

@[simp] theorem isDiscover_buildDiscover (macStr : Option String) :
    (DhcpEvent.sent (buildDiscover macStr)).isDiscover = true :=
  decide_eq_true (getMsgType_buildDiscover macStr)

theorem Requests.isDiscover {offer request : List UInt8} (h : Requests offer request) :
    (DhcpEvent.sent request).isDiscover = false := by
  refine decide_eq_false fun hdiscover => ?_
  have htypes := h.msgType.symm.trans hdiscover
  exact absurd (Option.some.inj (Except.ok.inj htypes)) (by decide)

/-- What the second half of an attempt does after an OFFER. -/
inductive Requested (offer : List UInt8) : List DhcpEvent → Attempt → Prop
  | sendFailed (e : String) : Requested offer [.sendFailed] (.failed ("sendto() failed: " ++ e))
  | noAck {request : List UInt8} {event : DhcpEvent} (hrequest : Requests offer request)
      (hevent : event.isDiscover = false) : Requested offer [.sent request, event] .retry
  | acked {request ack : List UInt8} {lease : DhcpLease} (hrequest : Requests offer request)
      (hack : IsMessage DHCP_ACK (ack.take 1500)) (hlease : parseLease (ack.take 1500) = .ok lease) :
      Requested offer [.sent request, .received ack] (.leased lease)

/-- What an attempt does. -/
inductive Attempted (n : ℕ) : List DhcpEvent → Attempt → Prop
  | sendFailed (e : String) : Attempted n [.sendFailed] (.failed ("sendto() failed: " ++ e))
  | timeoutFailed (macStr : Option String) (e : String) :
      Attempted n [.sent (buildDiscover macStr), .timeoutFailed]
        (.failed ("setsockopt(SO_RCVTIMEO) failed: " ++ e))
  | noOffer (macStr : Option String) {event : DhcpEvent} (hevent : event.isDiscover = false) :
      Attempted n [.sent (buildDiscover macStr), .timeoutSet (2000 * 2 ^ n), event] .retry
  | offered (macStr : Option String) {offer : List UInt8} {events : List DhcpEvent} {out : Attempt}
      (hoffer : IsMessage DHCP_OFFER (offer.take 1500))
      (hrequested : Requested (offer.take 1500) events out) :
      Attempted n (.sent (buildDiscover macStr) :: .timeoutSet (2000 * 2 ^ n) :: .received offer ::
        events) out

theorem requestLease_spec (net : DhcpNetwork) (history : List DhcpEvent) {offer : List UInt8}
    (hoffer : 240 ≤ offer.length) :
    ∃ events out, requestLease net history offer = .ok (history ++ events, out) ∧
      Requested offer events out := by
  obtain ⟨server, request, hserver, hbuilt, hrequest⟩ := exists_buildRequest hoffer
  unfold requestLease sendBroadcast
  rw [quadAt_eq (by omega), ok_bind, hserver, ok_bind, hbuilt, ok_bind]
  cases net.sendto history request with
  | error e => exact ⟨_, _, rfl, .sendFailed e⟩
  | ok sent =>
      obtain ⟨event, answer, hawait, hcase⟩ :=
        awaitMessage_spec net DHCP_ACK (history ++ [.sent request])
      rw [List.append_assoc] at hawait
      dsimp only
      rw [hawait, ok_bind]
      cases hcase with
      | message hrecv hack =>
          obtain ⟨h, hlease, -⟩ := exists_parseLease hack.length_le
          dsimp only
          rw [hlease, ok_bind]
          exact ⟨_, _, rfl, .acked hrequest hack hlease⟩
      | other hrecv hack => exact ⟨_, _, rfl, .noAck hrequest rfl⟩
      | failed hrecv => exact ⟨_, _, rfl, .noAck hrequest rfl⟩

/-- **One attempt.** -/
theorem attempt_spec (net : DhcpNetwork) (n : ℕ) (history : List DhcpEvent) :
    ∃ events out, attempt net n history = .ok (history ++ events, out) ∧
      Attempted n events out := by
  unfold attempt sendBroadcast setRecvTimeout
  dsimp only
  cases net.sendto history (buildDiscover (net.address history)) with
  | error e => exact ⟨_, _, rfl, .sendFailed e⟩
  | ok sent =>
      dsimp only
      cases net.setsockopt (history ++ [.sent (buildDiscover (net.address history))])
        (2000 * 2 ^ n) with
      | error e =>
          dsimp only
          rw [List.append_assoc]
          exact ⟨_, _, rfl, .timeoutFailed _ e⟩
      | ok set =>
          obtain ⟨event, answer, hawait, hcase⟩ := awaitMessage_spec net DHCP_OFFER (history ++
            [.sent (buildDiscover (net.address history))] ++ [.timeoutSet (2000 * 2 ^ n)])
          dsimp only
          rw [hawait, ok_bind, List.append_assoc, List.append_assoc]
          cases hcase with
          | message hrecv hoffer =>
              obtain ⟨events, out, hrequest, hrequested⟩ :=
                requestLease_spec net (history ++ ([.sent (buildDiscover (net.address history))] ++
                  ([.timeoutSet (2000 * 2 ^ n)] ++ [.received _]))) hoffer.length_le
              dsimp only
              rw [hrequest, List.append_assoc]
              exact ⟨_, _, rfl, .offered _ hoffer hrequested⟩
          | other hrecv hoffer => exact ⟨_, _, rfl, .noOffer _ rfl⟩
          | failed hrecv => exact ⟨_, _, rfl, .noOffer _ rfl⟩

/-- A call of the socket that ends the exchange. -/
def DhcpEvent.isFatal : DhcpEvent → Prop
  | .sendFailed => True
  | .timeoutFailed => True
  | _ => False

/-- **An exchange**: an OFFER is requested, and the ACK has the lease. -/
inductive Exchanged (n : ℕ) (lease : DhcpLease) : List DhcpEvent → Prop
  | complete (macStr : Option String) {offer request ack : List UInt8}
      (hoffer : IsMessage DHCP_OFFER (offer.take 1500))
      (hrequest : Requests (offer.take 1500) request) (hack : IsMessage DHCP_ACK (ack.take 1500))
      (hlease : parseLease (ack.take 1500) = .ok lease) :
      Exchanged n lease [.sent (buildDiscover macStr), .timeoutSet (2000 * 2 ^ n), .received offer,
        .sent request, .received ack]

theorem Exchanged.countP_eq {n : ℕ} {lease : DhcpLease} {events : List DhcpEvent}
    (h : Exchanged n lease events) : events.countP DhcpEvent.isDiscover = 1 := by
  cases h with
  | complete macStr hoffer hrequest hack hlease =>
      simp [hrequest.isDiscover]

/-- The second half sends no DISCOVER. -/
theorem Requested.countP_eq {offer : List UInt8} {events : List DhcpEvent} {out : Attempt}
    (h : Requested offer events out) : events.countP DhcpEvent.isDiscover = 0 := by
  cases h with
  | sendFailed e => rfl
  | noAck hrequest hevent => simp [hrequest.isDiscover, hevent]
  | acked hrequest hack hlease => simp [hrequest.isDiscover]

namespace Attempted

variable {n : ℕ} {events : List DhcpEvent}

theorem leased {lease : DhcpLease} (h : Attempted n events (.leased lease)) :
    Exchanged n lease events := by
  cases h with
  | offered macStr hoffer hrequested =>
      cases hrequested with
      | acked hrequest hack hlease => exact .complete macStr hoffer hrequest hack hlease

/-- An attempt that is given up has sent one DISCOVER. -/
theorem retry (h : Attempted n events .retry) : events.countP DhcpEvent.isDiscover = 1 := by
  cases h with
  | noOffer macStr hevent =>
      simp [hevent]
  | offered macStr hoffer hrequested =>
      simp [hrequested.countP_eq]

/-- No attempt sends more. -/
theorem countP_le {out : Attempt} (h : Attempted n events out) :
    events.countP DhcpEvent.isDiscover ≤ 1 := by
  cases h with
  | sendFailed e => simp
  | timeoutFailed macStr e => simp
  | noOffer macStr hevent => exact (noOffer (n := n) macStr hevent).retry.le
  | offered macStr hoffer hrequested =>
      simp [hrequested.countP_eq]

theorem failed {message : String} (h : Attempted n events (.failed message)) :
    ∃ before event, events = before ++ [event] ∧ event.isFatal := by
  cases h with
  | sendFailed e => exact ⟨[], _, rfl, trivial⟩
  | timeoutFailed macStr e => exact ⟨[_], _, rfl, trivial⟩
  | offered macStr hoffer hrequested =>
      cases hrequested with
      | sendFailed e => exact ⟨[_, _, _], _, rfl, trivial⟩

end Attempted

/-- **All attempts**, from the `k`-th on. -/
theorem attempts_spec (net : DhcpNetwork) (count : ℕ) : ∀ (k : ℕ) (history : List DhcpEvent),
    history.countP DhcpEvent.isDiscover = k →
      ∃ final result, attempts net (List.range' k count) history = .ok (final, result) ∧
        final.countP DhcpEvent.isDiscover ≤ k + count ∧
        (∀ lease, result = .ok lease → ∃ earlier last n, n < k + count ∧
          final = earlier ++ last ++ [.closed] ∧ earlier.countP DhcpEvent.isDiscover = n ∧
          Exchanged n lease last) ∧
        ∀ message, result = .error message →
          (message = "DHCP: failed after 3 attempts" ∧
            final.countP DhcpEvent.isDiscover = k + count ∧ final.getLast? = some .closed) ∨
          ∃ before event, final = before ++ [event] ∧ event.isFatal := by
  induction count with
  | zero =>
      intro k history hk
      have hclosed : (history ++ [DhcpEvent.closed]).countP DhcpEvent.isDiscover = k := by
        rw [List.countP_append, hk]
        rfl
      refine ⟨_, _, rfl, hclosed.le, nofun, fun message hmessage => ?_⟩
      exact Or.inl ⟨(Except.error.inj hmessage).symm, hclosed, List.getLast?_concat⟩
  | succ count ih =>
      intro k history hk
      obtain ⟨events, out, hattempt, hattempted⟩ := attempt_spec net k history
      rw [List.range'_succ, attempts, hattempt, ok_bind]
      cases out with
      | leased lease =>
          have hcount := hattempted.countP_le
          refine ⟨_, _, rfl, ?_, ?_, nofun⟩
          · rw [List.countP_append, List.countP_append, hk]
            show k + _ + 0 ≤ _
            omega
          · intro lease' hlease
            obtain rfl := Except.ok.inj hlease
            exact ⟨history, events, k, by omega, rfl, hk, hattempted.leased⟩
      | retry =>
          have hnext : (history ++ events).countP DhcpEvent.isDiscover = k + 1 := by
            rw [List.countP_append, hk, hattempted.retry]
          obtain ⟨final, result, hrest, hfinal⟩ := ih (k + 1) (history ++ events) hnext
          rw [Nat.add_right_comm, Nat.add_assoc] at hfinal
          exact ⟨final, result, hrest, hfinal⟩
      | failed message =>
          have hcount := hattempted.countP_le
          refine ⟨_, _, rfl, ?_, nofun, fun _ _ => Or.inr ?_⟩
          · rw [List.countP_append, hk]
            omega
          · obtain ⟨before, event, rfl, hfatal⟩ := hattempted.failed
            exact ⟨history ++ before, event, (List.append_assoc _ _ _).symm, hfatal⟩

/-- **Where a lease comes from.**  Whatever the network and the kernel do, the client never reads
out of bounds, and sends at most three DISCOVERs.  A lease is that of an ACK with the client's
transaction id; before it came, in the same attempt, an OFFER whose address and server were requested, with its
transaction id and hardware address.  Without a lease the client has sent three DISCOVERs, or a call
of the socket has failed. -/
theorem dhcp_lease_provenance (net : DhcpNetwork) :
    ∃ history result, doDhcp net = .ok (history, result) ∧
      history.countP DhcpEvent.isDiscover ≤ 3 ∧
      (∀ lease, result = .ok lease → ∃ earlier last n, n < 3 ∧
        history = earlier ++ last ++ [.closed] ∧ earlier.countP DhcpEvent.isDiscover = n ∧
        Exchanged n lease last) ∧
      ∀ message, result = .error message →
        net.createSocket = .error message ∨
        (message = "DHCP: failed after 3 attempts" ∧
          history.countP DhcpEvent.isDiscover = 3 ∧ history.getLast? = some .closed) ∨
        ∃ before event, history = before ++ [event] ∧ event.isFatal := by
  unfold doDhcp
  cases hsocket : net.createSocket with
  | error e =>
      refine ⟨[], .error e, rfl, Nat.zero_le _, nofun, fun message hmessage => Or.inl ?_⟩
      rw [Except.error.inj hmessage]
  | ok opened =>
      obtain ⟨final, result, hrun, hcount, hlease, herror⟩ := attempts_spec net 3 0 [] rfl
      exact ⟨final, result, hrun, hcount, hlease, fun message hmessage =>
        Or.inr (herror message hmessage)⟩

end K3rs
