import K3rs.Server.VpcRegistry
import K3rs.Vm.DhcpExchange

/-!
# A guest that is configured by DHCP

The lease of the DHCP exchange gives `eth0` its address and its mask, the guest its default route
and its DNS servers.  With a server that answers one of the DISCOVERs, and acknowledges what it has
offered, these are what the server hands out (`dhcp_configures_guest`).
-/

namespace K3rs

open CheckedReads Net Wire

/-! ## The network of the guest -/

/-- An error of a system call. -/
structure OsError where
  code : ℕ
  text : String
  deriving DecidableEq, Repr

/-- `EEXIST`. -/
def EEXIST : ℕ := 17

/-- What is done to the network of the guest, with the bytes of the addresses in memory. -/
inductive NetCommand where
  | setAddr (addr : List UInt8)
  | setNetmask (mask : List UInt8)
  | addDefaultRoute (gateway : List UInt8)
  | writeResolvConf (content : String)
  deriving DecidableEq, Repr

namespace K3rsInit

/-- How the configuration ends early: with an error, or as a shift overflows. -/
inductive Stop where
  | error (message : String)
  | overflow
  deriving DecidableEq, Repr

/-- Commands one after the other, up to the first that fails. -/
abbrev Configure := ExceptT Stop (StateM (List NetCommand))

/-- A command, and whether its failure is one of the program. -/
def command (kernel : NetCommand → Option OsError) (failure : OsError → Option String)
    (c : NetCommand) : Configure Unit :=
  match kernel c with
  | none => modify (· ++ [c])
  | some err =>
      match failure err with
      | some message => throw (.error message)
      | none => return ()

/-- `parse_ipv4`: the number whose bytes in memory are those of the address. -/
def parseIpv4 (e : Endian) (addr : String) : Except String UInt32 := do
  let parts ← (addr.toList.splitOn '.').mapM (parseUnsigned 256)
  match parts with
  | [b₀, b₁, b₂, b₃] => return u32OfNe e (.ofNat b₀) (.ofNat b₁) (.ofNat b₂) (.ofNat b₃)
  | _ => .error ("invalid IPv4: " ++ addr)

section

variable (e : Endian) (kernel : NetCommand → Option OsError)

/-- `set_ipv4_addr`. -/
def setIpv4Addr (iface addr : String) : Configure Unit :=
  match parseIpv4 e addr with
  | .error err => throw (.error err)
  | .ok ip =>
      command kernel (fun err => some ("SIOCSIFADDR failed for " ++ iface ++ ": " ++ err.text))
        (.setAddr (u32ToNe e ip))

/-- `set_ipv4_netmask`. -/
def setIpv4Netmask (iface : String) (mask : UInt32) : Configure Unit :=
  command kernel (fun err => some ("SIOCSIFNETMASK failed for " ++ iface ++ ": " ++ err.text))
    (.setNetmask (u32ToNe e (u32SwapToBe e mask)))

/-- `add_default_route`.  The route may be there already. -/
def addDefaultRoute (gateway : String) : Configure Unit :=
  match parseIpv4 e gateway with
  | .error err => throw (.error err)
  | .ok gw =>
      command kernel
        (fun err => if err.code = EEXIST then none else some ("SIOCADDRT failed: " ++ err.text))
        (.addDefaultRoute (u32ToNe e gw))

/-- What `write_resolv_conf` writes. -/
def resolvConf (dnsServers : List String) : String :=
  let servers := if dnsServers = [] then ["8.8.8.8", "8.8.4.4"] else dnsServers
  "\n".intercalate (servers.map fun s => "nameserver " ++ s) ++ "\n"

/-- `write_resolv_conf`. -/
def writeResolvConf (dnsServers : List String) : Configure Unit :=
  command kernel (fun _ => none) (.writeResolvConf (resolvConf dnsServers))

/-- `!0u32 << (32 - prefix_len)`, or 0. -/
def prefixMask (prefixLen : ℕ) : Option UInt32 :=
  if prefixLen = 0 then some 0
  else if 32 < prefixLen then none
  else some (0xffffffff <<< (32 - UInt32.ofNat prefixLen))

/-- `apply_dhcp_lease`. -/
def applyDhcpLease (lease : DhcpLease) : Configure Unit := do
  setIpv4Addr e kernel "eth0" lease.ip
  match prefixMask lease.prefixLen with
  | none => throw .overflow
  | some mask =>
      setIpv4Netmask e kernel "eth0" mask
      match lease.gateway with
      | some gw => addDefaultRoute e kernel gw
      | none => pure ()
      writeResolvConf kernel lease.dnsServers

/-- The last branch of `setup_networking`: what happened at the socket, and what was configured. -/
def dhcpOnEth0 (net : DhcpNetwork) :
    Checked (List DhcpEvent × Except Stop Unit × List NetCommand) := do
  let out ← doDhcp net
  match out.2 with
  | .ok lease => return (out.1, (applyDhcpLease e kernel lease).run.run [])
  | .error message => return (out.1, .error (.error message), [])

end

end K3rsInit

/-! ## Masks and addresses -/

theorem leadingOnes_netmask {p : ℕ} (h : p ≤ 32) : leadingOnes (Server.netmask p) = p := by
  have hall : ∀ p < 33, leadingOnes (Server.netmask p) = p := by decide
  exact hall p (by omega)

theorem prefixMask_eq {p : ℕ} (h : p ≤ 32) : K3rsInit.prefixMask p = some (Server.netmask p) := by
  unfold K3rsInit.prefixMask Server.netmask
  rw [if_neg (not_lt.mpr h)]
  split_ifs
  · rfl
  · rfl

theorem exists_parseIpv4 (e : Endian) (a : Ipv4Addr) :
    ∃ ip, K3rsInit.parseIpv4 e (ipv4ToString a) = .ok ip ∧ u32ToNe e ip = a.octets := by
  obtain ⟨b₀, b₁, b₂, b₃, hparts, ha⟩ := exists_parts a
  refine ⟨u32OfNe e (.ofNat b₀) (.ofNat b₁) (.ofNat b₂) (.ofNat b₃), ?_, ?_⟩
  · unfold K3rsInit.parseIpv4
    rw [hparts]
    rfl
  · rw [u32ToNe_ofNe, ha]
    exact (u32ToBe_ofBe _ _ _ _).symm

/-! ## A server that answers -/

section Server

/-- The data of the options of a code, in their order. -/
def dataOf (options : List (ℕ × DhcpOption)) (optCode : UInt8) : List (List UInt8) :=
  ((options.map fun e => e.2.visited).filter fun o => decide (o.1 = optCode)).map Prod.snd

/-- An option with addresses, or none at all. -/
def addressData (as : List Ipv4Addr) : List (List UInt8) :=
  if as = [] then [] else [as.flatMap Ipv4Addr.octets]

/-- A message of a server that hands this out: the options are in any order, with padding and other
options between them. -/
structure DhcpReply (t : UInt8) (server : Ipv4Addr) (h : Handout) where
  header : List UInt8
  options : List (ℕ × DhcpOption)
  padding : ℕ
  rest : List UInt8
  routers : List Ipv4Addr
  isHeader : IsHeader header
  op : header.getD 0 0 = 2
  xid : u32OfBe (header.getD 4 0) (header.getD 5 0) (header.getD 6 0) (header.getD 7 0) = XID
  yiaddr : addressAt header 16 = h.ip
  msgType : dataOf options OPT_MSG_TYPE = [[t]]
  serverId : dataOf options OPT_SERVER_ID = [server.octets]
  mask : dataOf options OPT_SUBNET_MASK = [u32ToBe (Server.netmask h.prefixLen)]
  router : dataOf options OPT_ROUTER = addressData routers
  gateway : routers.head? = h.gateway
  dns : dataOf options OPT_DNS = addressData h.dnsServers
  length_le :
    (header ++ (encodeOptions options ++ (List.replicate padding 0 ++ OPT_END :: rest))).length ≤ 1500

/-- The bytes of the message. -/
def DhcpReply.bytes {t : UInt8} {server : Ipv4Addr} {h : Handout} (r : DhcpReply t server h) :
    List UInt8 :=
  r.header ++ (encodeOptions r.options ++ (List.replicate r.padding 0 ++ OPT_END :: r.rest))

/-- The first option of a code that a parser takes. -/
theorem findSome?_ofCode {τ : Type} (g : List UInt8 → Option τ) (optCode : UInt8)
    (options : List (UInt8 × List UInt8)) :
    (options.findSome? fun o => if o.1 = optCode then g o.2 else none) =
      ((options.filter fun o => decide (o.1 = optCode)).map Prod.snd).findSome? g := by
  induction options with
  | nil => rfl
  | cons o options ih =>
      by_cases hcode : o.1 = optCode
      · have hfilter : (o :: options).filter (fun o => decide (o.1 = optCode)) =
            o :: options.filter fun o => decide (o.1 = optCode) :=
          List.filter_cons_of_pos (decide_eq_true hcode)
        rw [hfilter, List.map_cons, List.findSome?_cons, List.findSome?_cons, if_pos hcode, ih]
      · have hfilter : (o :: options).filter (fun o => decide (o.1 = optCode)) =
            options.filter fun o => decide (o.1 = optCode) :=
          List.filter_cons_of_neg (by simpa using hcode)
        rw [hfilter, List.findSome?_cons, if_neg hcode, ih]

theorem firstQuad_flatMap (as : List Ipv4Addr) :
    firstQuad (as.flatMap Ipv4Addr.octets) = as.head?.map ipv4ToString := by
  cases as with
  | nil => rfl
  | cons a as =>
      show some (ipv4ToString (.ofOctets _ _ _ _)) = _
      rw [Ipv4Addr.ofOctets, u32OfBe_bytes]
      rfl

theorem allQuads_flatMap (as : List Ipv4Addr) :
    allQuads (as.flatMap Ipv4Addr.octets) = as.map ipv4ToString := by
  induction as with
  | nil => rfl
  | cons a as ih =>
      show ipv4ToString (.ofOctets _ _ _ _) :: allQuads (as.flatMap Ipv4Addr.octets) = _
      rw [Ipv4Addr.ofOctets, u32OfBe_bytes, ih]
      rfl

theorem findSome?_addressData (as : List Ipv4Addr) :
    (addressData as).findSome? firstQuad = as.head?.map ipv4ToString := by
  unfold addressData
  split_ifs with hnil
  · rw [hnil]
    rfl
  · rw [List.findSome?_singleton, firstQuad_flatMap]

theorem flatMap_addressData (as : List Ipv4Addr) :
    (addressData as).flatMap allQuads = as.map ipv4ToString := by
  unfold addressData
  split_ifs with hnil
  · rw [hnil]
    rfl
  · rw [List.flatMap_singleton, allQuads_flatMap]

namespace DhcpReply

variable {t : UInt8} {server : Ipv4Addr} {h : Handout} (r : DhcpReply t server h)

/-- The first option of a code. -/
theorem findOption {τ : Type} (g : List UInt8 → Option τ) (optCode : UInt8) :
    forEachOption r.bytes (fun _ opt data => ((), if opt = optCode then g data else none)) () =
      .ok ((), (dataOf r.options optCode).findSome? g) := by
  have hwalk := forEachOption_encoded r.isHeader
    (fun _ opt data => ((), if opt = optCode then g data else none)) () r.options r.padding r.rest
  rw [visit_unit (fun opt data => if opt = optCode then g data else none), findSome?_ofCode] at hwalk
  exact hwalk

theorem getOptionIp_eq (optCode : UInt8) :
    getOptionIp r.bytes optCode = .ok ((dataOf r.options optCode).findSome? firstQuad) := by
  rw [getOptionIp, r.findOption firstQuad]
  rfl

theorem getD_bytes {i : ℕ} (hi : i < 240) : r.bytes.getD i 0 = r.header.getD i 0 := by
  have hlength := r.isHeader.length_eq
  unfold bytes
  rw [List.getD_eq_getElem?_getD, List.getD_eq_getElem?_getD, List.getElem?_append_left (by omega)]

theorem addressAt_bytes : addressAt r.bytes 16 = h.ip := by
  rw [← r.yiaddr]
  unfold addressAt
  rw [r.getD_bytes (by decide), r.getD_bytes (by decide), r.getD_bytes (by decide),
    r.getD_bytes (by decide)]

/-- **The client accepts it.** -/
theorem isMessage : IsMessage t (r.bytes.take 1500) ∧ r.bytes.take 1500 = r.bytes := by
  have htake : r.bytes.take 1500 = r.bytes := List.take_of_length_le r.length_le
  have hlength := r.isHeader.length_eq
  refine ⟨?_, htake⟩
  rw [htake]
  refine ⟨⟨?_, ?_, ?_⟩, ?_⟩
  · unfold bytes
    rw [List.length_append]
    omega
  · rw [r.getD_bytes (by decide)]
    exact r.op
  · rw [r.getD_bytes (by decide), r.getD_bytes (by decide), r.getD_bytes (by decide),
      r.getD_bytes (by decide)]
    exact r.xid
  · rw [getMsgType, r.findOption List.head?, r.msgType]
    rfl

/-- **The lease is what was handed out.** -/
theorem parseLease_bytes : parseLease r.bytes = .ok h.lease := by
  have hlong : 16 + 4 ≤ r.bytes.length := by
    have hlength := r.isHeader.length_eq
    unfold bytes
    rw [List.length_append]
    omega
  have hmask : getOptionIp r.bytes OPT_SUBNET_MASK =
      .ok (some (ipv4ToString ⟨Server.netmask h.prefixLen⟩)) := by
    rw [r.getOptionIp_eq, r.mask]
    exact congrArg Except.ok (firstQuad_octets ⟨Server.netmask h.prefixLen⟩)
  have hdns : getOptionIps r.bytes OPT_DNS = .ok (h.dnsServers.map ipv4ToString) := by
    have hall := getOptionIps_encoded r.isHeader r.options r.padding r.rest OPT_DNS
    rw [← List.flatMap_map Prod.snd allQuads] at hall
    rw [← flatMap_addressData, ← r.dns]
    exact hall
  unfold parseLease
  rw [quadAt_eq hlong, ok_bind, hmask, ok_bind, r.getOptionIp_eq, ok_bind, hdns, ok_bind, r.router,
    findSome?_addressData, r.gateway, r.addressAt_bytes]
  dsimp only
  rw [maskToPrefix_ipv4ToString, leadingOnes_netmask h.prefixLen_le]
  rfl

end DhcpReply

/-- The network has a server that answers one of the DISCOVERs: what comes in before this is no
OFFER, and it acknowledges the REQUEST of what it offers. -/
structure ServesDhcp (net : DhcpNetwork) (lost : ℕ) (server : Ipv4Addr) (h : Handout) : Prop where
  createSocket : net.createSocket = .ok ()
  sendto : ∀ history data, net.sendto history data = .ok ()
  setsockopt : ∀ history ms, net.setsockopt history ms = .ok ()
  unanswered : ∀ history discover ms data,
    (history ++ [DhcpEvent.sent discover]).countP DhcpEvent.isDiscover ≤ lost →
      net.recvfrom (history ++ [DhcpEvent.sent discover, .timeoutSet ms]) = .ok data →
        ¬ IsMessage DHCP_OFFER (data.take 1500)
  offer : ∀ history discover ms, getMsgType discover = .ok (some DHCP_DISCOVER) →
    lost < (history ++ [DhcpEvent.sent discover]).countP DhcpEvent.isDiscover →
      ∃ r : DhcpReply DHCP_OFFER server h,
        net.recvfrom (history ++ [DhcpEvent.sent discover, .timeoutSet ms]) = .ok r.bytes
  ack : ∀ history request, getMsgType request = .ok (some DHCP_REQUEST) →
    getOptionIp request OPT_REQUESTED_IP = .ok (some (ipv4ToString h.ip)) →
      getOptionIp request OPT_SERVER_ID = .ok (some (ipv4ToString server)) →
        ∃ r : DhcpReply DHCP_ACK server h,
          net.recvfrom (history ++ [DhcpEvent.sent request]) = .ok r.bytes

namespace ServesDhcp

variable {net : DhcpNetwork} {lost : ℕ} {server : Ipv4Addr} {h : Handout}

/-- A message that comes is the one that is awaited. -/
theorem awaitMessage_reply {t : UInt8} {history : List DhcpEvent} (r : DhcpReply t server h)
    (hrecv : net.recvfrom history = .ok r.bytes) :
    awaitMessage net t history = .ok (history ++ [.received r.bytes], some r.bytes) := by
  obtain ⟨hmsg, htake⟩ := r.isMessage
  obtain ⟨event, answer, hawait, hcase⟩ := awaitMessage_spec net t history
  cases hcase with
  | message hrecv' hmsg' =>
      obtain rfl := Except.ok.inj (hrecv.symm.trans hrecv')
      rwa [htake] at hawait
  | other hrecv' hmsg' =>
      obtain rfl := Except.ok.inj (hrecv.symm.trans hrecv')
      exact absurd hmsg hmsg'
  | failed hrecv' => exact absurd (hrecv.symm.trans hrecv') nofun

/-- An attempt whose DISCOVER is not answered. -/
theorem attempt_unanswered (hs : ServesDhcp net lost server h) (n : ℕ) {history : List DhcpEvent}
    (hlost : history.countP DhcpEvent.isDiscover < lost) :
    ∃ events, attempt net n history = .ok (history ++ events, .retry) := by
  unfold attempt sendBroadcast setRecvTimeout
  rw [hs.sendto]
  dsimp only
  rw [hs.setsockopt, List.append_assoc]
  obtain ⟨event, answer, hawait, hcase⟩ := awaitMessage_spec net DHCP_OFFER (history ++
    ([.sent (buildDiscover (net.address history))] ++ [.timeoutSet (2000 * 2 ^ n)]))
  rw [List.append_assoc] at hawait
  dsimp only
  rw [hawait, ok_bind]
  cases hcase with
  | message hrecv hmsg =>
      have hcount : (history ++ [DhcpEvent.sent (buildDiscover (net.address history))]).countP
          DhcpEvent.isDiscover ≤ lost := by
        rw [List.countP_append, List.countP_singleton, isDiscover_buildDiscover]
        exact hlost
      exact absurd hmsg (hs.unanswered history _ _ _ hcount hrecv)
  | other hrecv hmsg => exact ⟨_, rfl⟩
  | failed hrecv => exact ⟨_, rfl⟩

/-- An offer is requested and acknowledged. -/
theorem requestLease_answered (hs : ServesDhcp net lost server h) (history : List DhcpEvent)
    (r : DhcpReply DHCP_OFFER server h) :
    ∃ events, requestLease net history r.bytes = .ok (history ++ events, .leased h.lease) := by
  obtain ⟨hmsg, htake⟩ := r.isMessage
  have hoffer : 240 ≤ r.bytes.length := htake ▸ hmsg.length_le
  obtain ⟨srv, request, hserver, hbuilt, hrequest⟩ := exists_buildRequest hoffer
  have hoffered := hrequest.offered
  rw [r.addressAt_bytes] at hoffered
  have hserverId : getOptionIp request OPT_SERVER_ID = .ok (some (ipv4ToString server)) := by
    rw [hrequest.server, r.getOptionIp_eq, r.serverId]
    exact congrArg Except.ok (firstQuad_octets server)
  obtain ⟨ack, hack⟩ := hs.ack history request hrequest.msgType hoffered hserverId
  unfold requestLease sendBroadcast
  rw [quadAt_eq (by omega), ok_bind, hserver, ok_bind, hbuilt, ok_bind, hs.sendto]
  dsimp only
  rw [awaitMessage_reply ack hack, ok_bind]
  dsimp only
  rw [ack.parseLease_bytes, ok_bind, List.append_assoc]
  exact ⟨_, rfl⟩

/-- An attempt whose DISCOVER is answered. -/
theorem attempt_answered (hs : ServesDhcp net lost server h) (n : ℕ) {history : List DhcpEvent}
    (hlost : lost ≤ history.countP DhcpEvent.isDiscover) :
    ∃ events, attempt net n history = .ok (history ++ events, .leased h.lease) := by
  have hcount : lost < (history ++ [DhcpEvent.sent (buildDiscover (net.address history))]).countP
      DhcpEvent.isDiscover := by
    rw [List.countP_append, List.countP_singleton, isDiscover_buildDiscover]
    exact Nat.lt_succ_of_le hlost
  obtain ⟨r, hrecv⟩ := hs.offer history _ (2000 * 2 ^ n)
    (getMsgType_buildDiscover (net.address history)) hcount
  unfold attempt sendBroadcast setRecvTimeout
  rw [hs.sendto]
  dsimp only
  rw [hs.setsockopt, List.append_assoc]
  dsimp only
  obtain ⟨events, hrequest⟩ := hs.requestLease_answered (history ++
    [.sent (buildDiscover (net.address history)), .timeoutSet (2000 * 2 ^ n)] ++
      [.received r.bytes]) r
  have hawait := awaitMessage_reply r hrecv
  rw [List.singleton_append, hawait, ok_bind]
  dsimp only
  rw [hrequest, List.append_assoc, List.append_assoc]
  exact ⟨_, rfl⟩

/-- **The attempts**, from the `k`-th on, end with the lease. -/
theorem attempts_answered (hs : ServesDhcp net lost server h) (count : ℕ) :
    ∀ (k : ℕ) (history : List DhcpEvent), history.countP DhcpEvent.isDiscover = k → k ≤ lost →
      lost < k + count → ∃ final, attempts net (List.range' k count) history =
        .ok (final ++ [.closed], .ok h.lease) ∧ final.countP DhcpEvent.isDiscover = lost + 1 := by
  induction count with
  | zero => exact fun k history _ hle hlt => absurd hlt (not_lt.mpr hle)
  | succ count ih =>
      intro k history hk hle hlt
      obtain ⟨events, out, hattempt, hattempted⟩ := attempt_spec net k history
      rw [List.range'_succ, attempts]
      rcases hle.lt_or_eq with hless | rfl
      · obtain ⟨events', hretry⟩ := hs.attempt_unanswered k (hk ▸ hless)
        obtain ⟨hevents, rfl⟩ := Prod.mk.inj (Except.ok.inj (hattempt.symm.trans hretry))
        have hnext : (history ++ events).countP DhcpEvent.isDiscover = k + 1 := by
          rw [List.countP_append, hk, hattempted.retry]
        rw [hattempt, ok_bind]
        exact ih (k + 1) (history ++ events) hnext hless (by omega)
      · obtain ⟨events', hleased⟩ := hs.attempt_answered k hk.ge
        obtain ⟨hevents, rfl⟩ := Prod.mk.inj (Except.ok.inj (hattempt.symm.trans hleased))
        rw [hattempt, ok_bind]
        refine ⟨history ++ events, rfl, ?_⟩
        rw [List.countP_append, hk, hattempted.leased.countP_eq]

end ServesDhcp

end Server

/-! ## The configuration of the guest -/

namespace K3rsInit

/-- What is done for a lease. -/
def commandsFor (h : Handout) : List NetCommand :=
  [.setAddr h.ip.octets, .setNetmask (u32ToBe (Server.netmask h.prefixLen))] ++
    (h.gateway.map fun gateway => .addDefaultRoute gateway.octets).toList ++
      [.writeResolvConf (resolvConf (h.dnsServers.map ipv4ToString))]

/-- **A lease is applied**: no address is refused, and no shift overflows. -/
theorem applyDhcpLease_lease (e : Endian) (h : Handout) :
    (applyDhcpLease e (fun _ => none) h.lease).run.run [] = (.ok (), commandsFor h) := by
  obtain ⟨ip, hip, hoctets⟩ := exists_parseIpv4 e h.ip
  unfold applyDhcpLease setIpv4Addr setIpv4Netmask
  rw [show h.lease.ip = ipv4ToString h.ip from rfl, hip,
    show h.lease.prefixLen = h.prefixLen from rfl, prefixMask_eq h.prefixLen_le]
  dsimp only
  rw [hoctets, u32ToNe_swapToBe]
  cases hgateway : h.gateway with
  | none =>
      rw [show h.lease.gateway = h.gateway.map ipv4ToString from rfl, hgateway]
      unfold commandsFor
      rw [hgateway]
      rfl
  | some gateway =>
      obtain ⟨gw, hgw, hgwOctets⟩ := exists_parseIpv4 e gateway
      rw [show h.lease.gateway = h.gateway.map ipv4ToString from rfl, hgateway, Option.map_some]
      unfold addDefaultRoute commandsFor
      dsimp only
      rw [hgw, hgateway]
      dsimp only
      rw [hgwOctets]
      rfl

end K3rsInit

/-- **A server configures the guest.**  If the server answers the first, the second or the third
DISCOVER, and acknowledges what it has offered, then no further DISCOVER is sent, and `eth0` gets the
address and the mask that the server hands out, its gateway is the default route, and its DNS servers
are those of the guest. -/
theorem dhcp_configures_guest (e : Endian) (net : DhcpNetwork) (lost : ℕ) (server : Ipv4Addr)
    (h : Handout) (hs : ServesDhcp net lost server h) (hlost : lost < 3) :
    ∃ history, K3rsInit.dhcpOnEth0 e (fun _ => none) net =
        .ok (history, .ok (), K3rsInit.commandsFor h) ∧
      history.countP DhcpEvent.isDiscover = lost + 1 := by
  obtain ⟨final, hrun, hcount⟩ := hs.attempts_answered 3 0 [] rfl (Nat.zero_le _) (by omega)
  refine ⟨final ++ [.closed], ?_, ?_⟩
  · have hdhcp : doDhcp net = .ok (final ++ [.closed], .ok h.lease) := by
      unfold doDhcp
      rw [hs.createSocket]
      exact hrun
    unfold K3rsInit.dhcpOnEth0
    rw [hdhcp, ok_bind]
    dsimp only
    rw [K3rsInit.applyDhcpLease_lease]
    rfl
  · rw [List.countP_append, hcount]
    rfl

/-- `192.168.64.2/24`, as it is handed out by `192.168.64.1`. -/
def vmnetHandout : Handout where
  ip := .ofOctets 192 168 64 2
  prefixLen := 24
  gateway := some (.ofOctets 192 168 64 1)
  dnsServers := [.ofOctets 192 168 64 1]
  prefixLen_le := by decide

/-- An option with the given data, if it is one. -/
def optionWith (optCode : UInt8) (data : List UInt8) : Option DhcpOption :=
  if h : optCode ≠ 0 ∧ optCode ≠ OPT_END ∧ data.length ≤ 255 then
    some ⟨optCode, data, h.1, h.2.1, h.2.2⟩
  else none

/-- The options of its messages, with zeros before one of them. -/
def vmnetOptions (t : UInt8) : List (ℕ × DhcpOption) :=
  [(0, OPT_MSG_TYPE, [t]), (0, OPT_SERVER_ID, [192, 168, 64, 1]),
    (0, OPT_SUBNET_MASK, [255, 255, 255, 0]), (2, OPT_ROUTER, [192, 168, 64, 1]),
    (0, OPT_DNS, [192, 168, 64, 1])].filterMap fun option =>
      (optionWith option.2.1 option.2.2).map fun o => (option.1, o)

theorem dataOf_vmnetOptions (t : UInt8) :
    dataOf (vmnetOptions t) OPT_MSG_TYPE = [[t]] ∧
      dataOf (vmnetOptions t) OPT_SERVER_ID = [[192, 168, 64, 1]] ∧
      dataOf (vmnetOptions t) OPT_SUBNET_MASK = [[255, 255, 255, 0]] ∧
      dataOf (vmnetOptions t) OPT_ROUTER = [[192, 168, 64, 1]] ∧
      dataOf (vmnetOptions t) OPT_DNS = [[192, 168, 64, 1]] :=
  ⟨rfl, rfl, rfl, rfl, rfl⟩

/-- Its messages. -/
def vmnetReply (t : UInt8) : DhcpReply t (.ofOctets 192 168 64 1) vmnetHandout where
  header := [2, 1, 6, 0] ++ u32ToBe XID ++ List.replicate 8 0 ++ [192, 168, 64, 2] ++
    List.replicate 216 0 ++ MAGIC_COOKIE
  options := vmnetOptions t
  padding := 3
  rest := []
  routers := [.ofOctets 192 168 64 1]
  isHeader := ⟨by decide +kernel, by decide +kernel⟩
  op := rfl
  xid := by decide +kernel
  yiaddr := by decide +kernel
  msgType := (dataOf_vmnetOptions t).1
  serverId := (dataOf_vmnetOptions t).2.1
  mask := (dataOf_vmnetOptions t).2.2.1.trans (by decide +kernel)
  router := (dataOf_vmnetOptions t).2.2.2.1
  gateway := rfl
  dns := (dataOf_vmnetOptions t).2.2.2.2
  length_le := by
    have hoptions : (encodeOptions (vmnetOptions t)).length = 29 := rfl
    simp only [List.length_append, hoptions]
    decide +kernel

/-- A server that does not hear the first DISCOVER. -/
def vmnet : DhcpNetwork where
  createSocket := .ok ()
  address _ := none
  sendto _ _ := .ok ()
  setsockopt _ _ := .ok ()
  recvfrom history :=
    match history.getLast? with
    | some (.sent _) => .ok (vmnetReply DHCP_ACK).bytes
    | _ =>
        if 1 < history.countP DhcpEvent.isDiscover then .ok (vmnetReply DHCP_OFFER).bytes
        else .error "Resource temporarily unavailable"

theorem recvfrom_vmnet (history : List DhcpEvent) (discover : List UInt8) (ms : ℕ) :
    vmnet.recvfrom (history ++ [DhcpEvent.sent discover, .timeoutSet ms]) =
      if 1 < (history ++ [DhcpEvent.sent discover]).countP DhcpEvent.isDiscover then
        .ok (vmnetReply DHCP_OFFER).bytes
      else .error "Resource temporarily unavailable" := by
  have hcount : (history ++ [DhcpEvent.sent discover, .timeoutSet ms]).countP DhcpEvent.isDiscover =
      (history ++ [DhcpEvent.sent discover]).countP DhcpEvent.isDiscover := by
    rw [List.countP_append, List.countP_append, List.countP_cons, List.countP_singleton,
      List.countP_singleton, isDiscover_timeoutSet]
    simp
  show (match (history ++ [DhcpEvent.sent discover, .timeoutSet ms]).getLast? with
    | some (.sent _) => Except.ok (vmnetReply DHCP_ACK).bytes
    | _ => _) = _
  rw [List.getLast?_append, hcount]
  rfl

theorem servesDhcp_vmnet : ServesDhcp vmnet 1 (.ofOctets 192 168 64 1) vmnetHandout where
  createSocket := rfl
  sendto _ _ := rfl
  setsockopt _ _ := rfl
  unanswered history discover ms data hcount hrecv := by
    rw [recvfrom_vmnet, if_neg (not_lt.mpr hcount)] at hrecv
    cases hrecv
  offer history discover ms hdiscover hcount :=
    ⟨vmnetReply DHCP_OFFER, (recvfrom_vmnet history discover ms).trans (if_pos hcount)⟩
  ack history request _ _ _ := by
    refine ⟨vmnetReply DHCP_ACK, ?_⟩
    show (match (history ++ [DhcpEvent.sent request]).getLast? with
      | some (.sent _) => Except.ok (vmnetReply DHCP_ACK).bytes
      | _ => _) = _
    rw [List.getLast?_concat]

/-- The guest has its address after the second DISCOVER. -/
theorem dhcp_configures_guest_vmnet :
    ServesDhcp vmnet 1 (.ofOctets 192 168 64 1) vmnetHandout ∧
    ∃ history, K3rsInit.dhcpOnEth0 .little (fun _ => none) vmnet = .ok (history, .ok (),
        [.setAddr [192, 168, 64, 2], .setNetmask [255, 255, 255, 0],
          .addDefaultRoute [192, 168, 64, 1], .writeResolvConf "nameserver 192.168.64.1\n"]) ∧
      history.countP DhcpEvent.isDiscover = 2 := by
  have hcommands : K3rsInit.commandsFor vmnetHandout =
      [.setAddr [192, 168, 64, 2], .setNetmask [255, 255, 255, 0],
        .addDefaultRoute [192, 168, 64, 1], .writeResolvConf "nameserver 192.168.64.1\n"] := by
    decide
  refine ⟨servesDhcp_vmnet, ?_⟩
  rw [← hcommands]
  exact dhcp_configures_guest .little vmnet 1 _ vmnetHandout servesDhcp_vmnet (by decide)

end K3rs
