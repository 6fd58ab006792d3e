import K3rs.Lib.IpRoundTrip
import K3rs.Lib.Transition
import Mathlib.Data.List.AList

/-!
# The pod network

`PodNetwork` gives the pods of a node addresses of one CIDR.  A counter is the offset of the next
address from the address of the CIDR; it starts behind the network and the gateway, and no address
is given twice, also where its pod is released.

So the pool keeps its law (`LawfulCall`) in a run if and only if every call that needs a new address
finds the counter within the CIDR (`podNetwork_lawful_iff`): the broadcast address is given like any
other, the host bits of the CIDR's address shift the range, and what has been released is not free
again.
-/

namespace K3rs

open Net Transition Wire

/-- `PodNetwork`. -/
structure PodNetwork where
  baseIp : UInt32
  prefixLen : UInt8
  maxHosts : UInt32
  nextOffset : UInt32
  allocations : AList fun _ : String => String

/-- How `new` ends without a network: it refuses the text, or `32 - prefix_len` overflows. -/
inductive NewError where
  | refused (message : String)
  | overflow
  deriving DecidableEq, Repr

/-- A call of the pool. -/
inductive NetworkCall where
  | allocate (podId : String)
  | release (podId : String)
  deriving DecidableEq, Repr

/-- `u32::checked_shl`. -/
def checkedShl (x : UInt32) (bits : ℕ) : Option UInt32 :=
  if bits < 32 then some (x <<< .ofNat bits) else none

namespace PodNetwork

/-- The pool of a new network. -/
def ofCidr (baseIp : UInt32) (prefixLen : ℕ) : PodNetwork where
  baseIp := baseIp
  prefixLen := .ofNat prefixLen
  maxHosts := (checkedShl 1 (32 - prefixLen)).getD 0
  nextOffset := 2
  allocations := ∅

/-- `PodNetwork::new`. -/
def new (cidr : String) : Except NewError PodNetwork :=
  match cidr.toList.splitOn '/' with
  | [ipStr, lenPart] =>
      match parseUnsigned 256 lenPart with
      | .error _ => .error (.refused ("Invalid prefix length: " ++ String.ofList lenPart))
      | .ok prefixLen =>
          match (ipStr.splitOn '.').mapM (parseUnsigned 256) with
          | .ok [b₀, b₁, b₂, b₃] =>
              if 32 < prefixLen then .error .overflow
              else .ok (ofCidr (u32OfBe (.ofNat b₀) (.ofNat b₁) (.ofNat b₂) (.ofNat b₃)) prefixLen)
          | _ => .error (.refused ("Invalid IP: " ++ String.ofList ipStr))
  | _ => .error (.refused ("Invalid CIDR format: " ++ cidr))

variable (net : PodNetwork)

/-- `allocate_ip`.  The counter goes on where no address is left, and wraps around. -/
def allocateIp (podId : String) : PodNetwork × Except String String :=
  match net.allocations.lookup podId with
  | some ip => (net, .ok ip)
  | none =>
      let counted := { net with nextOffset := net.nextOffset + 1 }
      if net.maxHosts ≤ net.nextOffset then
        (counted, .error "PodNetwork exhausted: no more IPs available")
      else
        let ip := ipv4ToString ⟨net.baseIp + net.nextOffset⟩
        ({ counted with allocations := counted.allocations.insert podId ip }, .ok ip)

/-- `release_ip`. -/
def releaseIp (podId : String) : PodNetwork :=
  { net with allocations := net.allocations.erase podId }

/-- One call. -/
def step : NetworkCall → PodNetwork
  | .allocate podId => (net.allocateIp podId).1
  | .release podId => net.releaseIp podId

/-! ## The law of the pool -/

/-- How many bits of an address are the host's. -/
def hostBits : ℕ := 32 - net.prefixLen.toNat

/-- The network address of the CIDR. -/
def networkAddr : ℕ := net.baseIp.toNat / 2 ^ net.hostBits * 2 ^ net.hostBits

/-- An address of the CIDR that is not its network, gateway or broadcast address. -/
structure Usable (a : Ipv4Addr) : Prop where
  le : net.networkAddr ≤ a.bits.toNat
  lt : a.bits.toNat < net.networkAddr + 2 ^ net.hostBits
  ne_network : a.bits.toNat ≠ net.networkAddr
  ne_gateway : a.bits.toNat ≠ net.networkAddr + 1
  ne_broadcast : a.bits.toNat ≠ net.networkAddr + 2 ^ net.hostBits - 1

/-- An address that no live pod has. -/
def Free (a : Ipv4Addr) : Prop :=
  net.Usable a ∧ ∀ podId, net.allocations.lookup podId ≠ some (ipv4ToString a)

/-- Live pods have usable addresses, and no two of them the same. -/
structure Pooled : Prop where
  distinct : ∀ p q ip, net.allocations.lookup p = some ip → net.allocations.lookup q = some ip →
    p = q
  usable : ∀ p ip, net.allocations.lookup p = some ip →
    ∃ a, ip = ipv4ToString a ∧ net.Usable a

/-- **The law of a call.**  A live pod keeps its address until it is released, and gets it again;
what is given is held; a call fails only where no address is free; and the pool is as it should be
afterwards. -/
structure LawfulCall (call : NetworkCall) : Prop where
  keeps : ∀ p ip, net.allocations.lookup p = some ip → call ≠ .release p →
    (net.step call).allocations.lookup p = some ip
  again : ∀ p ip, call = .allocate p → net.allocations.lookup p = some ip →
    (net.allocateIp p).2 = .ok ip
  held : ∀ p ip, call = .allocate p → (net.allocateIp p).2 = .ok ip →
    (net.step call).allocations.lookup p = some ip
  exhausted : ∀ p message, call = .allocate p → (net.allocateIp p).2 = .error message →
    ∀ a, ¬net.Free a
  pooled : (net.step call).Pooled

/-- A call that needs a new address finds the counter within the CIDR; where the CIDR has no usable
address, it finds the counter beyond it. -/
def RoomFor : NetworkCall → Prop
  | .allocate podId =>
      (net.allocations.lookup podId).isSome ∨
        (net.hostBits ≤ 1 ∧ net.maxHosts ≤ net.nextOffset) ∨
        (2 ≤ net.hostBits ∧ net.hostBits ≤ 31 ∧
          net.baseIp.toNat % 2 ^ net.hostBits + net.nextOffset.toNat + 1 < 2 ^ net.hostBits)
  | .release _ => True

instance : ∀ call : NetworkCall, Decidable (net.RoomFor call)
  | .allocate _ => inferInstanceAs (Decidable (_ ∨ _))
  | .release _ => inferInstanceAs (Decidable True)

variable {net}

section Calls

variable {podId : String}

/-! ## What a call does -/

theorem allocateIp_live {ip : String} (h : net.allocations.lookup podId = some ip) :
    net.allocateIp podId = (net, .ok ip) := by
  unfold allocateIp
  rw [h]

/-- Beyond the last offset, a call fails and is counted. -/
theorem allocateIp_exhausted (h : net.allocations.lookup podId = none)
    (hfull : net.maxHosts ≤ net.nextOffset) :
    net.allocateIp podId = ({ net with nextOffset := net.nextOffset + 1 },
      .error "PodNetwork exhausted: no more IPs available") := by
  unfold allocateIp
  rw [h]
  exact if_pos hfull

/-- The address that the counter stands at. -/
def nextIp (net : PodNetwork) : String := ipv4ToString ⟨net.baseIp + net.nextOffset⟩

/-- The state after an address is given. -/
def give (net : PodNetwork) (podId : String) : PodNetwork :=
  { net with
    nextOffset := net.nextOffset + 1
    allocations := net.allocations.insert podId net.nextIp }

theorem allocateIp_fresh (h : net.allocations.lookup podId = none)
    (hroom : ¬net.maxHosts ≤ net.nextOffset) :
    net.allocateIp podId = (net.give podId, .ok net.nextIp) := by
  unfold allocateIp
  rw [h]
  exact if_neg hroom

theorem step_allocate (net : PodNetwork) (podId : String) :
    net.step (.allocate podId) = (net.allocateIp podId).1 := rfl

/-- A usable address is behind the gateway and before the broadcast address. -/
theorem usable_iff {a : Ipv4Addr} : net.Usable a ↔
    net.networkAddr + 2 ≤ a.bits.toNat ∧ a.bits.toNat + 2 ≤ net.networkAddr + 2 ^ net.hostBits := by
  constructor
  · rintro ⟨hle, hlt, hnetwork, hgateway, hbroadcast⟩
    omega
  · rintro ⟨hle, hlt⟩
    exact ⟨by omega, by omega, by omega, by omega, by omega⟩

theorem networkAddr_add_mod (net : PodNetwork) :
    net.networkAddr + net.baseIp.toNat % 2 ^ net.hostBits = net.baseIp.toNat :=
  Nat.div_add_mod' _ _

/-- The CIDR ends within the addresses. -/
theorem networkAddr_add_size (net : PodNetwork) :
    net.networkAddr + 2 ^ net.hostBits ≤ 2 ^ 32 := by
  have hle : net.hostBits ≤ 32 := Nat.sub_le _ _
  have hpow : 2 ^ 32 = 2 ^ (32 - net.hostBits) * 2 ^ net.hostBits := by
    rw [← pow_add, Nat.sub_add_cancel hle]
  have hbase : net.baseIp.toNat < 2 ^ (32 - net.hostBits) * 2 ^ net.hostBits :=
    hpow ▸ net.baseIp.toNat_lt
  have hdiv := Nat.div_lt_of_lt_mul (mul_comm (2 ^ (32 - net.hostBits)) _ ▸ hbase)
  rw [networkAddr, hpow, ← Nat.succ_mul]
  exact Nat.mul_le_mul_right _ hdiv

/-- Without room for hosts, no address is usable. -/
theorem not_usable (h : net.hostBits ≤ 1) (a : Ipv4Addr) : ¬net.Usable a := by
  intro ha
  obtain ⟨hle, hlt⟩ := usable_iff.mp ha
  have hsize : 2 ^ net.hostBits ≤ 2 ^ 1 := Nat.pow_le_pow_right (by decide) h
  omega

end Calls

/-! ## The counter -/

/-- What the counter says of the pool, up to where it leaves the CIDR. -/
structure Counted (net : PodNetwork) : Prop where
  prefix_le : net.prefixLen.toNat ≤ 32
  maxHosts_eq : net.maxHosts.toNat = if net.hostBits = 32 then 0 else 2 ^ net.hostBits
  next_ge : 2 ≤ net.hostBits → 2 ≤ net.nextOffset.toNat
  next_le : 2 ≤ net.hostBits → net.nextOffset.toNat = 2 ∨
    net.baseIp.toNat % 2 ^ net.hostBits + net.nextOffset.toNat < 2 ^ net.hostBits
  next_eq : net.hostBits = 32 → net.nextOffset.toNat = 2
  held : ∀ p ip, net.allocations.lookup p = some ip → ∃ k : UInt32,
    2 ≤ k.toNat ∧ k.toNat < net.nextOffset.toNat ∧
      net.baseIp.toNat % 2 ^ net.hostBits + k.toNat + 1 < 2 ^ net.hostBits ∧
        ip = ipv4ToString ⟨net.baseIp + k⟩
  distinct : ∀ p q ip, net.allocations.lookup p = some ip →
    net.allocations.lookup q = some ip → p = q

namespace Counted

/-- The counter has not reached the end. -/
theorem not_full (h : Counted net) (hle : net.hostBits ≤ 31)
    (hlt : net.nextOffset.toNat < 2 ^ net.hostBits) : ¬net.maxHosts ≤ net.nextOffset := by
  have hne : net.hostBits ≠ 32 := by omega
  rw [UInt32.le_iff_toNat_le, h.maxHosts_eq, if_neg hne]
  omega

theorem next_lt (h : Counted net) (hge : 2 ≤ net.hostBits) :
    net.nextOffset.toNat < 2 ^ net.hostBits := by
  have hsize : 2 ^ 2 ≤ 2 ^ net.hostBits := Nat.pow_le_pow_right (by decide) hge
  have hnext := h.next_le hge
  omega

/-- With prefix 0 nobody has an address, although there are some. -/
theorem exists_free (h : Counted net) (heq : net.hostBits = 32) : ∃ a, net.Free a := by
  have hbase := net.baseIp.toNat_lt
  have hnetwork : net.networkAddr = 0 := by
    rw [networkAddr, heq, Nat.div_eq_of_lt hbase, Nat.zero_mul]
  refine ⟨⟨2⟩, usable_iff.mpr ?_, fun p hp => ?_⟩
  · show net.networkAddr + 2 ≤ 2 ∧ 2 + 2 ≤ net.networkAddr + 2 ^ net.hostBits
    rw [hnetwork, heq]
    decide
  · obtain ⟨k, hge, hlt, -⟩ := h.held p _ hp
    rw [h.next_eq heq] at hlt
    omega

/-- Without room for hosts, nobody has an address. -/
theorem lookup_eq_none (h : Counted net) (hle : net.hostBits ≤ 1) (p : String) :
    net.allocations.lookup p = none := by
  cases hheld : net.allocations.lookup p with
  | none => rfl
  | some ip =>
      obtain ⟨k, hge, -, hlt, -⟩ := h.held p ip hheld
      have hsize : 2 ^ net.hostBits ≤ 2 ^ 1 := Nat.pow_le_pow_right (by decide) hle
      omega

/-- The addresses behind the gateway and before the broadcast address are usable. -/
theorem usable (net : PodNetwork) {k : UInt32} (hge : 2 ≤ k.toNat)
    (hlt : net.baseIp.toNat % 2 ^ net.hostBits + k.toNat + 1 < 2 ^ net.hostBits) :
    net.Usable ⟨net.baseIp + k⟩ := by
  have hbase := net.networkAddr_add_mod
  have hend := net.networkAddr_add_size
  have hbits : (net.baseIp + k).toNat = net.baseIp.toNat + k.toNat := by
    rw [UInt32.toNat_add, Nat.mod_eq_of_lt (by omega)]
  rw [usable_iff]
  show net.networkAddr + 2 ≤ (net.baseIp + k).toNat ∧
    (net.baseIp + k).toNat + 2 ≤ net.networkAddr + 2 ^ net.hostBits
  omega

theorem pooled (h : Counted net) : net.Pooled where
  distinct := h.distinct
  usable p ip hip := by
    obtain ⟨k, hge, -, hlt, rfl⟩ := h.held p ip hip
    exact ⟨_, rfl, usable net hge hlt⟩

/-- A call beyond the last offset is counted. -/
theorem count (h : Counted net) (hle : net.hostBits ≤ 1) :
    Counted { net with nextOffset := net.nextOffset + 1 } where
  prefix_le := h.prefix_le
  maxHosts_eq := h.maxHosts_eq
  next_ge hge := absurd hge (show ¬2 ≤ net.hostBits by omega)
  next_le hge := absurd hge (show ¬2 ≤ net.hostBits by omega)
  next_eq heq := absurd heq (show ¬net.hostBits = 32 by omega)
  held p ip hip := by
    have hnone : net.allocations.lookup p = some ip := hip
    rw [h.lookup_eq_none hle p] at hnone
    cases hnone
  distinct := h.distinct

/-- An address of the CIDR is given. -/
theorem give (h : Counted net) {podId : String} (hge : 2 ≤ net.hostBits) (hle : net.hostBits ≤ 31)
    (hlt : net.baseIp.toNat % 2 ^ net.hostBits + net.nextOffset.toNat + 1 < 2 ^ net.hostBits) :
    Counted (net.give podId) := by
  have hsize : 2 ^ net.hostBits ≤ 2 ^ 31 := Nat.pow_le_pow_right (by decide) hle
  have hnext : (net.nextOffset + 1).toNat = net.nextOffset.toNat + 1 := by
    rw [UInt32.toNat_add]
    show (net.nextOffset.toNat + 1) % 2 ^ 32 = _
    omega
  have hheld : ∀ p ip, (net.allocations.insert podId net.nextIp).lookup p = some ip →
      p = podId ∧ ip = net.nextIp ∨ p ≠ podId ∧ net.allocations.lookup p = some ip := by
    intro p ip hip
    by_cases hp : p = podId
    · rw [hp, AList.lookup_insert] at hip
      exact .inl ⟨hp, (Option.some_inj.mp hip).symm⟩
    · rw [AList.lookup_insert_ne hp] at hip
      exact .inr ⟨hp, hip⟩
  have hfresh : ∀ p, net.allocations.lookup p ≠ some net.nextIp := by
    intro p hp
    obtain ⟨k, -, hk, -, htext⟩ := h.held p _ hp
    have hsum : net.baseIp + net.nextOffset = net.baseIp + k :=
      congrArg Ipv4Addr.bits (ipv4ToString_injective htext)
    rw [(UInt32.add_right_inj _).mp hsum] at hk
    exact absurd hk (lt_irrefl _)
  refine ⟨h.prefix_le, h.maxHosts_eq, fun _ => ?_, fun _ => .inr ?_, fun heq => ?_, ?_, ?_⟩
  · show 2 ≤ (net.nextOffset + 1).toNat
    have hold := h.next_ge hge
    omega
  · show net.baseIp.toNat % 2 ^ net.hostBits + (net.nextOffset + 1).toNat < 2 ^ net.hostBits
    omega
  · exact absurd heq (show ¬net.hostBits = 32 by omega)
  · intro p ip hip
    show ∃ k : UInt32, 2 ≤ k.toNat ∧ k.toNat < (net.nextOffset + 1).toNat ∧
      net.baseIp.toNat % 2 ^ net.hostBits + k.toNat + 1 < 2 ^ net.hostBits ∧
        ip = ipv4ToString ⟨net.baseIp + k⟩
    rcases hheld p ip hip with ⟨-, rfl⟩ | ⟨-, hold⟩
    · exact ⟨net.nextOffset, h.next_ge hge, by omega, hlt, rfl⟩
    · obtain ⟨k, hk, hbelow, hin, htext⟩ := h.held p ip hold
      exact ⟨k, hk, by omega, hin, htext⟩
  · intro p q ip hp hq
    rcases hheld p ip hp with ⟨rfl, rfl⟩ | ⟨-, hp⟩
    · rcases hheld q _ hq with ⟨rfl, -⟩ | ⟨-, hq⟩
      · rfl
      · exact absurd hq (hfresh q)
    · rcases hheld q ip hq with ⟨-, rfl⟩ | ⟨-, hq⟩
      · exact absurd hp (hfresh p)
      · exact h.distinct p q ip hp hq

/-- A release takes an address away. -/
theorem release (h : Counted net) (podId : String) : Counted (net.releaseIp podId) := by
  have hheld : ∀ p ip, (net.allocations.erase podId).lookup p = some ip →
      net.allocations.lookup p = some ip := by
    intro p ip hip
    by_cases hp : p = podId
    · rw [hp, AList.lookup_erase] at hip
      cases hip
    · rwa [AList.lookup_erase_ne hp] at hip
  exact ⟨h.prefix_le, h.maxHosts_eq, h.next_ge, h.next_le, h.next_eq,
    fun p ip hip => h.held p ip (hheld p ip hip),
    fun p q ip hp hq => h.distinct p q ip (hheld p ip hp) (hheld q ip hq)⟩

end Counted

/-- What is accepted has a prefix of at most 32 bits. -/
theorem exists_ofCidr {cidr : String} (hnew : new cidr = .ok net) :
    ∃ baseIp, ∃ prefixLen ≤ 32, net = ofCidr baseIp prefixLen := by
  unfold new at hnew
  split at hnew
  · split at hnew
    · cases hnew
    · split at hnew
      · split at hnew
        · cases hnew
        · cases hnew
          exact ⟨_, _, by omega, rfl⟩
      · cases hnew
  · cases hnew

/-- A new network has given nothing. -/
theorem counted_ofCidr (baseIp : UInt32) {prefixLen : ℕ} (hle : prefixLen ≤ 32) :
    Counted (ofCidr baseIp prefixLen) := by
  have hall : ∀ k ≤ 32, ((checkedShl 1 k).getD 0).toNat = if k = 32 then 0 else 2 ^ k := by
    decide
  have hlen : (UInt8.ofNat prefixLen).toNat = prefixLen := by
    rw [UInt8.toNat_ofNat']
    omega
  refine ⟨?_, ?_, fun _ => le_rfl, fun _ => .inl rfl, fun _ => rfl, ?_, ?_⟩
  · show (UInt8.ofNat prefixLen).toNat ≤ 32
    omega
  · show ((checkedShl 1 (32 - prefixLen)).getD 0).toNat =
      if 32 - (UInt8.ofNat prefixLen).toNat = 32 then 0
      else 2 ^ (32 - (UInt8.ofNat prefixLen).toNat)
    rw [hlen]
    exact hall _ (Nat.sub_le _ _)
  · intro p ip hip
    cases hip
  · intro p q ip hip
    cases hip

/-! ## Calls and the law -/

section Law

/-- A live pod keeps its address. -/
theorem lookup_step {call : NetworkCall} {p ip : String} (h : net.allocations.lookup p = some ip)
    (hcall : call ≠ .release p) : (net.step call).allocations.lookup p = some ip := by
  cases call with
  | release q =>
      have hne : p ≠ q := fun heq => hcall (heq ▸ rfl)
      exact (AList.lookup_erase_ne hne).trans h
  | allocate q =>
      rw [step_allocate]
      cases hlive : net.allocations.lookup q with
      | some old =>
          rw [allocateIp_live hlive]
          exact h
      | none =>
          by_cases hfull : net.maxHosts ≤ net.nextOffset
          · rw [allocateIp_exhausted hlive hfull]
            exact h
          · have hne : p ≠ q := by
              rintro rfl
              rw [hlive] at h
              cases h
            rw [allocateIp_fresh hlive hfull]
            exact (AList.lookup_insert_ne hne).trans h

/-- What is given is held. -/
theorem lookup_allocateIp {p ip : String} (h : (net.allocateIp p).2 = .ok ip) :
    (net.step (.allocate p)).allocations.lookup p = some ip := by
  rw [step_allocate]
  cases hlive : net.allocations.lookup p with
  | some old =>
      rw [allocateIp_live hlive] at h ⊢
      cases h
      exact hlive
  | none =>
      by_cases hfull : net.maxHosts ≤ net.nextOffset
      · rw [allocateIp_exhausted hlive hfull] at h
        cases h
      · rw [allocateIp_fresh hlive hfull] at h ⊢
        cases h
        exact AList.lookup_insert _

/-- Part of the law holds of every call. -/
theorem lawfulCall_of {call : NetworkCall}
    (hexhausted : ∀ p message, call = .allocate p → (net.allocateIp p).2 = .error message →
      ∀ a, ¬net.Free a) (hpooled : (net.step call).Pooled) : net.LawfulCall call where
  keeps _ _ := lookup_step
  again p ip _ hlive := by rw [allocateIp_live hlive]
  held p ip hcall hgiven := hcall ▸ lookup_allocateIp hgiven
  exhausted := hexhausted
  pooled := hpooled

/-- **The step lemma.**  Where there is room, the counter keeps its relation to the pool. -/
theorem Counted.step {call : NetworkCall} (h : Counted net) (hroom : net.RoomFor call) :
    Counted (net.step call) := by
  cases call with
  | release p => exact h.release p
  | allocate p =>
      rw [step_allocate]
      cases hlive : net.allocations.lookup p with
      | some ip =>
          rw [allocateIp_live hlive]
          exact h
      | none =>
          rcases hroom with hsome | ⟨hle, hfull⟩ | ⟨hge, hle, hlt⟩
          · rw [hlive] at hsome
            cases hsome
          · rw [allocateIp_exhausted hlive hfull]
            exact h.count hle
          · rw [allocateIp_fresh hlive (h.not_full hle (by omega))]
            exact h.give hge hle hlt

/-- Where there is room, a call is lawful. -/
theorem lawfulCall_of_roomFor {call : NetworkCall} (h : Counted net) (hroom : net.RoomFor call) :
    net.LawfulCall call := by
  refine lawfulCall_of ?_ (h.step hroom).pooled
  rintro p message rfl hfailed a ⟨husable, -⟩
  cases hlive : net.allocations.lookup p with
  | some ip =>
      rw [allocateIp_live hlive] at hfailed
      cases hfailed
  | none =>
      rcases hroom with hsome | ⟨hle, -⟩ | ⟨-, hle, hlt⟩
      · rw [hlive] at hsome
        cases hsome
      · exact not_usable hle a husable
      · rw [allocateIp_fresh hlive (h.not_full hle (by omega))] at hfailed
        cases hfailed

/-- A lawful call finds room. -/
theorem roomFor_of_lawfulCall {call : NetworkCall} (h : Counted net) (hlaw : net.LawfulCall call) :
    net.RoomFor call := by
  cases call with
  | release p => trivial
  | allocate p =>
      cases hlive : net.allocations.lookup p with
      | some ip => exact .inl (by rw [hlive]; rfl)
      | none =>
          refine .inr ?_
          have hbits : net.hostBits ≤ 32 := Nat.sub_le _ _
          by_cases hfull : net.maxHosts ≤ net.nextOffset
          · -- the call fails: without room for hosts it may, and with prefix 0 it may not
            by_cases hle : net.hostBits ≤ 1
            · exact .inl ⟨hle, hfull⟩
            · by_cases heq : net.hostBits = 32
              · obtain ⟨a, hfree⟩ := h.exists_free heq
                have hfailed := congrArg Prod.snd (allocateIp_exhausted hlive hfull)
                exact absurd hfree (hlaw.exhausted p _ rfl hfailed a)
              · exact absurd hfull (h.not_full (by omega) (h.next_lt (by omega)))
          · -- an address is given, and the law says that it is usable
            have hgiven := hlaw.held p net.nextIp rfl (by rw [allocateIp_fresh hlive hfull])
            obtain ⟨a, htext, husable⟩ := hlaw.pooled.usable p net.nextIp hgiven
            obtain rfl := ipv4ToString_injective htext
            have hin : net.Usable ⟨net.baseIp + net.nextOffset⟩ := by
              rw [step_allocate, allocateIp_fresh hlive hfull] at husable
              exact ⟨husable.le, husable.lt, husable.ne_network, husable.ne_gateway,
                husable.ne_broadcast⟩
            by_cases hle : net.hostBits ≤ 1
            · exact absurd hin (not_usable hle _)
            · by_cases heq : net.hostBits = 32
              · have hmax : net.maxHosts.toNat = 0 := by rw [h.maxHosts_eq, if_pos heq]
                refine absurd (UInt32.le_iff_toNat_le.mpr ?_) hfull
                omega
              · have hsize : 2 ^ net.hostBits ≤ 2 ^ 31 :=
                  Nat.pow_le_pow_right (by decide) (by omega)
                have hnext := h.next_lt (by omega)
                have hmod := Nat.mod_lt net.baseIp.toNat (Nat.two_pow_pos net.hostBits)
                have hbase := net.networkAddr_add_mod
                have haddr : (net.baseIp + net.nextOffset).toNat =
                    (net.baseIp.toNat + net.nextOffset.toNat) % 2 ^ 32 := UInt32.toNat_add _ _
                obtain ⟨hlow, hhigh⟩ := usable_iff.mp hin
                refine .inr ⟨by omega, by omega, ?_⟩
                dsimp only at hlow hhigh
                omega

end Law

/-- **The pod network.**  A run of the calls keeps the law of the pool if and only if each of them
finds room. -/
theorem podNetwork_lawful_iff {cidr : String} {net : PodNetwork} (hnew : new cidr = .ok net)
    (calls : List NetworkCall) :
    Admitted step LawfulCall net calls ↔ Admitted step RoomFor net calls := by
  obtain ⟨baseIp, prefixLen, hle, rfl⟩ := exists_ofCidr hnew
  have hcounted := counted_ofCidr baseIp hle
  constructor
  · exact Admitted.mono Counted (fun s call hlaw h => h.step (roomFor_of_lawfulCall h hlaw))
      (fun s call h hlaw => roomFor_of_lawfulCall h hlaw) hcounted
  · exact Admitted.mono Counted (fun s call hroom h => h.step hroom)
      (fun s call h hroom => lawfulCall_of_roomFor h hroom) hcounted

/-- In `10.42.0.0/16` there is room for these pods. -/
theorem podNetwork_three_pods :
    new "10.42.0.0/16" = .ok (ofCidr 0x0A2A0000 16) ∧
      Admitted step LawfulCall (ofCidr 0x0A2A0000 16)
        [.allocate "pod-1", .allocate "pod-2", .release "pod-1", .allocate "pod-3"] := by
  have hnew : new "10.42.0.0/16" = .ok (ofCidr 0x0A2A0000 16) := rfl
  exact ⟨hnew, (podNetwork_lawful_iff hnew _).mpr (by decide)⟩

/-- In `10.42.0.0/30` the second pod gets the broadcast address. -/
theorem podNetwork_broadcast :
    ¬∀ (cidr : String) (net : PodNetwork), new cidr = .ok net → ∀ calls : List NetworkCall,
      Admitted step LawfulCall net calls := by
  intro h
  have hnew : new "10.42.0.0/30" = .ok (ofCidr 0x0A2A0000 30) := rfl
  obtain ⟨-, hsecond, -⟩ := h _ _ hnew [.allocate "pod-1", .allocate "pod-2"]
  have hgiven : ((ofCidr 0x0A2A0000 30).step (.allocate "pod-1") |>.allocateIp "pod-2").2 =
      .ok (ipv4ToString ⟨0x0A2A0003⟩) := by decide
  obtain ⟨a, htext, husable⟩ := hsecond.pooled.usable _ _ (hsecond.held _ _ rfl hgiven)
  obtain rfl := ipv4ToString_injective htext
  exact husable.ne_broadcast (by decide)

end PodNetwork

end K3rs
