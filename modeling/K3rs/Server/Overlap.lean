import K3rs.Vpc.Cidr

/-!
# Overlapping networks

`create_vpc` and `create_peering` rely on `cidrs_overlap`, which compares two networks under the
mask of the shorter prefix.  What it should decide is whether some address lies in both, and
that can be said of the texts alone: an address lies in the network of a text when it agrees
with the written address above the host bits (`InNetwork`), whatever host bits are written.

* `cidrsOverlap_iff`: on accepted texts it decides exactly that.
-/

namespace K3rs

open Net

/-- The address lies in the network that the text names. -/
def InNetwork (cidr : String) (addr : Ipv4Addr) : Prop :=
  ∃ ip prefixLen, CidrText cidr ip prefixLen ∧ prefixLen ≤ 32 ∧
    addr.bits.toNat / 2 ^ (32 - prefixLen) = ip.bits.toNat / 2 ^ (32 - prefixLen)

/-! ## Networks of numbers -/

section Blocks

variable {p q : ℕ} {x y : UInt32}

/-- Two addresses have the same network exactly if they agree above the host bits. -/
theorem and_netmask_eq_iff (hp : p ≤ 32) :
    x &&& Server.netmask p = y &&& Server.netmask p ↔
      x.toNat / 2 ^ (32 - p) = y.toNat / 2 ^ (32 - p) := by
  rw [← UInt32.toNat_inj, toNat_and_netmask x hp, toNat_and_netmask y hp]
  exact Nat.mul_right_inj (Nat.two_pow_pos _).ne'

/-- Addresses that agree under a longer prefix agree under a shorter one. -/
theorem div_eq_of_longer (hq : q ≤ 32) (hpq : p ≤ q)
    (h : x.toNat / 2 ^ (32 - q) = y.toNat / 2 ^ (32 - q)) :
    x.toNat / 2 ^ (32 - p) = y.toNat / 2 ^ (32 - p) := by
  have hsplit : 2 ^ (32 - p) = 2 ^ (32 - q) * 2 ^ (q - p) := by
    rw [← pow_add]
    congr 1
    omega
  rw [hsplit, ← Nat.div_div_eq_div_mul, ← Nat.div_div_eq_div_mul, h]

/-- **The shorter prefix decides.**  A network meets one that is not larger exactly if the
other's written address lies in it. -/
theorem shared_iff (hq : q ≤ 32) (hpq : p ≤ q) :
    (∃ addr : Ipv4Addr, addr.bits.toNat / 2 ^ (32 - p) = x.toNat / 2 ^ (32 - p) ∧
        addr.bits.toNat / 2 ^ (32 - q) = y.toNat / 2 ^ (32 - q)) ↔
      x.toNat / 2 ^ (32 - p) = y.toNat / 2 ^ (32 - p) := by
  constructor
  · rintro ⟨addr, hx, hy⟩
    exact hx.symm.trans (div_eq_of_longer hq hpq hy)
  · exact fun h => ⟨⟨y⟩, h.symm, rfl⟩

end Blocks

/-! ## Networks of texts -/

namespace CidrText

variable {cidr : String} {ip : Ipv4Addr} {prefixLen : ℕ}

/-- The server takes the network and the prefix length. -/
theorem server (h : CidrText cidr ip prefixLen) (hle : prefixLen ≤ 32) :
    Server.parseCidr cidr = some (ip.bits &&& Server.netmask prefixLen, prefixLen) := by
  obtain ⟨addrPart, lenPart, htext, hslash, haddr, hlen⟩ := h
  have hall : ∀ c ∈ addrPart, decide (c ≠ '/') = true := by
    intro c hc
    exact decide_eq_true fun heq => hslash (heq ▸ hc)
  have htake : cidr.toList.takeWhile (· ≠ '/') = addrPart := by
    rw [htext, List.takeWhile_append_of_pos hall]
    simp
  have hdrop : cidr.toList.dropWhile (· ≠ '/') = '/' :: lenPart := by
    rw [htext, List.dropWhile_append_of_pos hall]
    simp
  simp only [Server.parseCidr, hdrop, htake, haddr, hlen, if_neg (not_lt.mpr hle)]

/-- A text names one network. -/
theorem inNetwork_iff (h : CidrText cidr ip prefixLen) (hle : prefixLen ≤ 32) {addr : Ipv4Addr} :
    InNetwork cidr addr ↔
      addr.bits.toNat / 2 ^ (32 - prefixLen) = ip.bits.toNat / 2 ^ (32 - prefixLen) := by
  constructor
  · rintro ⟨ip', prefixLen', h', hle', haddr⟩
    have hparse := h.server hle
    rw [h'.server hle', Option.some_inj, Prod.mk.injEq] at hparse
    obtain ⟨hnet, rfl⟩ := hparse
    exact haddr.trans ((and_netmask_eq_iff hle').mp hnet)
  · exact fun haddr => ⟨ip, prefixLen, h, hle, haddr⟩

end CidrText

/-- The comparison of `cidrs_overlap`, without the host bits it has already cleared. -/
theorem cidrsOverlap_eq_true_iff {a b : String} {ipA ipB : Ipv4Addr} {pfxA pfxB : ℕ}
    (ha : CidrText a ipA pfxA) (hleA : pfxA ≤ 32) (hb : CidrText b ipB pfxB) (hleB : pfxB ≤ 32) :
    Server.cidrsOverlap a b = true ↔
      ipA.bits.toNat / 2 ^ (32 - min pfxA pfxB) = ipB.bits.toNat / 2 ^ (32 - min pfxA pfxB) := by
  have hmaskA := Server.netmask_and_netmask hleA (min_le_left pfxA pfxB)
  have hmaskB := Server.netmask_and_netmask hleB (min_le_right pfxA pfxB)
  simp only [Server.cidrsOverlap, ha.server hleA, hb.server hleB, beq_iff_eq]
  rw [UInt32.and_assoc, UInt32.and_assoc, hmaskA, hmaskB,
    and_netmask_eq_iff ((min_le_left pfxA pfxB).trans hleA)]

/-- **Two accepted CIDRs overlap exactly if some address lies in both networks**, for every
pair of prefix lengths and whatever host bits the texts have. -/
theorem cidrsOverlap_iff {a b : String} (ha : (Server.parseCidr a).isSome = true)
    (hb : (Server.parseCidr b).isSome = true) :
    Server.cidrsOverlap a b = true ↔ ∃ addr, InNetwork a addr ∧ InNetwork b addr := by
  obtain ⟨⟨netA, pfxA⟩, hparseA⟩ := Option.isSome_iff_exists.mp ha
  obtain ⟨⟨netB, pfxB⟩, hparseB⟩ := Option.isSome_iff_exists.mp hb
  obtain ⟨ipA, htextA, hleA, -⟩ := cidrText_of_parseCidr hparseA
  obtain ⟨ipB, htextB, hleB, -⟩ := cidrText_of_parseCidr hparseB
  rw [cidrsOverlap_eq_true_iff htextA hleA htextB hleB]
  simp only [htextA.inNetwork_iff hleA, htextB.inNetwork_iff hleB]
  rcases le_total pfxA pfxB with hle | hle
  · rw [min_eq_left hle]
    exact (shared_iff hleB hle).symm
  · -- the same with the two networks in the other order
    rw [min_eq_right hle, eq_comm, ← shared_iff hleA hle]
    exact exists_congr fun addr => and_comm

theorem cidrsOverlap_iff_nested :
    ((Server.parseCidr "10.0.0.0/8").isSome = true ∧
        (Server.parseCidr "10.1.2.3/16").isSome = true) ∧
      (Server.cidrsOverlap "10.0.0.0/8" "10.1.2.3/16" = true ↔
        ∃ addr, InNetwork "10.0.0.0/8" addr ∧ InNetwork "10.1.2.3/16" addr) :=
  ⟨⟨by decide, by decide⟩,
    cidrsOverlap_iff (by decide) (by decide)⟩

end K3rs
