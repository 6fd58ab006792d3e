import Mathlib.Data.List.TakeWhile
import K3rs.Server.VpcRegistry
import K3rs.Vpc.Allocator
import K3rs.Vpc.Enforcer

/-!
# One CIDR, three readers

A CIDR is a text, and the server, the allocator and the enforcer each parse it for
themselves.  `CidrText` is what they have in common; a text that the server accepts is read

* by the server as the network without host bits (`cidrText_of_parseCidr`),
* by the allocator as the address with its host bits, and only up to prefix length 30
  (`CidrText.allocator`),
* by the enforcer as the address and the mask (`CidrText.enforcer`).
-/

namespace K3rs

open Net

/-- The text is an address and a prefix length. -/
def CidrText (cidr : String) (ip : Ipv4Addr) (prefixLen : ℕ) : Prop :=
  ∃ addrPart lenPart, cidr.toList = addrPart ++ '/' :: lenPart ∧ '/' ∉ addrPart ∧
    parseIpv4 addrPart = some ip ∧ parseUnsigned (2 ^ 32) lenPart = .ok prefixLen

/-- A CIDR that the server accepts. -/
theorem cidrText_of_parseCidr {cidr : String} {net : UInt32} {prefixLen : ℕ}
    (h : Server.parseCidr cidr = some (net, prefixLen)) :
    ∃ ip, CidrText cidr ip prefixLen ∧ prefixLen ≤ 32 ∧
      net = ip.bits &&& Server.netmask prefixLen := by
  unfold Server.parseCidr at h
  cases hdrop : cidr.toList.dropWhile (· ≠ '/') with
  | nil =>
      rw [hdrop] at h
      cases h
  | cons slash lenPart =>
      rw [hdrop] at h
      simp only at h
      cases haddr : parseIpv4 (cidr.toList.takeWhile (· ≠ '/')) with
      | none =>
          rw [haddr] at h
          cases h
      | some ip =>
          rw [haddr] at h
          simp only at h
          cases hlen : parseUnsigned (2 ^ 32) lenPart with
          | error e =>
              rw [hlen] at h
              cases h
          | ok len =>
              rw [hlen] at h
              simp only at h
              split_ifs at h with hle
              cases h
              have hslash : slash = '/' := by
                have hhead := List.head?_dropWhile_not (fun c => decide (c ≠ '/')) cidr.toList
                rw [hdrop] at hhead
                simpa using hhead
              subst hslash
              refine ⟨ip, ⟨_, lenPart, ?_, fun hmem => ?_, haddr, hlen⟩, not_lt.mp hle, rfl⟩
              · rw [← hdrop, List.takeWhile_append_dropWhile]
              · have hno := List.mem_takeWhile_imp hmem
                simp at hno

/-! ## Prefix lengths -/

theorem parseDigits_le {bound : ℕ} : ∀ {digits : List Char} {acc n : ℕ},
    parseDigits bound acc digits = .ok n → acc ≤ n := by
  intro digits
  induction digits with
  | nil =>
      intro acc n h
      cases h
      exact le_rfl
  | cons c rest ih =>
      intro acc n h
      unfold parseDigits at h
      cases hd : toDigit 10 c with
      | none =>
          rw [hd] at h
          cases h
      | some d =>
          rw [hd] at h
          simp only at h
          split_ifs at h
          have := ih h
          omega

/-- The number does not depend on the width of the target, as long as it fits. -/
theorem parseDigits_of_lt {bound bound' : ℕ} : ∀ {digits : List Char} {acc n : ℕ},
    parseDigits bound acc digits = .ok n → n < bound' → parseDigits bound' acc digits = .ok n := by
  intro digits
  induction digits with
  | nil => exact fun h _ => h
  | cons c rest ih =>
      intro acc n h hn
      unfold parseDigits at h ⊢
      cases hd : toDigit 10 c with
      | none =>
          rw [hd] at h
          cases h
      | some d =>
          rw [hd] at h
          simp only at h ⊢
          split_ifs at h
          rw [if_pos ((parseDigits_le h).trans_lt hn)]
          exact ih h hn

theorem parseUnsigned_of_lt {bound bound' : ℕ} {text : List Char} {n : ℕ}
    (h : parseUnsigned bound text = .ok n) (hn : n < bound') : parseUnsigned bound' text = .ok n := by
  unfold parseUnsigned at h ⊢
  split at h <;> first | cases h | exact parseDigits_of_lt h hn

theorem slash_notMem_parseDigits {bound : ℕ} : ∀ {digits : List Char} {acc n : ℕ},
    parseDigits bound acc digits = .ok n → '/' ∉ digits := by
  intro digits
  induction digits with
  | nil => simp
  | cons c rest ih =>
      intro acc n h hmem
      unfold parseDigits at h
      cases hd : toDigit 10 c with
      | none =>
          rw [hd] at h
          cases h
      | some d =>
          rw [hd] at h
          simp only at h
          split_ifs at h
          rcases List.mem_cons.mp hmem with rfl | hrest
          · have hno : toDigit 10 '/' = none := by decide
            rw [hno] at hd
            cases hd
          · exact ih h hrest

theorem slash_notMem_parseUnsigned {bound : ℕ} {text : List Char} {n : ℕ}
    (h : parseUnsigned bound text = .ok n) : '/' ∉ text := by
  unfold parseUnsigned at h
  split at h
  · cases h
  · cases h
  · intro hmem
    rcases List.mem_cons.mp hmem with hplus | hrest
    · revert hplus
      decide
    · exact slash_notMem_parseDigits h hrest
  · exact slash_notMem_parseDigits h

namespace CidrText

variable {cidr : String} {ip : Ipv4Addr} {prefixLen : ℕ}

/-- The allocator takes the address as it is written, and no networks without room for
hosts. -/
theorem allocator (h : CidrText cidr ip prefixLen) (hle : prefixLen ≤ 32) :
    Allocator.parseCidr cidr =
      if prefixLen ≤ 30 then .ok (ip.bits, UInt8.ofNat prefixLen)
      else .error ("prefix_len " ++ toString prefixLen ++ " too large for allocation") := by
  obtain ⟨addrPart, lenPart, htext, hslash, haddr, hlen⟩ := h
  have hsplit : cidr.toList.splitOn '/' = [addrPart, lenPart] := by
    rw [htext, List.splitOn_append_cons_self_of_not_mem hslash,
      List.splitOn_eq_singleton (slash_notMem_parseUnsigned hlen)]
  have hshort := parseUnsigned_of_lt hlen (show prefixLen < 256 by omega)
  simp only [Allocator.parseCidr, hsplit, haddr, hshort]

/-- The enforcer takes the address as it is written, and the mask. -/
theorem enforcer (h : CidrText cidr ip prefixLen) (hle : prefixLen ≤ 32) :
    EbpfEnforcer.parseCidr cidr = .ok (ip.bits, Server.netmask prefixLen) := by
  obtain ⟨addrPart, lenPart, htext, hslash, haddr, hlen⟩ := h
  have hall : ∀ c ∈ addrPart, decide (c ≠ '/') = true := by
    intro c hc
    exact decide_eq_true fun heq => hslash (heq ▸ hc)
  have htake : cidr.toList.takeWhile (· ≠ '/') = addrPart := by
    rw [htext, List.takeWhile_append_of_pos hall]
    simp
  have hdrop : cidr.toList.dropWhile (· ≠ '/') = '/' :: lenPart := by
    rw [htext, List.dropWhile_append_of_pos hall]
    simp
  simp only [EbpfEnforcer.parseCidr, hdrop, htake, haddr, hlen, if_neg (not_lt.mpr hle)]
  rfl

end CidrText

/-! ## Networks -/

section Networks

variable {p : ℕ}

theorem toNat_netmask (hp : p ≤ 32) : (Server.netmask p).toNat = 2 ^ 32 - 2 ^ (32 - p) := by
  have hall : ∀ p ≤ 32, (Server.netmask p).toNat = 2 ^ 32 - 2 ^ (32 - p) := by decide
  exact hall p hp

/-- The mask clears the host bits: it rounds down to a multiple of the network's size. -/
theorem toNat_and_netmask (x : UInt32) (hp : p ≤ 32) :
    (x &&& Server.netmask p).toNat = 2 ^ (32 - p) * (x.toNat / 2 ^ (32 - p)) := by
  rw [UInt32.toNat_and, toNat_netmask hp]
  have hx := x.toNat_lt
  have hk : 32 - p ≤ 32 := Nat.sub_le _ _
  generalize 32 - p = k at hk
  have hmask : 2 ^ 32 - 2 ^ k = (2 ^ (32 - k) - 1) <<< k := by
    rw [Nat.shiftLeft_eq, Nat.sub_mul, one_mul, ← pow_add, Nat.sub_add_cancel hk]
  rw [hmask]
  apply Nat.eq_of_testBit_eq
  intro i
  rw [Nat.testBit_and, Nat.testBit_shiftLeft, Nat.testBit_two_pow_sub_one, mul_comm,
    ← Nat.shiftRight_eq_div_pow, ← Nat.shiftLeft_eq, Nat.testBit_shiftLeft,
    Nat.testBit_shiftRight]
  by_cases hi : k ≤ i
  · by_cases h32 : i < 32
    · have hlow : i - k < 32 - k := by omega
      simp [hi, hlow]
    · have hhigh : x.toNat.testBit i = false :=
        Nat.testBit_lt_two_pow (lt_of_lt_of_le hx
          (Nat.pow_le_pow_right (by norm_num) (not_lt.mp h32)))
      simp [hi, hhigh]
  · simp [hi]

/-- The broadcast address is the last one of the network. -/
theorem toNat_broadcast (x : UInt32) (hp : p ≤ 32) :
    (x &&& Server.netmask p ||| ~~~Server.netmask p).toNat =
      2 ^ (32 - p) * (x.toNat / 2 ^ (32 - p)) + (2 ^ (32 - p) - 1) := by
  have hnot : ∀ p ≤ 32, (~~~Server.netmask p).toNat = 2 ^ (32 - p) - 1 := by decide
  rw [UInt32.toNat_or, toNat_and_netmask x hp, hnot p hp]
  exact (Nat.two_pow_add_eq_or_of_lt (Nat.sub_lt (Nat.two_pow_pos _) one_pos) _).symm

end Networks

end K3rs
