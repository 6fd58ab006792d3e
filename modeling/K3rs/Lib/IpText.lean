import K3rs.Lib.Bytes

/-!
# Internet addresses and their text

`Ipv4Addr` is a 32-bit number and `Ipv6Addr` sixteen octets.  The text side
follows the Rust standard library: `core::net`'s parser reads dotted quads
without leading zeros and IPv6 groups of one to four hex digits with at most one
`::` and an optional trailing dotted quad; its `Display` writes IPv6 addresses
with the first longest run of zero groups compressed.

Parsers read from the front of a character list and return what is left, so that
`core`'s "the whole input must be consumed" is a separate test.
-/

namespace Net

open Wire

/-! ## Addresses -/

/-- An IPv4 address, as the number `u32::from(addr)`. -/
structure Ipv4Addr where
  bits : UInt32
  deriving DecidableEq, Repr

namespace Ipv4Addr

/-- The four octets, in network order. -/
def octets (a : Ipv4Addr) : List UInt8 := u32ToBe a.bits

/-- `Ipv4Addr::new`. -/
def ofOctets (b₀ b₁ b₂ b₃ : UInt8) : Ipv4Addr := ⟨u32OfBe b₀ b₁ b₂ b₃⟩

end Ipv4Addr

/-- An IPv6 address: sixteen octets. -/
structure Ipv6Addr where
  octets : List UInt8
  length_octets : octets.length = 16
  deriving DecidableEq, Repr

namespace Ipv6Addr

@[ext] theorem ext {a b : Ipv6Addr} (h : a.octets = b.octets) : a = b := by
  cases a
  cases b
  cases h
  rfl

/-- Octet `i`. -/
def octet (a : Ipv6Addr) (i : ℕ) : UInt8 := a.octets.getD i 0

/-- The first sixteen bytes of a list, padded with zeros. -/
def ofBytes (bytes : List UInt8) : Ipv6Addr :=
  ⟨(bytes ++ List.replicate 16 0).take 16, by simp⟩

/-- An address is its sixteen octets, written out. -/
theorem octets_eq (a : Ipv6Addr) :
    a.octets = [a.octet 0, a.octet 1, a.octet 2, a.octet 3, a.octet 4, a.octet 5, a.octet 6,
      a.octet 7, a.octet 8, a.octet 9, a.octet 10, a.octet 11, a.octet 12, a.octet 13,
      a.octet 14, a.octet 15] := by
  apply List.ext_getElem
  · simp [a.length_octets]
  · intro i h₁ h₂
    have hi : i < 16 := by simpa [a.length_octets] using h₁
    interval_cases i <;> simp [octet, List.getD_eq_getElem?_getD, a.length_octets]

/-- The eight 16-bit groups. -/
def segments (a : Ipv6Addr) : List UInt16 :=
  (List.range 8).map fun i => u16OfBe (a.octet (2 * i)) (a.octet (2 * i + 1))

/-- The address with the given groups. -/
def ofSegments (groups : List UInt16) : Ipv6Addr := ofBytes (groups.flatMap u16ToBe)

end Ipv6Addr

/-! ## Numbers -/

/-- `char::to_digit`. -/
def toDigit (radix : ℕ) (c : Char) : Option ℕ :=
  let value :=
    if '0' ≤ c ∧ c ≤ '9' then some (c.toNat - '0'.toNat)
    else if 'a' ≤ c ∧ c ≤ 'z' then some (c.toNat - 'a'.toNat + 10)
    else if 'A' ≤ c ∧ c ≤ 'Z' then some (c.toNat - 'A'.toNat + 10)
    else none
  value.filter (· < radix)

/-- The number a digit string spells. -/
def digitsValue (radix : ℕ) (digits : List Char) : ℕ :=
  digits.foldl (fun acc c => acc * radix + (toDigit radix c).getD 0) 0

/-- `Parser::read_number` with a digit limit: all leading digits, at least one and
at most `maxDigits`, a zero first only alone unless `allowZeroPrefix`, and a value
that fits the target. -/
def readNumber (radix maxDigits bound : ℕ) (allowZeroPrefix : Bool) (input : List Char) :
    Option (ℕ × List Char) :=
  let digits := input.takeWhile fun c => (toDigit radix c).isSome
  let rest := input.dropWhile fun c => (toDigit radix c).isSome
  if digits.length > maxDigits then none
  else if digits.length = 0 then none
  else if !allowZeroPrefix && digits.head? = some '0' && digits.length > 1 then none
  else if digitsValue radix digits < bound then some (digitsValue radix digits, rest)
  else none

/-- `Parser::read_given_char`. -/
def readGivenChar (c : Char) : List Char → Option (List Char)
  | d :: rest => if d = c then some rest else none
  | [] => none

/-- The digit loop of `from_str_radix` for numbers below `bound`: it stops at the first
digit that is none or that leaves the range. -/
def parseDigits (bound : ℕ) : (acc : ℕ) → List Char → Except String ℕ
  | acc, [] => .ok acc
  | acc, c :: rest =>
      match toDigit 10 c with
      | none => .error "invalid digit found in string"
      | some d =>
          if acc * 10 + d < bound then parseDigits bound (acc * 10 + d) rest
          else .error "number too large to fit in target type"

/-- `str::parse` for an unsigned integer below `bound`. -/
def parseUnsigned (bound : ℕ) : List Char → Except String ℕ
  | [] => .error "cannot parse integer from empty string"
  | ['+'] => .error "invalid digit found in string"
  | '+' :: rest => parseDigits bound 0 rest
  | input => parseDigits bound 0 input

/-! ## IPv4 text -/

/-- `Parser::read_ipv4_addr`. -/
def readIpv4Addr (input : List Char) : Option (Ipv4Addr × List Char) := do
  let (b₀, input) ← readNumber 10 3 256 false input
  let input ← readGivenChar '.' input
  let (b₁, input) ← readNumber 10 3 256 false input
  let input ← readGivenChar '.' input
  let (b₂, input) ← readNumber 10 3 256 false input
  let input ← readGivenChar '.' input
  let (b₃, input) ← readNumber 10 3 256 false input
  return (.ofOctets (.ofNat b₀) (.ofNat b₁) (.ofNat b₂) (.ofNat b₃), input)

/-- `Ipv4Addr::from_str`: at most fifteen bytes, all of them read. -/
def parseIpv4 (input : List Char) : Option Ipv4Addr :=
  if (String.ofList input).utf8ByteSize > 15 then none
  else match readIpv4Addr input with
    | some (addr, []) => some addr
    | _ => none

/-- `Display for Ipv4Addr`. -/
def ipv4ToString (a : Ipv4Addr) : String :=
  ".".intercalate (a.octets.map fun b => toString b.toNat)

/-! ## IPv6 text -/

/-- `read_groups`: up to `limit` groups, the last two possibly as a dotted quad.
Returns the groups, whether a dotted quad ended them, and the rest. -/
def readGroups : (limit : ℕ) → (first : Bool) → List Char → List UInt16 × Bool × List Char
  | 0, _, input => ([], false, input)
  | limit + 1, first, input =>
      let sep := if first then some input else readGivenChar ':' input
      let quad := if limit = 0 then none else sep.bind readIpv4Addr
      match quad with
      | some (v4, rest) =>
          ([u16OfBe (u32Byte v4.bits 0) (u32Byte v4.bits 1),
            u16OfBe (u32Byte v4.bits 2) (u32Byte v4.bits 3)], true, rest)
      | none =>
          match sep.bind (readNumber 16 4 65536 true) with
          | some (group, rest) =>
              let (groups, v4, rest) := readGroups limit false rest
              (UInt16.ofNat group :: groups, v4, rest)
          | none => ([], false, input)

/-- What is read when there is room for a group. -/
theorem readGroups_succ (limit : ℕ) (first : Bool) (input : List Char) :
    readGroups (limit + 1) first input =
      let sep := if first then some input else readGivenChar ':' input
      match if limit = 0 then none else sep.bind readIpv4Addr with
      | some (v4, rest) =>
          ([u16OfBe (u32Byte v4.bits 0) (u32Byte v4.bits 1),
            u16OfBe (u32Byte v4.bits 2) (u32Byte v4.bits 3)], true, rest)
      | none =>
          match sep.bind (readNumber 16 4 65536 true) with
          | some (group, rest) =>
              let (groups, v4, rest) := readGroups limit false rest
              (UInt16.ofNat group :: groups, v4, rest)
          | none => ([], false, input) :=
  rfl

/-- `Parser::read_ipv6_addr`: eight groups, or a head, `::` and a tail. -/
def readIpv6Addr (input : List Char) : Option (Ipv6Addr × List Char) :=
  match readGroups 8 true input with
  | (head, headIpv4, rest) =>
      if head.length = 8 then some (.ofSegments head, rest)
      else if headIpv4 then none
      else do
        let rest ← readGivenChar ':' rest
        let rest ← readGivenChar ':' rest
        match readGroups (8 - (head.length + 1)) true rest with
        | (tail, _, rest) =>
            return (.ofSegments
              (head ++ List.replicate (8 - head.length - tail.length) 0 ++ tail), rest)

/-- `Ipv6Addr::from_str`. -/
def parseIpv6 (input : List Char) : Option Ipv6Addr :=
  match readIpv6Addr input with
  | some (addr, []) => some addr
  | _ => none

/-- A group in lower-case hex without leading zeros, as `{:x}` writes it. -/
def hexGroup (g : UInt16) : String := String.ofList (Nat.toDigits 16 g.toNat)

/-- The first longest run of zero groups, as `(start, length)`.  The recursion
carries the index, the current run and the longest one. -/
def longestZeroRun : List UInt16 → (index : ℕ) → (current longest : ℕ × ℕ) → ℕ × ℕ
  | [], _, _, longest => longest
  | g :: rest, i, current, longest =>
      if g = 0 then
        let current := (if current.2 = 0 then i else current.1, current.2 + 1)
        longestZeroRun rest (i + 1) current
          (if longest.2 < current.2 then current else longest)
      else longestZeroRun rest (i + 1) (0, 0) longest

/-- `Display for Ipv6Addr`. -/
def ipv6ToString (a : Ipv6Addr) : String :=
  let segments := a.segments
  let fmt := fun chunk : List UInt16 => ":".intercalate (chunk.map hexGroup)
  if segments.take 6 = [0, 0, 0, 0, 0, 0xffff] then
    "::ffff:" ++ ipv4ToString (.ofOctets (a.octet 12) (a.octet 13) (a.octet 14) (a.octet 15))
  else
    let (start, len) := longestZeroRun segments 0 (0, 0) (0, 0)
    if len > 1 then fmt (segments.take start) ++ "::" ++ fmt (segments.drop (start + len))
    else fmt segments

example : (parseIpv6 "fd00:1:1000:0:1:5:a00:10a".toList).map ipv6ToString =
    some "fd00:1:1000:0:1:5:a00:10a" := by decide +kernel

example : (parseIpv6 "64:ff9b::1.2.3.4".toList).map ipv6ToString =
    some "64:ff9b::102:304" := by decide +kernel

example : parseIpv4 "10.0.01.0".toList = none := by decide +kernel

end Net
