import K3rs.Lib.IpText

/-!
# Address texts are read back

What `Display` writes for an address, `from_str` reads as the same address.

* `readNumber_toDigits`: a number in its digits, up to the first character that is none.
* `parseIpv4_ipv4ToString`: four of them between dots.
* `parseIpv6_ipv6ToString`: eight groups, or those around the zeros that were left out, or a
  dotted quad behind `::ffff:`.
-/

namespace Net

open Wire

/-! ## Numbers -/

theorem toDigit_digitChar {radix d : ℕ} (hradix : radix ≤ 16) (hd : d < radix) :
    toDigit radix d.digitChar = some d := by
  have hvalue : ∀ d < 16, toDigit 16 d.digitChar = some d := by decide
  have hfilter : ∀ c, toDigit radix c = (toDigit 16 c).filter (· < radix) := by
    intro c
    simp only [toDigit, Option.filter_filter]
    congr 1
    funext x
    by_cases hx : x < radix
    · simp [hx, hx.trans_le hradix]
    · simp [hx]
  rw [hfilter, hvalue d (hd.trans_le hradix)]
  simp [Option.filter, hd]

theorem digitsValue_append (radix : ℕ) (digits : List Char) (c : Char) :
    digitsValue radix (digits ++ [c]) =
      digitsValue radix digits * radix + (toDigit radix c).getD 0 := by
  simp [digitsValue]

theorem toDigits_spec {radix : ℕ} (h1 : 1 < radix) (h16 : radix ≤ 16) (n : ℕ) :
    (∀ c ∈ Nat.toDigits radix n, (toDigit radix c).isSome) ∧
      digitsValue radix (Nat.toDigits radix n) = n := by
  induction n using Nat.strong_induction_on with
  | _ n ih =>
      by_cases hlt : n < radix
      · rw [Nat.toDigits_of_lt_base hlt]
        simp [digitsValue, toDigit_digitChar h16 hlt]
      · have hmod : n % radix < radix := Nat.mod_lt n (by omega)
        obtain ⟨hdigits, hvalue⟩ := ih (n / radix) (Nat.div_lt_self (by omega) h1)
        rw [Nat.toDigits_of_base_le h1 (not_lt.mp hlt)]
        refine ⟨fun c hc => ?_, ?_⟩
        · rcases List.mem_append.mp hc with hc | hc
          · exact hdigits c hc
          · rw [List.mem_singleton.mp hc, toDigit_digitChar h16 hmod]
            rfl
        · rw [digitsValue_append, hvalue, toDigit_digitChar h16 hmod, Option.getD_some,
            Nat.div_add_mod']

/-- The leading digits of a text that begins with a number are those of the number. -/
theorem takeWhile_toDigits {radix n : ℕ} {rest : List Char} (h1 : 1 < radix) (h16 : radix ≤ 16)
    (hrest : ∀ c ∈ rest.head?, toDigit radix c = none) :
    (Nat.toDigits radix n ++ rest).takeWhile (fun c => (toDigit radix c).isSome) =
        Nat.toDigits radix n ∧
      (Nat.toDigits radix n ++ rest).dropWhile (fun c => (toDigit radix c).isSome) = rest := by
  obtain ⟨hdigits, -⟩ := toDigits_spec h1 h16 n
  rw [List.takeWhile_append_of_pos hdigits, List.dropWhile_append_of_pos hdigits]
  cases rest with
  | nil => simp
  | cons c rest => simp [hrest c rfl]

/-- **A number is read back**, up to the first character that is no digit. -/
theorem readNumber_toDigits {radix maxDigits bound n : ℕ} {allowZeroPrefix : Bool}
    {rest : List Char} (h1 : 1 < radix) (h16 : radix ≤ 16) (hmax : 0 < maxDigits)
    (hlen : n < radix ^ maxDigits) (hbound : n < bound)
    (hzero : allowZeroPrefix = false →
      ¬ ((Nat.toDigits radix n).head? = some '0' ∧ (Nat.toDigits radix n).length > 1))
    (hrest : ∀ c ∈ rest.head?, toDigit radix c = none) :
    readNumber radix maxDigits bound allowZeroPrefix (Nat.toDigits radix n ++ rest) =
      some (n, rest) := by
  obtain ⟨htake, hleft⟩ := takeWhile_toDigits (n := n) h1 h16 hrest
  have hle : (Nat.toDigits radix n).length ≤ maxDigits :=
    (Nat.length_toDigits_le_iff h1 hmax).mpr hlen
  have hpos : (Nat.toDigits radix n).length ≠ 0 := Nat.length_toDigits_pos.ne'
  have hlead : ¬ (!allowZeroPrefix && (Nat.toDigits radix n).head? = some '0' &&
      (Nat.toDigits radix n).length > 1) = true := by
    cases allowZeroPrefix with
    | true => simp
    | false => simpa using hzero rfl
  simp only [readNumber, htake, hleft, (toDigits_spec h1 h16 n).2]
  rw [if_neg (not_lt.mpr hle), if_neg hpos, if_neg hlead, if_pos hbound]

/-- A number that does not fit is not read. -/
theorem readNumber_toDigits_eq_none {radix maxDigits bound n : ℕ} {allowZeroPrefix : Bool}
    {rest : List Char} (h1 : 1 < radix) (h16 : radix ≤ 16) (hbound : bound ≤ n)
    (hrest : ∀ c ∈ rest.head?, toDigit radix c = none) :
    readNumber radix maxDigits bound allowZeroPrefix (Nat.toDigits radix n ++ rest) = none := by
  obtain ⟨htake, hleft⟩ := takeWhile_toDigits (n := n) h1 h16 hrest
  simp only [readNumber, htake, hleft, (toDigits_spec h1 h16 n).2, if_neg hbound.not_gt, ite_self]

/-! ## IPv4 -/

theorem toList_ipv4ToString (a : Ipv4Addr) :
    (ipv4ToString a).toList =
      Nat.toDigits 10 (u32Byte a.bits 0).toNat ++ '.' ::
        (Nat.toDigits 10 (u32Byte a.bits 1).toNat ++ '.' ::
          (Nat.toDigits 10 (u32Byte a.bits 2).toNat ++ '.' ::
            Nat.toDigits 10 (u32Byte a.bits 3).toNat)) := by
  simp [ipv4ToString, Ipv4Addr.octets, u32ToBe, String.intercalate_cons_cons]

/-- No leading zero, and at most three bytes. -/
theorem toDigits_byte (b : UInt8) :
    ¬ ((Nat.toDigits 10 b.toNat).head? = some '0' ∧ (Nat.toDigits 10 b.toNat).length > 1) ∧
      (toString b.toNat).utf8ByteSize ≤ 3 := by
  have hall : ∀ n < 256, ¬ ((Nat.toDigits 10 n).head? = some '0' ∧
      (Nat.toDigits 10 n).length > 1) ∧ (toString n).utf8ByteSize ≤ 3 := by
    decide +kernel
  exact hall b.toNat b.toNat_lt

theorem readNumber_byte (b : UInt8) (rest : List Char)
    (hrest : ∀ c ∈ rest.head?, toDigit 10 c = none) :
    readNumber 10 3 256 false (Nat.toDigits 10 b.toNat ++ rest) = some (b.toNat, rest) :=
  readNumber_toDigits (by norm_num) (by norm_num) (by norm_num)
    (lt_trans b.toNat_lt (by norm_num)) b.toNat_lt (fun _ => (toDigits_byte b).1) hrest

theorem readNumber_byte_dot (b : UInt8) (rest : List Char) :
    readNumber 10 3 256 false (Nat.toDigits 10 b.toNat ++ '.' :: rest) =
      some (b.toNat, '.' :: rest) := by
  refine readNumber_byte b _ ?_
  rintro c ⟨⟩
  decide

/-- A dotted quad is read back, up to the first character that is no digit. -/
theorem readIpv4Addr_ipv4ToString (a : Ipv4Addr) :
    readIpv4Addr (ipv4ToString a).toList = some (a, []) := by
  have hlast := readNumber_byte (u32Byte a.bits 3) [] (by simp)
  rw [List.append_nil] at hlast
  rw [toList_ipv4ToString]
  simp only [readIpv4Addr, readNumber_byte_dot, hlast, readGivenChar, Option.bind_eq_bind,
    Option.bind_some, if_true, UInt8.ofNat_toNat]
  show some (Ipv4Addr.mk (u32OfBe _ _ _ _), _) = _
  rw [u32OfBe_bytes]

theorem utf8ByteSize_ipv4ToString (a : Ipv4Addr) : (ipv4ToString a).utf8ByteSize ≤ 15 := by
  have h₀ := (toDigits_byte (u32Byte a.bits 0)).2
  have h₁ := (toDigits_byte (u32Byte a.bits 1)).2
  have h₂ := (toDigits_byte (u32Byte a.bits 2)).2
  have h₃ := (toDigits_byte (u32Byte a.bits 3)).2
  have hdot : ".".utf8ByteSize = 1 := by decide
  simp only [ipv4ToString, Ipv4Addr.octets, u32ToBe, List.map_cons, List.map_nil,
    String.intercalate_cons_cons, String.intercalate_singleton, String.utf8ByteSize_append, hdot]
  omega

/-- **IPv4 texts are read back.** -/
theorem parseIpv4_ipv4ToString (a : Ipv4Addr) : parseIpv4 (ipv4ToString a).toList = some a := by
  unfold parseIpv4
  rw [String.ofList_toList, if_neg (not_lt.mpr (utf8ByteSize_ipv4ToString a)),
    readIpv4Addr_ipv4ToString]

theorem ipv4ToString_injective : Function.Injective ipv4ToString := by
  intro a b h
  have hparsed := parseIpv4_ipv4ToString a
  rw [h, parseIpv4_ipv4ToString] at hparsed
  exact (Option.some_inj.mp hparsed).symm

/-! ## Groups -/

/-- Groups with a colon in front of each. -/
def sepGroups (groups : List UInt16) : List Char :=
  groups.flatMap fun g => ':' :: Nat.toDigits 16 g.toNat

/-- Groups with a colon between any two. -/
def groupsText : List UInt16 → List Char
  | [] => []
  | g :: rest => Nat.toDigits 16 g.toNat ++ sepGroups rest

theorem toList_intercalate_hexGroup (groups : List UInt16) :
    (":".intercalate (groups.map hexGroup)).toList = groupsText groups := by
  induction groups with
  | nil => rfl
  | cons g rest ih =>
      cases rest with
      | nil => simp [groupsText, sepGroups, hexGroup]
      | cons g' rest =>
          rw [List.map_cons, List.map_cons, String.intercalate_cons_cons, ← List.map_cons,
            String.toList_append, String.toList_append, ih]
          simp [groupsText, sepGroups, hexGroup]

theorem dot_notMem_toDigits (n : ℕ) : '.' ∉ Nat.toDigits 16 n := by
  intro h
  have := (toDigits_spec (by norm_num) le_rfl n).1 '.' h
  revert this
  decide

theorem dot_notMem_sepGroups (groups : List UInt16) : '.' ∉ sepGroups groups := by
  intro h
  obtain ⟨g, -, hg⟩ := List.mem_flatMap.mp h
  rcases List.mem_cons.mp hg with hcolon | hdigit
  · revert hcolon
    decide
  · exact dot_notMem_toDigits _ hdigit

/-- Without a dot there is no dotted quad. -/
theorem readIpv4Addr_eq_none {input : List Char} (h : '.' ∉ input) : readIpv4Addr input = none := by
  cases hread : readNumber 10 3 256 false input with
  | none => simp [readIpv4Addr, hread]
  | some result =>
      obtain ⟨b, rest⟩ := result
      have hrest : rest = input.dropWhile fun c => (toDigit 10 c).isSome := by
        simp only [readNumber] at hread
        split_ifs at hread
        cases hread
        rfl
      have hdot : readGivenChar '.' rest = none := by
        cases hcases : rest with
        | nil => rfl
        | cons c rest' =>
            have hmem : c ∈ input := by
              refine (List.dropWhile_sublist fun c => (toDigit 10 c).isSome).subset ?_
              rw [← hrest, hcases]
              exact List.mem_cons_self
            have hne : c ≠ '.' := fun hc => h (hc ▸ hmem)
            simp [readGivenChar, hne]
      simp [readIpv4Addr, hread, hdot]

theorem readNumber_group (g : UInt16) (rest : List Char)
    (hrest : ∀ c ∈ rest.head?, toDigit 16 c = none) :
    readNumber 16 4 65536 true (Nat.toDigits 16 g.toNat ++ rest) = some (g.toNat, rest) :=
  readNumber_toDigits (by norm_num) le_rfl (by norm_num) (lt_of_lt_of_eq g.toNat_lt (by norm_num))
    g.toNat_lt nofun hrest

/-- What may follow a list of groups: nothing, or the place of the zeros left out. -/
def EndsGroups (rest : List Char) : Prop := rest = [] ∨ ∃ tail, rest = ':' :: ':' :: tail

theorem EndsGroups.readNumber_eq_none {rest : List Char} (h : EndsGroups rest) :
    readNumber 16 4 65536 true rest = none := by
  rcases h with rfl | ⟨tail, rfl⟩
  · rfl
  · have hcolon : toDigit 16 ':' = none := by decide
    simp [readNumber, hcolon]

theorem EndsGroups.head_sepGroups {rest : List Char} (h : EndsGroups rest)
    (groups : List UInt16) : ∀ c ∈ (sepGroups groups ++ rest).head?, toDigit 16 c = none := by
  intro c hc
  have hcolon : c = ':' := by
    cases groups with
    | cons g gs =>
        cases hc
        rfl
    | nil =>
        rcases h with rfl | ⟨tail, rfl⟩
        · cases hc
        · cases hc
          rfl
  rw [hcolon]
  decide

section Step

variable {limit : ℕ} {first : Bool} {input text rest : List Char}

/-- A group that is no dotted quad. -/
theorem readGroups_group {g : UInt16} {groups : List UInt16} {quad : Bool} {left : List Char}
    (hsep : (if first then some input else readGivenChar ':' input) = some text)
    (hquad : readIpv4Addr text = none)
    (hnumber : readNumber 16 4 65536 true text = some (g.toNat, rest))
    (htail : readGroups limit false rest = (groups, quad, left)) :
    readGroups (limit + 1) first input = (g :: groups, quad, left) := by
  simp only [readGroups_succ, hsep, Option.bind_some, hquad, hnumber, htail, ite_self,
    UInt16.ofNat_toNat]

/-- A dotted quad as the last two groups. -/
theorem readGroups_quad {v4 : Ipv4Addr} (hlimit : limit ≠ 0)
    (hsep : (if first then some input else readGivenChar ':' input) = some text)
    (hquad : readIpv4Addr text = some (v4, rest)) :
    readGroups (limit + 1) first input =
      ([u16OfBe (u32Byte v4.bits 0) (u32Byte v4.bits 1),
        u16OfBe (u32Byte v4.bits 2) (u32Byte v4.bits 3)], true, rest) := by
  simp only [readGroups_succ, hsep, Option.bind_some, hquad, if_neg hlimit]

/-- The end of the groups. -/
theorem readGroups_end
    (hsep : (if first then some input else readGivenChar ':' input) = some text)
    (hquad : readIpv4Addr text = none) (hnumber : readNumber 16 4 65536 true text = none) :
    readGroups (limit + 1) first input = ([], false, input) := by
  simp only [readGroups_succ, hsep, Option.bind_some, hquad, hnumber, ite_self]

end Step

/-- Groups behind colons are read back. -/
theorem readGroups_sepGroups {rest : List Char} (hdot : '.' ∉ rest) (hend : EndsGroups rest) :
    ∀ (groups : List UInt16) {limit : ℕ}, groups.length ≤ limit →
      readGroups limit false (sepGroups groups ++ rest) = (groups, false, rest) := by
  intro groups
  induction groups with
  | nil =>
      intro limit _
      cases limit with
      | zero => rfl
      | succ limit =>
          rcases hend with rfl | ⟨tail, rfl⟩
          · simp [readGroups_succ, sepGroups, readGivenChar]
          · have hquad : readIpv4Addr (':' :: tail) = none :=
              readIpv4Addr_eq_none fun h => hdot (List.mem_cons_of_mem _ h)
            have hcolon : toDigit 16 ':' = none := by decide
            exact readGroups_end rfl hquad (by simp [readNumber, hcolon])
  | cons g gs ih =>
      intro limit hlen
      obtain ⟨limit, rfl⟩ := Nat.exists_eq_add_of_le' (Nat.one_le_of_lt hlen)
      have hnodot : '.' ∉ Nat.toDigits 16 g.toNat ++ (sepGroups gs ++ rest) := by
        simp only [List.mem_append, not_or]
        exact ⟨dot_notMem_toDigits _, dot_notMem_sepGroups gs, hdot⟩
      have hquad := readIpv4Addr_eq_none hnodot
      have hnumber := readNumber_group g _ (hend.head_sepGroups gs)
      have htail := ih (Nat.succ_le_succ_iff.mp hlen)
      have htext : sepGroups (g :: gs) ++ rest =
          ':' :: (Nat.toDigits 16 g.toNat ++ (sepGroups gs ++ rest)) := by
        simp [sepGroups]
      rw [htext]
      exact readGroups_group rfl hquad hnumber htail

/-- **Groups are read back.** -/
theorem readGroups_groupsText {rest : List Char} (hdot : '.' ∉ rest) (hend : EndsGroups rest)
    {groups : List UInt16} {limit : ℕ} (hlen : groups.length ≤ limit) :
    readGroups limit true (groupsText groups ++ rest) = (groups, false, rest) := by
  cases groups with
  | nil =>
      cases limit with
      | zero => rfl
      | succ limit =>
          exact readGroups_end rfl (readIpv4Addr_eq_none hdot) hend.readNumber_eq_none
  | cons g gs =>
      obtain ⟨limit, rfl⟩ := Nat.exists_eq_add_of_le' (Nat.one_le_of_lt hlen)
      have hnodot : '.' ∉ Nat.toDigits 16 g.toNat ++ (sepGroups gs ++ rest) := by
        simp only [List.mem_append, not_or]
        exact ⟨dot_notMem_toDigits _, dot_notMem_sepGroups gs, hdot⟩
      have hquad := readIpv4Addr_eq_none hnodot
      have hnumber := readNumber_group g _ (hend.head_sepGroups gs)
      have htail := readGroups_sepGroups hdot hend gs (Nat.succ_le_succ_iff.mp hlen)
      rw [groupsText, List.append_assoc]
      exact readGroups_group rfl hquad hnumber htail

/-! ## IPv6 -/

/-- A run of zero groups, given by its start and its length, that ends at or before `upto`. -/
def IsZeroRun (groups : List UInt16) (upto : ℕ) (zeros : ℕ × ℕ) : Prop :=
  zeros.1 + zeros.2 ≤ upto ∧ ∀ j, zeros.1 ≤ j → j < zeros.1 + zeros.2 → groups[j]? = some 0

/-- What the search returns is a run of zeros. -/
theorem longestZeroRun_spec {groups : List UInt16} :
    ∀ {rest done : List UInt16} {current longest : ℕ × ℕ}, groups = done ++ rest →
      IsZeroRun groups done.length current → (current.2 ≠ 0 → current.1 + current.2 = done.length) →
      IsZeroRun groups done.length longest →
      IsZeroRun groups groups.length (longestZeroRun rest done.length current longest) := by
  intro rest
  induction rest with
  | nil =>
      intro done current longest hgroups _ _ hlongest
      rw [hgroups, List.append_nil] at hlongest ⊢
      exact hlongest
  | cons g rest ih =>
      intro done current longest hgroups hcurrent hadjacent hlongest
      have hnext : groups = (done ++ [g]) ++ rest := by rw [hgroups]; simp
      have hlen : (done ++ [g]).length = done.length + 1 := by simp
      have hmono : IsZeroRun groups (done ++ [g]).length longest :=
        ⟨hlongest.1.trans (by omega), hlongest.2⟩
      unfold longestZeroRun
      rw [← hlen]
      by_cases hg : g = 0
      · -- the current run grows by this group
        rw [if_pos hg]
        have hhere : groups[done.length]? = some 0 := by
          rw [hgroups, List.getElem?_append_right le_rfl, Nat.sub_self, ← hg]
          rfl
        have hgrown : (if current.2 = 0 then done.length else current.1) + (current.2 + 1) =
            done.length + 1 := by
          split_ifs with hzero
          · omega
          · have := hadjacent hzero
            omega
        have hrun : IsZeroRun groups (done ++ [g]).length
            (if current.2 = 0 then done.length else current.1, current.2 + 1) := by
          refine ⟨(hgrown.trans hlen.symm).le, fun j hlo hhi => ?_⟩
          rw [hgrown] at hhi
          rcases Nat.lt_succ_iff_lt_or_eq.mp hhi with hj | rfl
          · split_ifs at hlo with hzero
            · exact absurd (Nat.lt_of_lt_of_le hj hlo) (lt_irrefl _)
            · exact hcurrent.2 j hlo (by rw [hadjacent hzero]; exact hj)
          · exact hhere
        refine ih hnext hrun (fun _ => hgrown.trans hlen.symm) ?_
        by_cases hless : longest.2 < current.2 + 1
        · rw [if_pos hless]
          exact hrun
        · rw [if_neg hless]
          exact hmono
      · -- it ends here
        rw [if_neg hg]
        refine ih hnext ⟨Nat.zero_le _, ?_⟩ (fun h => absurd rfl h) hmono
        intro j _ hj
        exact absurd hj (Nat.not_lt_zero j)

/-- The groups with a run of zeros written out. -/
theorem IsZeroRun.split {groups : List UInt16} {zeros : ℕ × ℕ}
    (h : IsZeroRun groups groups.length zeros) :
    groups.take zeros.1 ++ List.replicate zeros.2 0 ++ groups.drop (zeros.1 + zeros.2) = groups := by
  obtain ⟨hle, hzero⟩ := h
  apply List.ext_getElem?
  intro j
  have hlen : (groups.take zeros.1 ++ List.replicate zeros.2 0).length = zeros.1 + zeros.2 := by
    rw [List.length_append, List.length_take, List.length_replicate, min_eq_left (by omega)]
  rcases Nat.lt_or_ge j (zeros.1 + zeros.2) with hj | hj
  · rw [List.getElem?_append_left (by omega)]
    rcases Nat.lt_or_ge j zeros.1 with hlo | hlo
    · rw [List.getElem?_append_left (by rw [List.length_take]; omega), List.getElem?_take_of_lt hlo]
    · rw [hzero j hlo hj, List.getElem?_append_right (by rw [List.length_take]; omega),
        List.length_take, min_eq_left (by omega), List.getElem?_replicate, if_pos (by omega)]
  · rw [List.getElem?_append_right (by omega), hlen, List.getElem?_drop]
    congr 1
    omega

theorem length_segments (a : Ipv6Addr) : a.segments.length = 8 := by
  simp [Ipv6Addr.segments]

theorem ofSegments_segments (a : Ipv6Addr) : Ipv6Addr.ofSegments a.segments = a := by
  apply Ipv6Addr.ext
  rw [a.octets_eq]
  simp [Ipv6Addr.ofSegments, Ipv6Addr.ofBytes, Ipv6Addr.segments, List.range_succ, u16ToBe_ofBe]

/-- The eight groups in full. -/
theorem readIpv6Addr_full (a : Ipv6Addr) :
    readIpv6Addr (groupsText a.segments) = some (a, []) := by
  have hread := readGroups_groupsText (by simp) (Or.inl rfl) (length_segments a).le
  rw [List.append_nil] at hread
  simp [readIpv6Addr, hread, length_segments, ofSegments_segments]

/-- The groups before and behind the zeros that were left out. -/
theorem readIpv6Addr_compressed (a : Ipv6Addr) {zeros : ℕ × ℕ}
    (hrun : IsZeroRun a.segments 8 zeros) (hlen : zeros.2 > 1) :
    readIpv6Addr (groupsText (a.segments.take zeros.1) ++ ':' :: ':' ::
      groupsText (a.segments.drop (zeros.1 + zeros.2))) = some (a, []) := by
  have hlength := length_segments a
  have hle := hrun.1
  have hnodot : ∀ groups, '.' ∉ groupsText groups := by
    intro groups
    cases groups with
    | nil => simp [groupsText]
    | cons g gs =>
        simp only [groupsText, List.mem_append, not_or]
        exact ⟨dot_notMem_toDigits _, dot_notMem_sepGroups gs⟩
  have htake : (a.segments.take zeros.1).length = zeros.1 := by
    rw [List.length_take, hlength]
    omega
  have hdrop : (a.segments.drop (zeros.1 + zeros.2)).length = 8 - (zeros.1 + zeros.2) := by
    rw [List.length_drop, hlength]
  have hhead : readGroups 8 true (groupsText (a.segments.take zeros.1) ++ ':' :: ':' ::
      groupsText (a.segments.drop (zeros.1 + zeros.2))) =
      (a.segments.take zeros.1, false, ':' :: ':' ::
        groupsText (a.segments.drop (zeros.1 + zeros.2))) := by
    refine readGroups_groupsText ?_ (Or.inr ⟨_, rfl⟩) (by omega)
    simpa using hnodot _
  have htail := readGroups_groupsText (by simp) (Or.inl rfl)
    (show (a.segments.drop (zeros.1 + zeros.2)).length ≤ 8 - (zeros.1 + 1) by omega)
  rw [List.append_nil] at htail
  -- as many zeros are filled in as were left out
  have hzeros : 8 - zeros.1 - (8 - (zeros.1 + zeros.2)) = zeros.2 := by omega
  have hsplit := (hlength ▸ hrun).split
  have hshort : ¬ zeros.1 = 8 := by omega
  simp only [readIpv6Addr, hhead, htake, hshort, if_false, Bool.false_eq_true, readGivenChar,
    if_true, Option.bind_eq_bind, Option.bind_some, htail, hdrop, hzeros, hsplit,
    ofSegments_segments]
  rfl

/-- An IPv4 address mapped into IPv6. -/
theorem readIpv6Addr_mapped (a : Ipv6Addr)
    (hmapped : a.segments.take 6 = [0, 0, 0, 0, 0, 0xffff]) :
    readIpv6Addr ("::ffff:".toList ++ (ipv4ToString
      (.ofOctets (a.octet 12) (a.octet 13) (a.octet 14) (a.octet 15))).toList) = some (a, []) := by
  have hquad := readIpv4Addr_ipv4ToString
    (.ofOctets (a.octet 12) (a.octet 13) (a.octet 14) (a.octet 15))
  -- of the dotted part only matters that it is read as the last two groups
  generalize (ipv4ToString
    (.ofOctets (a.octet 12) (a.octet 13) (a.octet 14) (a.octet 15))).toList = text at hquad ⊢
  have hstart : ∀ c rest, toDigit 10 c = none → readIpv4Addr (c :: rest) = none := by
    intro c rest hc
    simp [readIpv4Addr, readNumber, hc]
  have hhead : readGroups 8 true (':' :: ':' :: 'f' :: 'f' :: 'f' :: 'f' :: ':' :: text) =
      ([], false, ':' :: ':' :: 'f' :: 'f' :: 'f' :: 'f' :: ':' :: text) :=
    readGroups_end rfl (hstart ':' _ (by decide))
      (EndsGroups.readNumber_eq_none (Or.inr ⟨_, rfl⟩))
  have hffff : readNumber 16 4 65536 true ('f' :: 'f' :: 'f' :: 'f' :: ':' :: text) =
      some ((0xffff : UInt16).toNat, ':' :: text) := by
    have hdigits : Nat.toDigits 16 (0xffff : UInt16).toNat = ['f', 'f', 'f', 'f'] := by
      decide
    have hread := readNumber_group 0xffff (':' :: text) (by rintro c ⟨⟩; decide)
    rw [hdigits] at hread
    exact hread
  have hlast : readGroups 6 false (':' :: text) =
      ([u16OfBe (a.octet 12) (a.octet 13), u16OfBe (a.octet 14) (a.octet 15)], true, []) := by
    have hgroups := readGroups_quad (show 5 ≠ 0 by decide)
      (show (if false then some (':' :: text) else readGivenChar ':' (':' :: text)) = some text
        from rfl) hquad
    simp only [Ipv4Addr.ofOctets, u32Byte_zero_ofBe, u32Byte_one_ofBe, u32Byte_two_ofBe,
      u32Byte_three_ofBe] at hgroups
    exact hgroups
  have htail : readGroups 7 true ('f' :: 'f' :: 'f' :: 'f' :: ':' :: text) =
      ([0xffff, u16OfBe (a.octet 12) (a.octet 13), u16OfBe (a.octet 14) (a.octet 15)],
        true, []) :=
    readGroups_group rfl (hstart 'f' _ (by decide)) hffff hlast
  have hsegments : a.segments = List.replicate 5 0 ++
      [0xffff, u16OfBe (a.octet 12) (a.octet 13), u16OfBe (a.octet 14) (a.octet 15)] := by
    rw [← List.take_append_drop 6 a.segments, hmapped]
    simp [Ipv6Addr.segments, List.range_succ]
  have hwhole : readIpv6Addr (':' :: ':' :: 'f' :: 'f' :: 'f' :: 'f' :: ':' :: text) =
      some (.ofSegments a.segments, []) := by
    rw [hsegments]
    simp [readIpv6Addr, hhead, htail, readGivenChar]
  rw [ofSegments_segments] at hwhole
  exact hwhole

/-- **IPv6 texts are read back.** -/
theorem parseIpv6_ipv6ToString (a : Ipv6Addr) : parseIpv6 (ipv6ToString a).toList = some a := by
  have hread : readIpv6Addr (ipv6ToString a).toList = some (a, []) := by
    unfold ipv6ToString
    by_cases hmapped : a.segments.take 6 = [0, 0, 0, 0, 0, 0xffff]
    · simp only [hmapped, if_true, String.toList_append]
      exact readIpv6Addr_mapped a hmapped
    · simp only [hmapped, if_false]
      have hrun : IsZeroRun a.segments 8 (longestZeroRun a.segments 0 (0, 0) (0, 0)) := by
        rw [← length_segments a]
        exact @longestZeroRun_spec _ _ [] _ _ rfl ⟨le_rfl, by simp⟩ (by simp) ⟨le_rfl, by simp⟩
      by_cases hlen : (longestZeroRun a.segments 0 (0, 0) (0, 0)).2 > 1
      · rw [if_pos hlen]
        simp only [String.toList_append, toList_intercalate_hexGroup]
        simpa using readIpv6Addr_compressed a hrun hlen
      · rw [if_neg hlen, toList_intercalate_hexGroup]
        exact readIpv6Addr_full a
  simp only [parseIpv6, hread]

end Net
