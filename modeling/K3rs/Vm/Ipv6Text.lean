import K3rs.Lib.IpRoundTrip
import K3rs.Vm.BootParams

/-!
# The IPv6 text that k3rs-init reads

`parse_ipv6_manual` looks for the first `::`, reads the groups on both sides of it and fills the gap
with zeros.  It computes the size of the gap before it has looked at the number of groups.

* `parseIpv6Manual_eq`: what becomes of a text, by its groups.
* `parseIpv6Manual_text`: every text of an address is read back.
* `parseIpv6Manual_strict_iff`: other texts are refused, except for more than seven groups beside a
  `::` and for groups that `from_str_radix` reads although they are not one to four hex digits.
-/

namespace K3rs

open Net Wire

/-! ## The parser -/

/-- Why there is no address.  With `underflow` the call does not return. -/
inductive Ipv6Failure where
  | invalidGroup
  | wrongGroupCount (addr : List Char)
  | underflow
  deriving DecidableEq, Repr

/-- `addr.find("::")`, with what stands before and behind. -/
def splitAtGap : List Char → Option (List Char × List Char)
  | [] => none
  | c :: rest =>
      if c = ':' ∧ rest.head? = some ':' then some ([], rest.tail)
      else (splitAtGap rest).map fun p => (c :: p.1, p.2)

/-- The texts of the groups on one side of the gap. -/
def sideTexts (side : List Char) : List (List Char) :=
  if side = [] then [] else side.splitOn ':'

/-- `u16::from_str_radix(g, 16)`. -/
def parseGroup (text : List Char) : Option UInt16 :=
  (fromStrRadix 16 (2 ^ 16) text).map UInt16.ofNat

/-- The groups on one side of the gap. -/
def parseSide (side : List Char) : Option (List UInt16) := (sideTexts side).mapM parseGroup

/-- `parse_ipv6_manual`. -/
def parseIpv6Manual (addr : List Char) : Except Ipv6Failure (List UInt8) :=
  let (left, right) := (splitAtGap addr).getD (addr, [])
  match parseSide left with
  | none => .error .invalidGroup
  | some groups =>
      match parseSide right with
      | none => .error .invalidGroup
      | some rightGroups =>
          let total := groups.length + rightGroups.length
          if (splitAtGap addr).isSome ∧ 8 < total then .error .underflow
          else
            let zeros := if (splitAtGap addr).isSome then 8 - total else 0
            let groups := groups ++ List.replicate zeros 0 ++ rightGroups
            if groups.length ≠ 8 then .error (.wrongGroupCount addr)
            else .ok (groups.flatMap u16ToBe)

/-! ## Texts of an address -/

/-- One to four hex digits, in either case. -/
def PlainGroup (text : List Char) : Prop :=
  1 ≤ text.length ∧ text.length ≤ 4 ∧ ∀ c ∈ text, (toDigit 16 c).isSome = true

/-- A text of a group. -/
def SpellsGroup (group : UInt16) (text : List Char) : Prop :=
  PlainGroup text ∧ digitsValue 16 text = group.toNat

/-- Groups with colons between them. -/
def joinGroups (texts : List (List Char)) : List Char := [':'].intercalate texts

/-- The texts of eight groups: all of them, or with a run of zeros replaced by `::`. -/
inductive Ipv6Text (groups : List UInt16) : List Char → Prop where
  | full {texts : List (List Char)} (h : List.Forall₂ SpellsGroup groups texts) :
      Ipv6Text groups (joinGroups texts)
  | gap {before behind : List UInt16} {zeros : ℕ} {left right : List (List Char)}
      (hzeros : 1 ≤ zeros) (hsplit : groups = before ++ List.replicate zeros 0 ++ behind)
      (hleft : List.Forall₂ SpellsGroup before left)
      (hright : List.Forall₂ SpellsGroup behind right) :
      Ipv6Text groups (joinGroups left ++ ':' :: ':' :: joinGroups right)

/-- IPv6 text in group notation. -/
def ValidIpv6Text (text : List Char) : Prop :=
  ∃ groups : List UInt16, groups.length = 8 ∧ Ipv6Text groups text

/-! ## Groups -/

section Groups

theorem toDigit_lt {radix d : ℕ} {c : Char} (h : toDigit radix c = some d) : d < radix := by
  rw [toDigit, Option.filter_eq_some_iff] at h
  exact of_decide_eq_true h.2

theorem digitsValue_lt {digits : List Char} (h : ∀ c ∈ digits, (toDigit 16 c).isSome = true) :
    digitsValue 16 digits < 16 ^ digits.length := by
  induction digits using List.reverseRecOn with
  | nil => exact Nat.one_pos
  | append_singleton digits c ih =>
      have hinit := ih fun d hd => h d (List.mem_append_left _ hd)
      obtain ⟨d, hd⟩ := Option.isSome_iff_exists.mp (h c (by simp))
      have hlt := toDigit_lt hd
      rw [digitsValue_append, hd, Option.getD_some, List.length_append, List.length_singleton,
        Nat.pow_succ]
      omega

theorem PlainGroup.colon_notMem {text : List Char} (h : PlainGroup text) : ':' ∉ text := by
  intro hmem
  have hdigit := h.2.2 _ hmem
  revert hdigit
  decide

theorem PlainGroup.ne_nil {text : List Char} (h : PlainGroup text) : text ≠ [] := by
  rintro rfl
  exact absurd h.1 (by decide)

/-- A plain group is read. -/
theorem PlainGroup.fromStrRadix {text : List Char} (h : PlainGroup text) :
    K3rs.fromStrRadix 16 (2 ^ 16) text = some (digitsValue 16 text) := by
  have hhead : text.head? ≠ some '+' := by
    intro hplus
    have hdigit := h.2.2 _ (List.mem_of_head? hplus)
    rw [toDigit_plus] at hdigit
    cases hdigit
  have hlt : digitsValue 16 text < 2 ^ 16 :=
    calc digitsValue 16 text < 16 ^ text.length := digitsValue_lt h.2.2
      _ ≤ 16 ^ 4 := Nat.pow_le_pow_right (by decide) h.2.1
      _ = 2 ^ 16 := by norm_num
  rw [K3rs.fromStrRadix, if_neg hhead, if_pos ⟨h.ne_nil, List.all_eq_true.mpr h.2.2, hlt⟩]

theorem SpellsGroup.parseGroup {group : UInt16} {text : List Char} (h : SpellsGroup group text) :
    K3rs.parseGroup text = some group := by
  rw [K3rs.parseGroup, h.1.fromStrRadix, Option.map_some, h.2, UInt16.ofNat_toNat]

/-- A plain group has a value. -/
theorem PlainGroup.spells {text : List Char} (h : PlainGroup text) : ∃ g, SpellsGroup g text := by
  refine ⟨UInt16.ofNat (digitsValue 16 text), h, ?_⟩
  have hlt : digitsValue 16 text < 16 ^ 4 :=
    (digitsValue_lt h.2.2).trans_le (Nat.pow_le_pow_right (by decide) h.2.1)
  rw [UInt16.toNat_ofNat']
  exact (Nat.mod_eq_of_lt (by omega)).symm

end Groups

/-! ## Sides -/

section Sides

/-- The groups of a side, one by one. -/
theorem mapM_parseGroup_eq_some {texts : List (List Char)} {groups : List UInt16} :
    texts.mapM parseGroup = some groups ↔
      List.Forall₂ (fun text g => parseGroup text = some g) texts groups := by
  induction texts generalizing groups with
  | nil =>
      rw [List.mapM_nil, List.forall₂_nil_left_iff]
      exact ⟨fun h => (Option.some_inj.mp h).symm, fun h => congrArg some h.symm⟩
  | cons text texts ih =>
      rw [List.mapM_cons]
      cases hfirst : parseGroup text with
      | none =>
          constructor
          · intro h
            cases h
          · intro h
            cases h with
            | cons hg _ =>
                rw [hfirst] at hg
                cases hg
      | some g =>
          show ((texts.mapM parseGroup).bind fun gs => some (g :: gs)) = some groups ↔ _
          rw [Option.bind_eq_some_iff]
          constructor
          · rintro ⟨gs, hgs, heq⟩
            obtain rfl := Option.some_inj.mp heq
            exact .cons hfirst (ih.mp hgs)
          · intro h
            cases h with
            | cons hg hgs =>
                obtain rfl := Option.some_inj.mp (hfirst.symm.trans hg)
                exact ⟨_, ih.mpr hgs, rfl⟩

theorem parseSide_isSome_iff {side : List Char} :
    (parseSide side).isSome = true ↔ ∀ text ∈ sideTexts side, (parseGroup text).isSome = true := by
  rw [parseSide]
  generalize sideTexts side = texts
  induction texts with
  | nil => exact ⟨fun _ _ h => absurd h List.not_mem_nil, fun _ => rfl⟩
  | cons text texts ih =>
      rw [List.forall_mem_cons, ← ih, List.mapM_cons]
      cases parseGroup text with
      | none => simp
      | some g =>
          cases texts.mapM parseGroup with
          | none => simp
          | some gs => simp

theorem length_of_parseSide {side : List Char} {groups : List UInt16}
    (h : parseSide side = some groups) : groups.length = (sideTexts side).length :=
  (mapM_parseGroup_eq_some.mp h).length_eq.symm

theorem joinGroups_sideTexts (side : List Char) : joinGroups (sideTexts side) = side := by
  rw [sideTexts, joinGroups]
  split_ifs with hempty
  · exact hempty.symm
  · exact List.intercalate_splitOn ':'

/-- Plain groups are found again. -/
theorem sideTexts_joinGroups {texts : List (List Char)} (h : ∀ text ∈ texts, PlainGroup text) :
    sideTexts (joinGroups texts) = texts := by
  cases texts with
  | nil => rfl
  | cons text texts =>
      have hne : joinGroups (text :: texts) ≠ [] := by
        have htext := (h text List.mem_cons_self).ne_nil
        rw [joinGroups]
        cases texts with
        | nil => rwa [List.intercalate_singleton]
        | cons text' texts =>
            rw [List.intercalate_cons_cons]
            exact fun heq => htext (List.append_eq_nil_iff.mp (List.append_eq_nil_iff.mp heq).1).1
      rw [sideTexts, if_neg hne]
      exact List.splitOn_intercalate ':' (fun text htext => (h text htext).colon_notMem)
        (List.cons_ne_nil _ _)

theorem SpellsGroup.plain {groups : List UInt16} {texts : List (List Char)}
    (h : List.Forall₂ SpellsGroup groups texts) : ∀ text ∈ texts, PlainGroup text := by
  induction h with
  | nil => exact fun _ htext => absurd htext List.not_mem_nil
  | cons hfirst _ ih => exact List.forall_mem_cons.mpr ⟨hfirst.1, ih⟩

/-- Plain groups are read. -/
theorem parseSide_joinGroups {groups : List UInt16} {texts : List (List Char)}
    (h : List.Forall₂ SpellsGroup groups texts) : parseSide (joinGroups texts) = some groups := by
  rw [parseSide, sideTexts_joinGroups (SpellsGroup.plain h), mapM_parseGroup_eq_some]
  exact h.flip.imp fun _ _ hspells => SpellsGroup.parseGroup hspells

/-- Plain groups spell groups. -/
theorem exists_spells {texts : List (List Char)} (h : ∀ text ∈ texts, PlainGroup text) :
    ∃ groups, List.Forall₂ SpellsGroup groups texts := by
  induction texts with
  | nil => exact ⟨[], .nil⟩
  | cons text texts ih =>
      obtain ⟨hfirst, hrest⟩ := List.forall_mem_cons.mp h
      obtain ⟨g, hg⟩ := hfirst.spells
      obtain ⟨gs, hgs⟩ := ih hrest
      exact ⟨g :: gs, .cons hg hgs⟩

end Sides

/-! ## The gap -/

section Gap

variable {addr left right : List Char}

theorem eq_of_splitAtGap : ∀ {addr left right : List Char},
    splitAtGap addr = some (left, right) → addr = left ++ ':' :: ':' :: right := by
  intro addr
  induction addr with
  | nil => intro _ _ h; cases h
  | cons c rest ih =>
      intro left right h
      rw [splitAtGap] at h
      split_ifs at h with hgap
      · cases rest with
        | nil => cases hgap.2
        | cons d rest =>
            obtain rfl := hgap.1
            obtain rfl := Option.some_inj.mp hgap.2
            cases h
            rfl
      · obtain ⟨⟨left', right'⟩, hrest, heq⟩ := Option.map_eq_some_iff.mp h
        cases heq
        rw [ih hrest]
        rfl

/-- A text without colons has no gap. -/
theorem splitAtGap_append {text : List Char} (h : ':' ∉ text) (rest : List Char) :
    splitAtGap (text ++ rest) = (splitAtGap rest).map fun p => (text ++ p.1, p.2) := by
  induction text with
  | nil => exact Option.map_id'.symm
  | cons c text ih =>
      obtain ⟨hc, htext⟩ := not_or.mp (List.mem_cons.not.mp h)
      rw [List.cons_append, splitAtGap, if_neg fun hgap => hc hgap.1.symm, ih htext, Option.map_map]
      rfl

/-- A single colon is no gap. -/
theorem splitAtGap_colon {rest : List Char} (h : rest.head? ≠ some ':') :
    splitAtGap (':' :: rest) = (splitAtGap rest).map fun p => (':' :: p.1, p.2) := by
  rw [splitAtGap, if_neg fun hgap => h hgap.2]

/-- **Plain groups have no gap** between them. -/
theorem splitAtGap_joinGroups {texts : List (List Char)} (h : ∀ text ∈ texts, PlainGroup text)
    (rest : List Char) : splitAtGap (joinGroups texts ++ rest) =
      (splitAtGap rest).map fun p => (joinGroups texts ++ p.1, p.2) := by
  induction texts with
  | nil => exact Option.map_id'.symm
  | cons text texts ih =>
      obtain ⟨hfirst, hrest⟩ := List.forall_mem_cons.mp h
      cases texts with
      | nil =>
          rw [joinGroups, List.intercalate_singleton]
          exact splitAtGap_append hfirst.colon_notMem rest
      | cons text' texts =>
          have hhead : (joinGroups (text' :: texts) ++ rest).head? ≠ some ':' := by
            have hnext := (List.forall_mem_cons.mp hrest).1
            obtain ⟨c, tail, rfl⟩ := List.exists_cons_of_ne_nil hnext.ne_nil
            have hc : c ≠ ':' := fun heq => hnext.colon_notMem (heq ▸ List.mem_cons_self)
            rw [joinGroups]
            cases texts with
            | nil =>
                rw [List.intercalate_singleton]
                exact fun heq => hc (Option.some_inj.mp heq)
            | cons text'' texts =>
                rw [List.intercalate_cons_cons]
                exact fun heq => hc (Option.some_inj.mp heq)
          have hjoin : joinGroups (text :: text' :: texts) =
              text ++ ':' :: joinGroups (text' :: texts) := by
            rw [joinGroups, List.intercalate_cons_cons, List.append_assoc]
            rfl
          rw [hjoin, List.append_assoc, List.cons_append, splitAtGap_append hfirst.colon_notMem,
            splitAtGap_colon hhead, ih hrest, Option.map_map, Option.map_map]
          refine congrArg (fun f => Option.map f (splitAtGap rest)) (funext fun p => ?_)
          show (text ++ ':' :: (joinGroups (text' :: texts) ++ p.1), p.2) =
            (text ++ ':' :: joinGroups (text' :: texts) ++ p.1, p.2)
          rw [List.append_assoc, List.cons_append]

theorem splitAtGap_full {texts : List (List Char)} (h : ∀ text ∈ texts, PlainGroup text) :
    splitAtGap (joinGroups texts) = none := by
  have hsplit := splitAtGap_joinGroups h []
  rwa [List.append_nil] at hsplit

theorem splitAtGap_gap {texts : List (List Char)} (h : ∀ text ∈ texts, PlainGroup text)
    (right : List Char) :
    splitAtGap (joinGroups texts ++ ':' :: ':' :: right) = some (joinGroups texts, right) := by
  rw [splitAtGap_joinGroups h, splitAtGap, if_pos ⟨rfl, rfl⟩, Option.map_some, List.append_nil]
  rfl

end Gap

/-! ## What becomes of a text -/

/-- The texts of all groups. -/
def groupTexts (addr : List Char) : List (List Char) :=
  sideTexts ((splitAtGap addr).getD (addr, [])).1 ++ sideTexts ((splitAtGap addr).getD (addr, [])).2

section Parse

variable {addr left right : List Char} {groups rightGroups : List UInt16}

theorem parseIpv6Manual_gap (hsplit : splitAtGap addr = some (left, right))
    (hleft : parseSide left = some groups) (hright : parseSide right = some rightGroups) :
    parseIpv6Manual addr =
      if 8 < groups.length + rightGroups.length then .error .underflow
      else .ok ((groups ++ List.replicate (8 - (groups.length + rightGroups.length)) 0 ++
        rightGroups).flatMap u16ToBe) := by
  simp only [parseIpv6Manual, hsplit, Option.getD_some, hleft, hright, Option.isSome_some, true_and,
    if_true]
  split_ifs with hlong hlength
  · rfl
  · rw [List.length_append, List.length_append, List.length_replicate] at hlength
    omega
  · rfl

theorem parseIpv6Manual_full (hsplit : splitAtGap addr = none)
    (hside : parseSide addr = some groups) : parseIpv6Manual addr =
      if groups.length ≠ 8 then .error (.wrongGroupCount addr)
      else .ok (groups.flatMap u16ToBe) := by
  have hempty : parseSide [] = some [] := rfl
  simp only [parseIpv6Manual, hsplit, Option.getD_none, hside, hempty, Option.isSome_none,
    Bool.false_eq_true, false_and, if_false, List.replicate_zero, List.append_nil]

theorem groupTexts_full (hsplit : splitAtGap addr = none) : groupTexts addr = sideTexts addr := by
  rw [groupTexts, hsplit]
  exact List.append_nil _

theorem groupTexts_gap (hsplit : splitAtGap addr = some (left, right)) :
    groupTexts addr = sideTexts left ++ sideTexts right := by
  rw [groupTexts, hsplit]
  rfl

/-- A group that is no number is refused. -/
theorem parseIpv6Manual_invalid (h : ∃ text ∈ groupTexts addr, parseGroup text = none) :
    parseIpv6Manual addr = .error .invalidGroup := by
  obtain ⟨text, htext, hnone⟩ := h
  have hside : ∀ side, text ∈ sideTexts side → parseSide side = none := by
    intro side hmem
    refine Option.not_isSome_iff_eq_none.mp fun hsome => ?_
    have hparsed := parseSide_isSome_iff.mp hsome text hmem
    rw [hnone] at hparsed
    cases hparsed
  unfold parseIpv6Manual
  rcases List.mem_append.mp htext with hmem | hmem
  · simp only [hside _ hmem]
  · simp only [hside _ hmem]
    cases parseSide ((splitAtGap addr).getD (addr, [])).1 with
    | none => rfl
    | some groups => rfl

/-- **Plain groups**, fewer than eight with a gap, or eight: these are the valid texts. -/
theorem validIpv6Text_iff : ValidIpv6Text addr ↔
    (∀ text ∈ groupTexts addr, PlainGroup text) ∧
      if (splitAtGap addr).isSome then (groupTexts addr).length < 8
      else (groupTexts addr).length = 8 := by
  constructor
  · rintro ⟨groups, hlength, htext⟩
    cases htext with
    | @full texts h =>
        have hplain := SpellsGroup.plain h
        rw [groupTexts_full (splitAtGap_full hplain), splitAtGap_full hplain,
          sideTexts_joinGroups hplain]
        exact ⟨hplain, h.length_eq.symm.trans hlength⟩
    | @gap before behind zeros left right hzeros hgroups hleft hright =>
        have hplainLeft := SpellsGroup.plain hleft
        have hplainRight := SpellsGroup.plain hright
        have hsplit := splitAtGap_gap hplainLeft (joinGroups right)
        rw [groupTexts_gap hsplit, hsplit, sideTexts_joinGroups hplainLeft,
          sideTexts_joinGroups hplainRight]
        refine ⟨fun text htext => ?_, ?_⟩
        · rcases List.mem_append.mp htext with hmem | hmem
          · exact hplainLeft text hmem
          · exact hplainRight text hmem
        · rw [hgroups, List.length_append, List.length_append, List.length_replicate] at hlength
          rw [Option.isSome_some, if_pos rfl, List.length_append, ← hleft.length_eq,
            ← hright.length_eq]
          omega
  · rintro ⟨hplain, hcount⟩
    cases hsplit : splitAtGap addr with
    | none =>
        rw [groupTexts_full hsplit] at hplain hcount
        rw [hsplit, Option.isSome_none, if_neg Bool.false_ne_true] at hcount
        obtain ⟨groups, hgroups⟩ := exists_spells hplain
        refine ⟨groups, hgroups.length_eq.trans hcount, ?_⟩
        rw [← joinGroups_sideTexts addr]
        exact .full hgroups
    | some sides =>
        obtain ⟨left, right⟩ := sides
        rw [groupTexts_gap hsplit] at hplain hcount
        rw [hsplit, Option.isSome_some, if_pos rfl, List.length_append] at hcount
        obtain ⟨before, hbefore⟩ := exists_spells fun text htext =>
          hplain text (List.mem_append_left _ htext)
        obtain ⟨behind, hbehind⟩ := exists_spells fun text htext =>
          hplain text (List.mem_append_right _ htext)
        have hlengths := hbefore.length_eq
        have hlengths' := hbehind.length_eq
        refine ⟨before ++ List.replicate (8 - (before.length + behind.length)) 0 ++ behind, ?_, ?_⟩
        · rw [List.length_append, List.length_append, List.length_replicate]
          omega
        · have hzeros : 1 ≤ 8 - (before.length + behind.length) := by omega
          have htext := Ipv6Text.gap hzeros rfl hbefore hbehind
          rwa [joinGroups_sideTexts, joinGroups_sideTexts, ← eq_of_splitAtGap hsplit] at htext

/-- The bytes of eight groups in any of their texts. -/
theorem parseIpv6Manual_of_text (hlength : groups.length = 8) (h : Ipv6Text groups addr) :
    parseIpv6Manual addr = .ok (groups.flatMap u16ToBe) := by
  cases h with
  | full h =>
      rw [parseIpv6Manual_full (splitAtGap_full (SpellsGroup.plain h)) (parseSide_joinGroups h),
        if_neg fun hne => hne hlength]
  | @gap before behind zeros left right hzeros hgroups hleft hright =>
      rw [hgroups, List.length_append, List.length_append, List.length_replicate] at hlength
      have hfill : 8 - (before.length + behind.length) = zeros := by omega
      rw [parseIpv6Manual_gap (splitAtGap_gap (SpellsGroup.plain hleft) _)
        (parseSide_joinGroups hleft) (parseSide_joinGroups hright), if_neg (by omega), hgroups,
        hfill]

/-- What becomes of a text all of whose groups are read. -/
theorem parseIpv6Manual_of_parsed (h : ∀ text ∈ groupTexts addr, parseGroup text ≠ none) :
    if (splitAtGap addr).isSome then
      if 8 < (groupTexts addr).length then parseIpv6Manual addr = .error .underflow
      else ∃ bytes, parseIpv6Manual addr = .ok bytes
    else if (groupTexts addr).length = 8 then ∃ bytes, parseIpv6Manual addr = .ok bytes
    else parseIpv6Manual addr = .error (.wrongGroupCount addr) := by
  have hside : ∀ side, (∀ text ∈ sideTexts side, text ∈ groupTexts addr) →
      ∃ groups, parseSide side = some groups := fun side hmem =>
    Option.isSome_iff_exists.mp (parseSide_isSome_iff.mpr fun text htext =>
      Option.isSome_iff_ne_none.mpr (h text (hmem text htext)))
  cases hsplit : splitAtGap addr with
  | none =>
      rw [Option.isSome_none, if_neg Bool.false_ne_true]
      have htexts := groupTexts_full hsplit
      obtain ⟨groups, hgroups⟩ := hside addr fun text htext => htexts ▸ htext
      rw [parseIpv6Manual_full hsplit hgroups, htexts, length_of_parseSide hgroups]
      by_cases hcount : (sideTexts addr).length = 8
      · rw [if_pos hcount, if_neg (not_not.mpr hcount)]
        exact ⟨_, rfl⟩
      · rw [if_neg hcount, if_pos hcount]
  | some sides =>
      obtain ⟨left, right⟩ := sides
      rw [Option.isSome_some, if_pos rfl]
      have htexts := groupTexts_gap hsplit
      obtain ⟨groups, hgroups⟩ := hside left fun text htext =>
        htexts ▸ List.mem_append_left _ htext
      obtain ⟨rightGroups, hright⟩ := hside right fun text htext =>
        htexts ▸ List.mem_append_right _ htext
      rw [parseIpv6Manual_gap hsplit hgroups hright, htexts, List.length_append,
        length_of_parseSide hgroups, length_of_parseSide hright]
      split_ifs with hcount
      · rfl
      · exact ⟨_, rfl⟩

end Parse

/-! ## The two laws -/

theorem flatMap_segments (a : Ipv6Addr) : a.segments.flatMap u16ToBe = a.octets := by
  rw [a.octets_eq]
  simp [Ipv6Addr.segments, List.range_succ, u16ToBe_ofBe]

/-- **Every text of an address is read back.** -/
theorem parseIpv6Manual_text (a : Ipv6Addr) {text : List Char} (h : Ipv6Text a.segments text) :
    parseIpv6Manual text = .ok a.octets := by
  rw [parseIpv6Manual_of_text (length_segments a) h, flatMap_segments]

/-- The Ghost address of a pod, with a capital letter and without its zeros. -/
theorem parseIpv6Manual_ghost :
    parseIpv6Manual "Fd00:1:1000::1:5:a00:2".toList =
      .ok [0xfd, 0, 0, 1, 0x10, 0, 0, 0, 0, 1, 0, 5, 0x0a, 0, 0, 2] := by
  have hspells : ∀ (g : UInt16) (text : List Char), 1 ≤ text.length ∧ text.length ≤ 4 ∧
      (text.all fun c => (toDigit 16 c).isSome) = true → digitsValue 16 text = g.toNat →
        SpellsGroup g text :=
    fun g text h hvalue => ⟨⟨h.1, h.2.1, List.all_eq_true.mp h.2.2⟩, hvalue⟩
  have hbefore : List.Forall₂ SpellsGroup [0xfd00, 1, 0x1000]
      ["Fd00".toList, "1".toList, "1000".toList] :=
    .cons (hspells _ _ (by decide) (by decide)) (.cons (hspells _ _ (by decide) (by decide))
      (.cons (hspells _ _ (by decide) (by decide)) .nil))
  have hbehind : List.Forall₂ SpellsGroup [1, 5, 0xa00, 2]
      ["1".toList, "5".toList, "a00".toList, "2".toList] :=
    .cons (hspells _ _ (by decide) (by decide)) (.cons (hspells _ _ (by decide) (by decide))
      (.cons (hspells _ _ (by decide) (by decide)) (.cons (hspells _ _ (by decide) (by decide))
        .nil)))
  exact parseIpv6Manual_text
    ⟨[0xfd, 0, 0, 1, 0x10, 0, 0, 0, 0, 1, 0, 5, 0x0a, 0, 0, 2], rfl⟩
    (.gap (le_refl 1) rfl hbefore hbehind)

/-- A valid text has an address, and another one is refused. -/
def Ipv6Handled (addr : List Char) : Prop :=
  (ValidIpv6Text addr → ∃ bytes, parseIpv6Manual addr = .ok bytes) ∧
    (¬ValidIpv6Text addr → ∃ e, parseIpv6Manual addr = .error e ∧ e ≠ .underflow)

section Handled

variable {addr : List Char}

theorem handled_iff_of_ok (h : ∃ bytes, parseIpv6Manual addr = .ok bytes) :
    Ipv6Handled addr ↔ ValidIpv6Text addr := by
  refine ⟨fun hhandled => ?_, fun hvalid => ⟨fun _ => h, fun hnot => absurd hvalid hnot⟩⟩
  by_contra hnot
  obtain ⟨bytes, hbytes⟩ := h
  obtain ⟨e, he, -⟩ := hhandled.2 hnot
  rw [hbytes] at he
  cases he

/-- A text without an address is not valid. -/
theorem not_valid_of_error {e : Ipv6Failure} (h : parseIpv6Manual addr = .error e) :
    ¬ValidIpv6Text addr := by
  rintro ⟨groups, hlength, htext⟩
  rw [parseIpv6Manual_of_text hlength htext] at h
  cases h

theorem handled_of_error {e : Ipv6Failure} (h : parseIpv6Manual addr = .error e)
    (he : e ≠ .underflow) : Ipv6Handled addr :=
  ⟨fun hvalid => absurd hvalid (not_valid_of_error h), fun _ => ⟨e, h, he⟩⟩

theorem not_handled_of_underflow (h : parseIpv6Manual addr = .error .underflow) :
    ¬Ipv6Handled addr := by
  intro hhandled
  obtain ⟨e, he, hne⟩ := hhandled.2 (not_valid_of_error h)
  rw [h] at he
  exact hne (Except.error.inj he).symm

end Handled

/-- **Strictness.**  A text is handled as it should exactly if `from_str_radix` refuses one of its
groups, or it has no `::` and not eight groups, or its groups are one to four hex digits each and,
beside a `::`, fewer than eight. -/
theorem parseIpv6Manual_strict_iff (addr : List Char) : Ipv6Handled addr ↔
    (∃ text ∈ groupTexts addr, fromStrRadix 16 (2 ^ 16) text = none) ∨
      (splitAtGap addr = none ∧ (groupTexts addr).length ≠ 8) ∨
        (∀ text ∈ groupTexts addr, PlainGroup text) ∧
          (splitAtGap addr ≠ none → (groupTexts addr).length < 8) := by
  have hread : ∀ text, parseGroup text = none ↔ fromStrRadix 16 (2 ^ 16) text = none :=
    fun text => Option.map_eq_none_iff
  have hvalid : ValidIpv6Text addr ↔ _ := validIpv6Text_iff
  by_cases hinvalid : ∃ text ∈ groupTexts addr, fromStrRadix 16 (2 ^ 16) text = none
  · have hrefused : parseIpv6Manual addr = .error .invalidGroup := by
      obtain ⟨text, htext, hnone⟩ := hinvalid
      exact parseIpv6Manual_invalid ⟨text, htext, (hread text).mpr hnone⟩
    exact iff_of_true (handled_of_error hrefused (by decide)) (Or.inl hinvalid)
  · have hall : ∀ text ∈ groupTexts addr, parseGroup text ≠ none :=
      fun text htext hnone => hinvalid ⟨text, htext, (hread text).mp hnone⟩
    have hparsed := parseIpv6Manual_of_parsed hall
    rw [or_iff_right hinvalid]
    cases hsplit : splitAtGap addr with
    | none =>
        rw [hsplit, Option.isSome_none, if_neg Bool.false_ne_true] at hparsed hvalid
        by_cases hcount : (groupTexts addr).length = 8
        · rw [if_pos hcount] at hparsed
          rw [handled_iff_of_ok hparsed, hvalid]
          constructor
          · exact fun h => Or.inr ⟨h.1, fun hne => absurd rfl hne⟩
          · rintro (⟨-, hne⟩ | ⟨hplain, -⟩)
            · exact absurd hcount hne
            · exact ⟨hplain, hcount⟩
        · rw [if_neg hcount] at hparsed
          exact iff_of_true (handled_of_error hparsed (by simp)) (Or.inl ⟨rfl, hcount⟩)
    | some sides =>
        rw [hsplit, Option.isSome_some, if_pos rfl] at hparsed hvalid
        have hright : (some sides = none ∧ (groupTexts addr).length ≠ 8) ∨
            (∀ text ∈ groupTexts addr, PlainGroup text) ∧
              (some sides ≠ none → (groupTexts addr).length < 8) ↔
            (∀ text ∈ groupTexts addr, PlainGroup text) ∧ (groupTexts addr).length < 8 := by
          simp
        rw [hright]
        by_cases hcount : 8 < (groupTexts addr).length
        · rw [if_pos hcount] at hparsed
          exact iff_of_false (not_handled_of_underflow hparsed) fun h => absurd h.2 (by omega)
        · rw [if_neg hcount] at hparsed
          rw [handled_iff_of_ok hparsed, hvalid]

/-- **Nine groups before `::`** underflow the size of the gap. -/
theorem nine_groups_underflow :
    parseIpv6Manual "1:2:3:4:5:6:7:8:9::".toList = .error .underflow ∧
      ¬Ipv6Handled "1:2:3:4:5:6:7:8:9::".toList := by
  have hunderflow : parseIpv6Manual "1:2:3:4:5:6:7:8:9::".toList = .error .underflow := by
    decide
  exact ⟨hunderflow, not_handled_of_underflow hunderflow⟩

/-- A sign, five digits, and eight groups beside a gap are read. -/
example : (parseIpv6Manual "+1:2:3:4:5:6:7:8".toList).isOk = true ∧
    (parseIpv6Manual "00001:2:3:4:5:6:7:8".toList).isOk = true ∧
    (parseIpv6Manual "1:2:3:4::5:6:7:8".toList).isOk = true := by
  decide +kernel

end K3rs
