import K3rs.Lib.CheckedReads
import K3rs.Lib.Utf8
import K3rs.Network.Dns
import K3rs.Vpc.GhostIpv6

/-!
# DNS messages

A DNS message is a header of twelve bytes with four counts, and behind it questions and three
sections of records.  Each starts with a name: labels that have their length before them, and a zero
or a pointer at the end.  `parse_dns_name` and `find_name_end` walk over names,
`extract_a_record_ip` over whole responses.

* `findNameEnd_of_isName`, `isName_of_findNameEnd`: the end of a name is found exactly where there
  is a name (`IsName`).
* `extractARecordIp_encode`: in a well-formed response, the first A record is found.
* `dns_messages`: reads are within bounds, and what is encoded is decoded.
-/

namespace K3rs

open CheckedReads Net Wire

/-- `QTYPE_A`. -/
def QTYPE_A : UInt16 := 1

/-- `QTYPE_AAAA`. -/
def QTYPE_AAAA : UInt16 := 28

/-- `NAT64_PREFIX`. -/
def NAT64_PREFIX : List UInt8 := [0x00, 0x64, 0xff, 0x9b, 0, 0, 0, 0, 0, 0, 0, 0]

namespace DnsServer

/-! ## Packet parsing -/

/-- The loop of `parse_dns_name`. -/
def parseLabels (data : List UInt8) (offset : ℕ) (parts : List String) :
    Checked (Option (List String)) :=
  if offset < data.length then do
    let len ← read data offset
    if len = 0 then return some parts
    else if len &&& 0xC0 = 0xC0 then return some parts
    else if data.length < offset + 1 + len.toNat then return none
    else
      let label ← slice data (offset + 1) (offset + 1 + len.toNat)
      parseLabels data (offset + 1 + len.toNat)
        (parts ++ [String.ofList (Utf8.fromUtf8Lossy label)])
  else return none
termination_by data.length - offset

/-- `parse_dns_name`. -/
def parseDnsName (data : List UInt8) (offset : ℕ) : Checked (Option String) := do
  match ← parseLabels data offset [] with
  | none => return none
  | some parts => return if parts = [] then none else some (".".intercalate parts)

/-- `find_name_end`. -/
def findNameEnd (data : List UInt8) (offset : ℕ) : Checked (Option ℕ) :=
  if offset < data.length then do
    let len ← read data offset
    if len = 0 then return some (offset + 1)
    else if len &&& 0xC0 = 0xC0 then return some (offset + 2)
    else findNameEnd data (offset + 1 + len.toNat)
  else return none
termination_by data.length - offset

/-- The loop of `extract_a_record_ip` over the questions. -/
def skipQuestions (response : List UInt8) : ℕ → ℕ → Checked (Option ℕ)
  | 0, offset => return some offset
  | count + 1, offset => do
      match ← findNameEnd response offset with
      | none => return none
      | some offset => skipQuestions response count (offset + 4)

/-- The loop of `extract_a_record_ip` over the answers. -/
def firstARecord (response : List UInt8) : ℕ → ℕ → Checked (Option (List UInt8))
  | 0, _ => return none
  | count + 1, offset => do
      match ← findNameEnd response offset with
      | none => return none
      | some offset =>
          if response.length < offset + 10 then return none
          else
            let rtype ← readU16 response offset
            -- the class and the TTL are not read
            let rdlength ← readU16 response (offset + 8)
            if response.length < offset + 10 + rdlength.toNat then return none
            else if rtype = QTYPE_A ∧ rdlength.toNat = 4 then
              let ip ← slice response (offset + 10) (offset + 10 + 4)
              return some ip
            else firstARecord response count (offset + 10 + rdlength.toNat)

/-- `extract_a_record_ip`. -/
def extractARecordIp (response : List UInt8) : Checked (Option (List UInt8)) :=
  if response.length < 12 then return none
  else do
    let rcode ← read response 3
    if rcode &&& 0x0F ≠ 0 then return none
    else
      let qdcount ← readU16 response 4
      let ancount ← readU16 response 6
      if ancount = 0 then return none
      else
        match ← skipQuestions response qdcount.toNat 12 with
        | none => return none
        | some offset => firstARecord response ancount.toNat offset

/-! ## Response builders -/

/-- The header of a response without an error that has one question and one answer. -/
def responseHeader (txnId : List UInt8) : List UInt8 :=
  txnId ++ [0x81, 0x80] ++ [0x00, 0x01] ++ [0x00, 0x01] ++ [0x00, 0x00] ++ [0x00, 0x00]

/-- `build_a_response`. -/
def buildAResponse (txnId question ip : List UInt8) : Option (List UInt8) :=
  some (responseHeader txnId ++ question ++ [0xC0, 0x0C] ++ [0x00, 0x01] ++ [0x00, 0x01] ++
    [0x00, 0x00, 0x00, 0x3C] ++ [0x00, 0x04] ++ ip)

/-- `build_aaaa_response`. -/
def buildAaaaResponse (txnId question ipv6 : List UInt8) : Option (List UInt8) :=
  some (responseHeader txnId ++ question ++ [0xC0, 0x0C] ++ [0x00, 0x1C] ++ [0x00, 0x01] ++
    [0x00, 0x00, 0x00, 0x3C] ++ [0x00, 0x10] ++ ipv6)

/-! ## Queries -/

/-- What `handle_dns_query` reads from a question: its name, where the name ends, the type, and
where the question ends. -/
structure DnsQuestion where
  name : String
  nameEnd : ℕ
  qtype : UInt16
  qEnd : ℕ

/-- The first part of `handle_dns_query`. -/
def parseQuestion (query : List UInt8) : Checked (Option DnsQuestion) :=
  if query.length < 13 then return none
  else do
    match ← parseDnsName query 12 with
    | none => return none
    | some name =>
        match ← findNameEnd query 12 with
        | none => return none
        | some nameEnd =>
            if query.length < nameEnd + 4 then return none
            else
              let qtype ← readU16 query nameEnd
              return some ⟨name, nameEnd, qtype, nameEnd + 4⟩

/-- The octets of a cluster IP. -/
def octetsOf (ip : String) : List UInt8 :=
  (ip.toList.splitOn '.').filterMap fun part =>
    match parseUnsigned 256 part with
    | .ok octet => some (.ofNat octet)
    | .error _ => none

/-- `dns64_forward`, with what the upstream resolver answers to a query. -/
def dns64Forward (upstream : List UInt8 → Option (List UInt8)) (query : List UInt8)
    (nameEnd qEnd : ℕ) : Checked (Option (List UInt8)) := do
  let aQuery ← write query nameEnd 0x00
  let aQuery ← write aQuery (nameEnd + 1) 0x01
  match upstream aQuery with
  | none => return none
  | some response =>
      match ← extractARecordIp response with
      | none => return none
      | some ipv4 =>
          let txnId ← slice query 0 2
          let question ← slice query 12 qEnd
          return buildAaaaResponse txnId question (NAT64_PREFIX ++ ipv4)

/-- `handle_dns_query`.  `upstream` is `forward_upstream`. -/
def handleDnsQuery (d : DnsServer) (upstream : List UInt8 → Option (List UInt8))
    (platformPrefix clusterId : UInt32) (domainSuffix srcIp : String) (query : List UInt8) :
    Checked (Option (List UInt8)) := do
  match ← parseQuestion query with
  | none => return none
  | some q =>
      if domainSuffix.toList <:+ q.name.toList then
        match d.resolveFrom srcIp q.name with
        | none => return none
        | some (ip, vpcId) =>
            let octets := octetsOf ip
            if octets.length ≠ 4 then return none
            else
              let txnId ← slice query 0 2
              let question ← slice query 12 q.qEnd
              if q.qtype = QTYPE_A then return buildAResponse txnId question octets
              else if q.qtype = QTYPE_AAAA then
                match constructGhostIpv6 platformPrefix clusterId vpcId octets with
                | none => .error .outOfBounds
                | some ghost => return buildAaaaResponse txnId question ghost.octets
              else return none
      else if q.qtype = QTYPE_AAAA then dns64Forward upstream query q.nameEnd q.qEnd
      else return upstream query

/-! ## Reads are within bounds -/

section Safety

theorem parseLabels_safe (data : List UInt8) (offset : ℕ) (parts : List String) :
    ∃ r, parseLabels data offset parts = .ok r := by
  induction hleft : data.length - offset using Nat.strong_induction_on
    generalizing offset parts with
  | _ left ih =>
      rw [parseLabels]
      by_cases hpos : offset < data.length
      · rw [if_pos hpos, read_eq hpos, ok_bind]
        split_ifs with hzero hpointer hcut
        · exact ⟨_, rfl⟩
        · exact ⟨_, rfl⟩
        · exact ⟨_, rfl⟩
        · rw [slice_eq (Nat.le_add_right _ _) (not_lt.mp hcut), ok_bind]
          exact ih _ (by omega) _ _ rfl
      · rw [if_neg hpos]
        exact ⟨_, rfl⟩

theorem findNameEnd_safe (data : List UInt8) (offset : ℕ) :
    ∃ r, findNameEnd data offset = .ok r := by
  induction hleft : data.length - offset using Nat.strong_induction_on generalizing offset with
  | _ left ih =>
      rw [findNameEnd]
      by_cases hpos : offset < data.length
      · rw [if_pos hpos, read_eq hpos, ok_bind]
        split_ifs with hzero hpointer
        · exact ⟨_, rfl⟩
        · exact ⟨_, rfl⟩
        · exact ih _ (by omega) _ rfl
      · rw [if_neg hpos]
        exact ⟨_, rfl⟩

theorem parseDnsName_safe (data : List UInt8) (offset : ℕ) :
    ∃ r, parseDnsName data offset = .ok r := by
  rw [parseDnsName]
  refine exists_ok_bind (parseLabels_safe data offset []) fun labels _ => ?_
  cases labels with
  | none => exact ⟨_, rfl⟩
  | some parts => exact ⟨_, rfl⟩

theorem skipQuestions_safe (response : List UInt8) : ∀ count offset : ℕ,
    ∃ r, skipQuestions response count offset = .ok r := by
  intro count
  induction count with
  | zero => exact fun offset => ⟨_, rfl⟩
  | succ count ih =>
      intro offset
      rw [skipQuestions]
      refine exists_ok_bind (findNameEnd_safe response offset) fun found _ => ?_
      cases found with
      | none => exact ⟨_, rfl⟩
      | some stop => exact ih (stop + 4)

theorem firstARecord_safe (response : List UInt8) : ∀ count offset : ℕ,
    ∃ r, firstARecord response count offset = .ok r := by
  intro count
  induction count with
  | zero => exact fun offset => ⟨_, rfl⟩
  | succ count ih =>
      intro offset
      rw [firstARecord]
      refine exists_ok_bind (findNameEnd_safe response offset) fun found _ => ?_
      cases found with
      | none => exact ⟨_, rfl⟩
      | some stop =>
          dsimp only
          split_ifs with hshort
          · exact ⟨_, rfl⟩
          · rw [readU16_eq (by omega), ok_bind, readU16_eq (by omega), ok_bind]
            split_ifs with hcut hfound
            · exact ⟨_, rfl⟩
            · rw [slice_eq (by omega) (by omega), ok_bind]
              exact ⟨_, rfl⟩
            · exact ih _

/-- **Safety.**  A response is read within bounds, whatever its bytes are. -/
theorem extractARecordIp_safe (response : List UInt8) :
    ∃ r, extractARecordIp response = .ok r := by
  rw [extractARecordIp]
  split_ifs with hshort
  · exact ⟨_, rfl⟩
  · rw [read_eq (by omega), ok_bind, readU16_eq (by omega), ok_bind, readU16_eq (by omega),
      ok_bind]
    split_ifs with hrcode hnone
    · exact ⟨_, rfl⟩
    · exact ⟨_, rfl⟩
    · refine exists_ok_bind (skipQuestions_safe response _ 12) fun skipped _ => ?_
      cases skipped with
      | none => exact ⟨_, rfl⟩
      | some offset => exact firstARecord_safe response _ offset

/-- Where the labels of a name are parsed, its end is found. -/
theorem findNameEnd_of_parseLabels {data : List UInt8} {offset : ℕ} {parts labels : List String}
    (h : parseLabels data offset parts = .ok (some labels)) :
    ∃ stop, findNameEnd data offset = .ok (some stop) := by
  induction hleft : data.length - offset using Nat.strong_induction_on
    generalizing offset parts with
  | _ left ih =>
      rw [parseLabels] at h
      rw [findNameEnd]
      by_cases hpos : offset < data.length
      · rw [if_pos hpos, read_eq hpos, ok_bind] at h ⊢
        split_ifs with hzero hpointer
        · exact ⟨_, rfl⟩
        · exact ⟨_, rfl⟩
        · rw [if_neg hzero, if_neg hpointer] at h
          by_cases hcut : data.length < offset + 1 + data[offset].toNat
          · rw [if_pos hcut] at h
            cases h
          · rw [if_neg hcut, slice_eq (Nat.le_add_right _ _) (not_lt.mp hcut), ok_bind] at h
            exact ih _ (by omega) h rfl
      · rw [if_neg hpos] at h
        cases h

/-- **The two walks agree.**  Where a name is parsed, its end is found. -/
theorem findNameEnd_of_parseDnsName {data : List UInt8} {offset : ℕ} {name : String}
    (h : parseDnsName data offset = .ok (some name)) :
    ∃ stop, findNameEnd data offset = .ok (some stop) := by
  obtain ⟨r, hlabels⟩ := parseLabels_safe data offset []
  rw [parseDnsName, hlabels, ok_bind] at h
  cases r with
  | none => cases h
  | some labels => exact findNameEnd_of_parseLabels hlabels

end Safety

/-! ## Names -/

/-- The names that `find_name_end` walks over: labels with their lengths before them, and at the end
a zero or a pointer.  A length is any byte that is neither. -/
inductive IsName : List UInt8 → Prop
  | root : IsName [0]
  | pointer (high low : UInt8) (h : high &&& 0xC0 = 0xC0) : IsName [high, low]
  | label (len : UInt8) (label name : List UInt8) (hzero : len ≠ 0)
      (hpointer : len &&& 0xC0 ≠ 0xC0) (hlen : label.length = len.toNat) (h : IsName name) :
      IsName (len :: (label ++ name))

section Names

/-- The end of a name is found. -/
theorem findNameEnd_of_isName {name : List UInt8} (h : IsName name) (rest : List UInt8) :
    ∀ pre : List UInt8, findNameEnd (pre ++ (name ++ rest)) pre.length =
      .ok (some (pre.length + name.length)) := by
  induction h with
  | root =>
      intro pre
      have hpos : pre.length < (pre ++ ([0] ++ rest)).length := by simp
      have hread : read (pre ++ ([0] ++ rest)) pre.length = .ok 0 := read_append _ _ rfl
      rw [findNameEnd, if_pos hpos, hread, ok_bind, if_pos rfl]
      rfl
  | pointer high low hpointer =>
      intro pre
      have hpos : pre.length < (pre ++ ([high, low] ++ rest)).length := by simp
      have hread : read (pre ++ ([high, low] ++ rest)) pre.length = .ok high :=
        read_append _ _ rfl
      have hzero : high ≠ 0 := by
        rintro rfl
        exact absurd hpointer (by decide)
      rw [findNameEnd, if_pos hpos, hread, ok_bind, if_neg hzero, if_pos hpointer]
      rfl
  | label len label name hzero hpointer hlen hname ih =>
      intro pre
      have hsplit : pre ++ (len :: (label ++ name) ++ rest) =
          pre ++ (len :: label) ++ (name ++ rest) := by simp
      have hpos : pre.length < (pre ++ (len :: (label ++ name) ++ rest)).length := by simp
      have hread : read (pre ++ (len :: (label ++ name) ++ rest)) pre.length = .ok len :=
        read_append _ _ rfl
      have hbehind : pre.length + 1 + len.toNat = (pre ++ len :: label).length := by
        rw [List.length_append, List.length_cons, hlen]
        omega
      rw [findNameEnd, if_pos hpos, hread, ok_bind, if_neg hzero, if_neg hpointer, hbehind, hsplit,
        ih (pre ++ len :: label)]
      simp only [List.length_append, List.length_cons]
      congr 2
      omega

/-- Where the end of a name is found within the bytes, there is a name. -/
theorem isName_of_findNameEnd {data : List UInt8} {offset stop : ℕ}
    (h : findNameEnd data offset = .ok (some stop)) (hstop : stop ≤ data.length) :
    ∃ pre name rest, data = pre ++ (name ++ rest) ∧ pre.length = offset ∧ IsName name ∧
      offset + name.length = stop := by
  induction hleft : data.length - offset using Nat.strong_induction_on generalizing offset with
  | _ left ih =>
      rw [findNameEnd] at h
      by_cases hpos : offset < data.length
      · rw [if_pos hpos, read_eq hpos, ok_bind] at h
        by_cases hzero : data[offset] = 0
        · rw [if_pos hzero] at h
          cases h
          refine ⟨data.take offset, [0], data.drop (offset + 1), ?_, by simp; omega, .root, rfl⟩
          rw [← hzero, List.singleton_append, List.getElem_cons_drop, List.take_append_drop]
        · rw [if_neg hzero] at h
          by_cases hpointer : data[offset] &&& 0xC0 = 0xC0
          · rw [if_pos hpointer] at h
            cases h
            have hsecond : offset + 1 < data.length := by omega
            refine ⟨data.take offset, [data[offset], data[offset + 1]], data.drop (offset + 2), ?_,
              by simp; omega, .pointer _ _ hpointer, rfl⟩
            rw [List.cons_append, List.singleton_append, List.getElem_cons_drop,
              List.getElem_cons_drop, List.take_append_drop]
          · rw [if_neg hpointer] at h
            obtain ⟨pre, name, rest, hdata, hpre, hname, hlen⟩ := ih _ (by omega) h rfl
            have hlt : offset < pre.length := by omega
            have hlen₁ : data[offset] = pre[offset] := by
              simp only [hdata, List.getElem_append_left hlt]
            have hsplit : pre.take offset ++ pre[offset] :: pre.drop (offset + 1) = pre := by
              rw [List.getElem_cons_drop, List.take_append_drop]
            have hlabel : (pre.drop (offset + 1)).length = pre[offset].toNat := by
              rw [List.length_drop, hpre, hlen₁]
              omega
            rw [hlen₁] at hzero hpointer hlen
            refine ⟨pre.take offset, pre[offset] :: (pre.drop (offset + 1) ++ name), rest, ?_,
              by simp; omega, .label _ _ _ hzero hpointer hlabel hname, ?_⟩
            · rw [List.cons_append, List.append_assoc, ← List.cons_append, ← List.append_assoc,
                hsplit, hdata]
            · rw [List.length_cons, List.length_append, hlabel]
              omega
      · rw [if_neg hpos] at h
        cases h

end Names

/-! ## Well-formed responses -/

/-- The end of a name: a zero, or a pointer to another name. -/
inductive NameEnding where
  | root
  | pointer (high low : UInt8)

/-- A name: its labels have 1 to 63 bytes. -/
structure DnsName where
  labels : List (List UInt8)
  ending : NameEnding
  label_length : ∀ label ∈ labels, 1 ≤ label.length ∧ label.length ≤ 63

/-- A question. -/
structure Question where
  name : DnsName
  qtype : UInt16
  qclass : UInt16

/-- A record.  The data of an A record is an address. -/
structure ResourceRecord where
  name : DnsName
  rtype : UInt16
  rclass : UInt16
  ttl : UInt32
  rdata : List UInt8
  length_rdata : rdata.length < 2 ^ 16
  address : rtype = QTYPE_A → rdata.length = 4

/-- A response without an error.  Its sections have as many entries as their counts can say. -/
structure DnsResponse where
  id : UInt16
  flags : UInt8
  rcode : UInt8
  questions : List Question
  answers : List ResourceRecord
  authority : List ResourceRecord
  additional : List ResourceRecord
  rcode_zero : rcode &&& 0x0F = 0
  length_questions : questions.length < 2 ^ 16
  length_answers : answers.length < 2 ^ 16
  length_authority : authority.length < 2 ^ 16
  length_additional : additional.length < 2 ^ 16

/-- The bytes of the end of a name. -/
def NameEnding.encode : NameEnding → List UInt8
  | root => [0]
  | pointer high low => [0xC0 ||| high, low]

/-- Labels with their lengths before them. -/
def encodeLabels (labels : List (List UInt8)) (ending : List UInt8) : List UInt8 :=
  labels.foldr (fun label name => UInt8.ofNat label.length :: (label ++ name)) ending

/-- The bytes of a name. -/
def DnsName.encode (n : DnsName) : List UInt8 :=
  encodeLabels n.labels n.ending.encode

/-- The bytes of a question. -/
def Question.encode (q : Question) : List UInt8 :=
  q.name.encode ++ (u16ToBe q.qtype ++ u16ToBe q.qclass)

/-- The bytes of a record with this name. -/
def encodeRecord (name : List UInt8) (rtype rclass : UInt16) (ttl : UInt32) (rdata : List UInt8) :
    List UInt8 :=
  name ++ (u16ToBe rtype ++ (u16ToBe rclass ++ (u32ToBe ttl ++
    (u16ToBe (.ofNat rdata.length) ++ rdata))))

/-- The bytes of a record. -/
def ResourceRecord.encode (r : ResourceRecord) : List UInt8 :=
  encodeRecord r.name.encode r.rtype r.rclass r.ttl r.rdata

/-- The bytes of a response. -/
def DnsResponse.encode (m : DnsResponse) : List UInt8 :=
  u16ToBe m.id ++ [m.flags, m.rcode] ++ u16ToBe (.ofNat m.questions.length) ++
    u16ToBe (.ofNat m.answers.length) ++ u16ToBe (.ofNat m.authority.length) ++
    u16ToBe (.ofNat m.additional.length) ++
    (m.questions.flatMap Question.encode ++ (m.answers.flatMap ResourceRecord.encode ++
      (m.authority.flatMap ResourceRecord.encode ++
        m.additional.flatMap ResourceRecord.encode)))

section Responses

theorem isName_ending (e : NameEnding) : IsName e.encode := by
  cases e with
  | root => exact .root
  | pointer high low =>
      refine .pointer _ low ?_
      apply UInt8.eq_of_toBitVec_eq
      ext i
      have habsorb : ∀ a b : Bool, ((a || b) && a) = a := by decide
      rw [UInt8.toBitVec_and, UInt8.toBitVec_or, BitVec.getElem_and, BitVec.getElem_or]
      exact habsorb _ _

theorem isName_encodeLabels {ending : List UInt8} (hending : IsName ending) :
    ∀ labels : List (List UInt8), (∀ label ∈ labels, 1 ≤ label.length ∧ label.length ≤ 63) →
      IsName (encodeLabels labels ending) := by
  intro labels
  induction labels with
  | nil => exact fun _ => hending
  | cons label labels ih =>
      intro hlabels
      obtain ⟨hpos, hle⟩ := hlabels label List.mem_cons_self
      have hall : ∀ n ≤ 63, 1 ≤ n → UInt8.ofNat n ≠ 0 ∧ UInt8.ofNat n &&& 0xC0 ≠ 0xC0 := by
        decide
      obtain ⟨hzero, hpointer⟩ := hall label.length hle hpos
      have hlen : label.length = (UInt8.ofNat label.length).toNat := by
        rw [UInt8.toNat_ofNat']
        omega
      exact .label _ label _ hzero hpointer hlen
        (ih fun other hother => hlabels other (List.mem_cons_of_mem _ hother))

/-- What is encoded as a name is one. -/
theorem isName_encode (n : DnsName) : IsName n.encode :=
  isName_encodeLabels (isName_ending n.ending) n.labels n.label_length

/-- A question is skipped: a name and four bytes. -/
theorem skipQuestions_succ {name fixed : List UInt8} (hname : IsName name)
    (hfixed : fixed.length = 4) (count : ℕ) (pre rest : List UInt8) :
    skipQuestions (pre ++ (name ++ fixed ++ rest)) (count + 1) pre.length =
      skipQuestions (pre ++ (name ++ fixed ++ rest)) count (pre ++ (name ++ fixed)).length := by
  have hend := findNameEnd_of_isName hname (fixed ++ rest) pre
  rw [← List.append_assoc name] at hend
  rw [skipQuestions, hend, ok_bind]
  dsimp only
  congr 1
  simp only [List.length_append, hfixed, Nat.add_assoc]

/-- **The questions are skipped.** -/
theorem skipQuestions_encode (questions : List Question) (rest : List UInt8) :
    ∀ pre : List UInt8,
      skipQuestions (pre ++ (questions.flatMap Question.encode ++ rest)) questions.length
          pre.length =
        .ok (some (pre ++ questions.flatMap Question.encode).length) := by
  induction questions with
  | nil =>
      intro pre
      rw [List.flatMap_nil, List.append_nil]
      rfl
  | cons q questions ih =>
      intro pre
      have hsplit : pre ++ ((q :: questions).flatMap Question.encode ++ rest) =
          pre ++ (q.encode ++ (questions.flatMap Question.encode ++ rest)) := by
        rw [List.flatMap_cons, List.append_assoc]
      have hfixed : (u16ToBe q.qtype ++ u16ToBe q.qclass).length = 4 := rfl
      have hfirst := skipQuestions_succ (isName_encode q.name) hfixed questions.length pre
        (questions.flatMap Question.encode ++ rest)
      have hnext := ih (pre ++ q.encode)
      rw [List.append_assoc] at hnext
      rw [hsplit, List.length_cons, List.flatMap_cons]
      refine (hfirst.trans hnext).trans ?_
      rw [List.append_assoc]

/-- A record is read: it ends the search, or it is passed. -/
theorem firstARecord_succ {name : List UInt8} (hname : IsName name) (rtype rclass : UInt16)
    (ttl : UInt32) {rdata : List UInt8} (hrdata : rdata.length < 2 ^ 16) (count : ℕ)
    (pre rest : List UInt8) :
    firstARecord (pre ++ (encodeRecord name rtype rclass ttl rdata ++ rest)) (count + 1)
        pre.length =
      if rtype = QTYPE_A ∧ rdata.length = 4 then .ok (some rdata)
      else firstARecord (pre ++ (encodeRecord name rtype rclass ttl rdata ++ rest)) count
        (pre ++ encodeRecord name rtype rclass ttl rdata).length := by
  set response := pre ++ (encodeRecord name rtype rclass ttl rdata ++ rest) with hresponse
  have hsplit : response = pre ++ (name ++ (u16ToBe rtype ++ (u16ToBe rclass ++ (u32ToBe ttl ++
      (u16ToBe (.ofNat rdata.length) ++ (rdata ++ rest)))))) := by
    rw [hresponse, encodeRecord]
    simp only [List.append_assoc]
  have hlen : (UInt16.ofNat rdata.length).toNat = rdata.length := by
    rw [UInt16.toNat_ofNat', Nat.mod_eq_of_lt hrdata]
  have hencode : (pre ++ encodeRecord name rtype rclass ttl rdata).length =
      pre.length + name.length + 10 + rdata.length := by
    simp only [encodeRecord, List.length_append, length_u16ToBe, length_u32ToBe]
    omega
  have hlength : response.length = pre.length + name.length + 10 + rdata.length + rest.length := by
    rw [hresponse, ← List.append_assoc, List.length_append, hencode]
  have hend : findNameEnd response pre.length = .ok (some (pre.length + name.length)) := by
    rw [hsplit]
    exact findNameEnd_of_isName hname _ pre
  have hrtype : readU16 response (pre.length + name.length) = .ok rtype := by
    rw [hsplit, ← List.append_assoc]
    exact readU16_append _ _ (by simp)
  have hrdlength : readU16 response (pre.length + name.length + 8) =
      .ok (.ofNat rdata.length) := by
    have hfront : response = pre ++ name ++ u16ToBe rtype ++ u16ToBe rclass ++ u32ToBe ttl ++
        (u16ToBe (.ofNat rdata.length) ++ (rdata ++ rest)) := by
      rw [hsplit]
      simp only [List.append_assoc]
    rw [hfront]
    exact readU16_append _ _ (by simp [Nat.add_assoc])
  have hslice : slice response (pre.length + name.length + 10)
      (pre.length + name.length + 10 + rdata.length) = .ok rdata := by
    have hfront : response = pre ++ name ++ u16ToBe rtype ++ u16ToBe rclass ++ u32ToBe ttl ++
        u16ToBe (.ofNat rdata.length) ++ (rdata ++ rest) := by
      rw [hsplit]
      simp only [List.append_assoc]
    rw [hfront]
    exact slice_append rest (by simp [Nat.add_assoc]) rfl
  rw [firstARecord, hend, ok_bind]
  dsimp only
  rw [if_neg (by omega), hrtype, ok_bind, hrdlength, ok_bind, hlen, if_neg (by omega)]
  by_cases hfound : rtype = QTYPE_A ∧ rdata.length = 4
  · rw [hfound.2] at hslice
    rw [if_pos hfound, if_pos hfound, hslice, ok_bind]
    rfl
  · rw [if_neg hfound, if_neg hfound, hencode]

/-- **The first A record** of the answers is found. -/
theorem firstARecord_encode (answers : List ResourceRecord) (rest : List UInt8) :
    ∀ pre : List UInt8,
      firstARecord (pre ++ (answers.flatMap ResourceRecord.encode ++ rest)) answers.length
          pre.length =
        .ok ((answers.find? fun r => decide (r.rtype = QTYPE_A)).map fun r => r.rdata) := by
  induction answers with
  | nil => exact fun pre => rfl
  | cons r answers ih =>
      intro pre
      have hsplit : pre ++ ((r :: answers).flatMap ResourceRecord.encode ++ rest) =
          pre ++ (r.encode ++ (answers.flatMap ResourceRecord.encode ++ rest)) := by
        rw [List.flatMap_cons, List.append_assoc]
      have hfirst := firstARecord_succ (isName_encode r.name) r.rtype r.rclass r.ttl r.length_rdata
        answers.length pre (answers.flatMap ResourceRecord.encode ++ rest)
      have hnext := ih (pre ++ r.encode)
      rw [List.append_assoc] at hnext
      rw [hsplit, List.length_cons]
      refine hfirst.trans ?_
      by_cases ha : r.rtype = QTYPE_A
      · have hfind : (r :: answers).find? (fun r => decide (r.rtype = QTYPE_A)) = some r :=
          List.find?_cons_of_pos (decide_eq_true ha)
        rw [if_pos ⟨ha, r.address ha⟩, hfind]
        rfl
      · have hfind : (r :: answers).find? (fun r => decide (r.rtype = QTYPE_A)) =
            answers.find? fun r => decide (r.rtype = QTYPE_A) :=
          List.find?_cons_of_neg (by simpa using ha)
        rw [if_neg (fun h => ha h.1), hfind]
        exact hnext

/-- Behind a header without an error, the questions are skipped and the answers searched. -/
theorem extractARecordIp_header {response txnId others body : List UInt8} {flags rcode : UInt8}
    {qdcount ancount : UInt16} {offset : ℕ} (hresponse : response = txnId ++ [flags, rcode] ++
      u16ToBe qdcount ++ u16ToBe ancount ++ others ++ body)
    (hid : txnId.length = 2) (hrcode : rcode &&& 0x0F = 0) (hothers : others.length = 4)
    (hskip : skipQuestions response qdcount.toNat 12 = .ok (some offset)) :
    extractARecordIp response = firstARecord response ancount.toNat offset := by
  have hlong : ¬response.length < 12 := by
    rw [hresponse]
    simp only [List.length_append, hid, hothers, length_u16ToBe, List.length_cons, List.length_nil]
    omega
  have hread : read response 3 = .ok rcode := by
    have hsplit : response = txnId ++ [flags] ++ rcode :: (u16ToBe qdcount ++ u16ToBe ancount ++
        others ++ body) := by
      rw [hresponse]
      simp
    rw [hsplit]
    exact read_append _ _ (by simp [hid])
  have hqdcount : readU16 response 4 = .ok qdcount := by
    have hsplit : response = txnId ++ [flags, rcode] ++ (u16ToBe qdcount ++ (u16ToBe ancount ++
        others ++ body)) := by
      rw [hresponse]
      simp
    rw [hsplit]
    exact readU16_append _ _ (by simp [hid])
  have hancount : readU16 response 6 = .ok ancount := by
    have hsplit : response = txnId ++ [flags, rcode] ++ u16ToBe qdcount ++ (u16ToBe ancount ++
        (others ++ body)) := by
      rw [hresponse]
      simp
    rw [hsplit]
    exact readU16_append _ _ (by simp [hid])
  rw [extractARecordIp, if_neg hlong, hread, ok_bind, if_neg (not_not.mpr hrcode), hqdcount,
    ok_bind, hancount, ok_bind]
  by_cases hnone : ancount = 0
  · rw [if_pos hnone, hnone]
    rfl
  · rw [if_neg hnone, hskip, ok_bind]

theorem toNat_ofNat_count {n : ℕ} (h : n < 2 ^ 16) : (UInt16.ofNat n).toNat = n := by
  rw [UInt16.toNat_ofNat', Nat.mod_eq_of_lt h]

/-- **The first A record** of a well-formed response is found. -/
theorem extractARecordIp_encode (m : DnsResponse) :
    extractARecordIp m.encode =
      .ok ((m.answers.find? fun r => decide (r.rtype = QTYPE_A)).map fun r => r.rdata) := by
  set others := u16ToBe (.ofNat m.authority.length) ++ u16ToBe (.ofNat m.additional.length)
    with hothers
  set behind := m.authority.flatMap ResourceRecord.encode ++
    m.additional.flatMap ResourceRecord.encode with hbehind
  set header := u16ToBe m.id ++ [m.flags, m.rcode] ++ u16ToBe (.ofNat m.questions.length) ++
    u16ToBe (.ofNat m.answers.length) ++ others with hheader
  have hencode : m.encode = header ++ (m.questions.flatMap Question.encode ++
      (m.answers.flatMap ResourceRecord.encode ++ behind)) := by
    rw [DnsResponse.encode, hheader, hothers, hbehind]
    simp only [List.append_assoc]
  have hskip := skipQuestions_encode m.questions (m.answers.flatMap ResourceRecord.encode ++ behind)
    header
  have hanswers := firstARecord_encode m.answers behind
    (header ++ m.questions.flatMap Question.encode)
  rw [List.append_assoc, ← hencode] at hanswers
  rw [← hencode, ← toNat_ofNat_count m.length_questions] at hskip
  rw [extractARecordIp_header hencode rfl m.rcode_zero rfl hskip,
    toNat_ofNat_count m.length_answers, hanswers]

end Responses

/-! ## Built responses -/

section Built

/-- The question of an accepted query is a name and four bytes. -/
theorem parseQuestion_eq {query : List UInt8} {q : DnsQuestion}
    (h : parseQuestion query = .ok (some q)) :
    (∃ name fixed, slice query 12 q.qEnd = .ok (name ++ fixed) ∧ IsName name ∧
      fixed.length = 4) ∧ q.nameEnd + 4 ≤ query.length := by
  rw [parseQuestion] at h
  split_ifs at h with hshort
  · cases h
  · obtain ⟨parsed, hparsed⟩ := parseDnsName_safe query 12
    obtain ⟨found, hfound⟩ := findNameEnd_safe query 12
    rw [hparsed, ok_bind] at h
    cases parsed with
    | none => cases h
    | some text =>
        dsimp only at h
        rw [hfound, ok_bind] at h
        cases found with
        | none => cases h
        | some nameEnd =>
            dsimp only at h
            split_ifs at h with hcut
            · cases h
            · rw [readU16_eq (by omega), ok_bind] at h
              cases h
              obtain ⟨pre, name, rest, hquery, hpre, hname, hend⟩ :=
                isName_of_findNameEnd hfound (by omega)
              have hrest : 4 ≤ rest.length := by
                have hlength := congrArg List.length hquery
                simp only [List.length_append] at hlength
                omega
              refine ⟨⟨name, rest.take 4, ?_, hname, List.length_take_of_le hrest⟩,
                not_lt.mp hcut⟩
              have hsplit : query = pre ++ ((name ++ rest.take 4) ++ rest.drop 4) := by
                rw [hquery, List.append_assoc, List.take_append_drop]
              show slice query 12 (nameEnd + 4) = _
              rw [hsplit]
              refine slice_append _ hpre.symm ?_
              rw [List.length_append, List.length_take_of_le hrest]
              omega

/-- **A built response** has the address that it was built from. -/
theorem extractARecordIp_buildAResponse {txnId name fixed : List UInt8} (hid : txnId.length = 2)
    (hname : IsName name) (hfixed : fixed.length = 4) (ip : Ipv4Addr) :
    ∃ response, buildAResponse txnId (name ++ fixed) ip.octets = some response ∧
      extractARecordIp response = .ok (some ip.octets) := by
  set header := txnId ++ [0x81, 0x80] ++ u16ToBe 1 ++ u16ToBe 1 ++ [0, 0, 0, 0] with hheader
  set record := encodeRecord [0xC0, 0x0C] QTYPE_A 1 60 ip.octets with hrecord
  have hbuilt : buildAResponse txnId (name ++ fixed) ip.octets =
      some (header ++ (name ++ fixed ++ record)) := by
    have hone : u16ToBe 1 = [0x00, 0x01] := by decide
    have httl : u32ToBe 60 = [0x00, 0x00, 0x00, 0x3C] := by decide
    have hfour : u16ToBe (.ofNat ip.octets.length) = [0x00, 0x04] := by
      show u16ToBe 4 = _
      decide
    rw [buildAResponse, responseHeader, hheader, hrecord, encodeRecord, QTYPE_A, hone, httl, hfour]
    simp only [List.append_assoc]
    rfl
  have hlength : header.length = 12 := by
    rw [hheader]
    simp [hid]
  refine ⟨_, hbuilt, ?_⟩
  have hskip : skipQuestions (header ++ (name ++ fixed ++ record)) (1 : UInt16).toNat 12 =
      .ok (some (header ++ (name ++ fixed)).length) := by
    rw [← hlength]
    exact skipQuestions_succ hname hfixed 0 header record
  have hfour : ip.octets.length = 4 := rfl
  have hip : ip.octets.length < 2 ^ 16 := by
    rw [hfour]
    decide
  have hanswer := firstARecord_succ (.pointer 0xC0 0x0C rfl) QTYPE_A 1 60 hip 0
    (header ++ (name ++ fixed)) []
  rw [if_pos ⟨rfl, rfl⟩, List.append_nil, List.append_assoc header] at hanswer
  exact (extractARecordIp_header rfl hid rfl rfl hskip).trans hanswer

end Built

/-! ## Whole queries -/

section Queries

theorem parseQuestion_safe (query : List UInt8) : ∃ r, parseQuestion query = .ok r := by
  rw [parseQuestion]
  split_ifs with hshort
  · exact ⟨_, rfl⟩
  · refine exists_ok_bind (parseDnsName_safe query 12) fun parsed _ => ?_
    cases parsed with
    | none => exact ⟨_, rfl⟩
    | some text =>
        refine exists_ok_bind (findNameEnd_safe query 12) fun found _ => ?_
        cases found with
        | none => exact ⟨_, rfl⟩
        | some nameEnd =>
            dsimp only
            split_ifs with hcut
            · exact ⟨_, rfl⟩
            · rw [readU16_eq (by omega), ok_bind]
              exact ⟨_, rfl⟩

theorem dns64Forward_safe (upstream : List UInt8 → Option (List UInt8))
    {query question : List UInt8} {nameEnd qEnd : ℕ} (hend : nameEnd + 4 ≤ query.length)
    (hquestion : slice query 12 qEnd = .ok question) :
    ∃ r, dns64Forward upstream query nameEnd qEnd = .ok r := by
  rw [dns64Forward, write_eq _ (by omega), ok_bind,
    write_eq _ (by rw [List.length_set]; omega), ok_bind]
  cases upstream ((query.set nameEnd 0x00).set (nameEnd + 1) 0x01) with
  | none => exact ⟨_, rfl⟩
  | some response =>
      refine exists_ok_bind (extractARecordIp_safe response) fun extracted _ => ?_
      cases extracted with
      | none => exact ⟨_, rfl⟩
      | some ipv4 =>
          dsimp only
          rw [slice_eq (by decide) (by omega), ok_bind, hquestion, ok_bind]
          exact ⟨_, rfl⟩

/-- **Safety.**  A query is handled within bounds, whatever its bytes and those of the upstream
response are. -/
theorem handleDnsQuery_safe (d : DnsServer) (upstream : List UInt8 → Option (List UInt8))
    (platformPrefix clusterId : UInt32) (domainSuffix srcIp : String) (query : List UInt8) :
    ∃ r, handleDnsQuery d upstream platformPrefix clusterId domainSuffix srcIp query = .ok r := by
  rw [handleDnsQuery]
  refine exists_ok_bind (parseQuestion_safe query) fun parsed hparsed => ?_
  cases parsed with
  | none => exact ⟨_, rfl⟩
  | some q =>
      obtain ⟨⟨name, fixed, hquestion, -, -⟩, hend⟩ := parseQuestion_eq hparsed
      dsimp only
      by_cases hinternal : domainSuffix.toList <:+ q.name.toList
      · rw [if_pos hinternal]
        cases d.resolveFrom srcIp q.name with
        | none => exact ⟨_, rfl⟩
        | some resolved =>
            dsimp only
            by_cases hoctets : (octetsOf resolved.1).length ≠ 4
            · rw [if_pos hoctets]
              exact ⟨_, rfl⟩
            · rw [if_neg hoctets, slice_eq (by decide) (by omega), ok_bind, hquestion, ok_bind]
              split_ifs
              · exact ⟨_, rfl⟩
              · rw [constructGhostIpv6, dif_pos (not_not.mp hoctets)]
                exact ⟨_, rfl⟩
              · exact ⟨_, rfl⟩
      · rw [if_neg hinternal]
        split_ifs
        · exact dns64Forward_safe upstream hend hquestion
        · exact ⟨_, rfl⟩

end Queries

/-- **DNS messages.**  Names and responses are read within bounds, whatever the bytes are.  Where a
name is parsed, its end is found.  In a well-formed response the first A record is found, if there
is one.  The response that is built for the question of an accepted query has the address that it
is built from. -/
theorem dns_messages :
    (∀ (data : List UInt8) (offset : ℕ),
      (∃ r, parseDnsName data offset = .ok r) ∧ ∃ r, findNameEnd data offset = .ok r) ∧
    (∀ response : List UInt8, ∃ r, extractARecordIp response = .ok r) ∧
    (∀ (data : List UInt8) (offset : ℕ) (name : String),
      parseDnsName data offset = .ok (some name) →
        ∃ stop, findNameEnd data offset = .ok (some stop)) ∧
    (∀ m : DnsResponse, extractARecordIp m.encode =
      .ok ((m.answers.find? fun r => decide (r.rtype = QTYPE_A)).map fun r => r.rdata)) ∧
    ∀ (query : List UInt8) (q : DnsQuestion), parseQuestion query = .ok (some q) →
      ∃ question, slice query 12 q.qEnd = .ok question ∧
        ∀ txnId : List UInt8, txnId.length = 2 → ∀ ip : Ipv4Addr,
          ∃ response, buildAResponse txnId question ip.octets = some response ∧
            extractARecordIp response = .ok (some ip.octets) := by
  refine ⟨fun data offset => ⟨parseDnsName_safe data offset, findNameEnd_safe data offset⟩,
    extractARecordIp_safe, fun data offset name h => findNameEnd_of_parseDnsName h,
    extractARecordIp_encode, ?_⟩
  intro query q h
  obtain ⟨⟨name, fixed, hquestion, hname, hfixed⟩, -⟩ := parseQuestion_eq h
  exact ⟨_, hquestion, fun txnId hid ip => extractARecordIp_buildAResponse hid hname hfixed ip⟩

/-- A query for the address of the name `a`. -/
def shortQuery : List UInt8 :=
  [0x12, 0x34, 1, 0, 0, 1, 0, 0, 0, 0, 0, 0, 1, 97, 0, 0, 1, 0, 1]

theorem parseDnsName_shortQuery : parseDnsName shortQuery 12 =
    .ok (some (".".intercalate [.ofList (Utf8.fromUtf8Lossy [97])])) := by
  have hlen : shortQuery.length = 19 := rfl
  have hlabel : read shortQuery 12 = .ok 1 := rfl
  have hroot : read shortQuery 14 = .ok 0 := rfl
  have htext : slice shortQuery 13 14 = .ok [97] := rfl
  have hlabels : parseLabels shortQuery 12 [] = .ok (some [.ofList (Utf8.fromUtf8Lossy [97])]) := by
    rw [parseLabels, hlen, if_pos (by decide), hlabel, ok_bind, if_neg (by decide),
      if_neg (by decide), if_neg (by decide)]
    show (slice shortQuery 13 14 >>= fun label =>
      parseLabels shortQuery 14 ([] ++ [String.ofList (Utf8.fromUtf8Lossy label)])) = _
    rw [htext, ok_bind, parseLabels, hlen, if_pos (by decide), hroot, ok_bind, if_pos rfl]
    rfl
  rw [parseDnsName, hlabels]
  rfl

/-- The query is accepted, and the response for `10.96.0.1` is decoded. -/
theorem dns_messages_shortQuery :
    (∃ name, parseDnsName shortQuery 12 = .ok (some name)) ∧
    (∃ stop, findNameEnd shortQuery 12 = .ok (some stop)) ∧
    ∃ q question response, parseQuestion shortQuery = .ok (some q) ∧
      slice shortQuery 12 q.qEnd = .ok question ∧
      buildAResponse [0x12, 0x34] question (Ipv4Addr.ofOctets 10 96 0 1).octets = some response ∧
      extractARecordIp response = .ok (some [10, 96, 0, 1]) := by
  have hname : IsName [1, 97, 0] :=
    .label 1 [97] [0] (by decide) (by decide) rfl .root
  have hend : findNameEnd shortQuery 12 = .ok (some 15) :=
    findNameEnd_of_isName hname [0, 1, 0, 1] [0x12, 0x34, 1, 0, 0, 1, 0, 0, 0, 0, 0, 0]
  have hparsed : parseQuestion shortQuery = .ok (some
      ⟨".".intercalate [.ofList (Utf8.fromUtf8Lossy [97])], 15, u16OfBe 0 1, 19⟩) := by
    have hshort : ¬shortQuery.length < 13 := by decide
    rw [parseQuestion, if_neg hshort, parseDnsName_shortQuery, ok_bind]
    dsimp only
    rw [hend, ok_bind]
    rfl
  obtain ⟨question, hquestion, hbuilt⟩ := dns_messages.2.2.2.2 _ _ hparsed
  obtain ⟨response, hresponse, hextract⟩ := hbuilt [0x12, 0x34] rfl (.ofOctets 10 96 0 1)
  exact ⟨⟨_, parseDnsName_shortQuery⟩, dns_messages.2.2.1 _ _ _ parseDnsName_shortQuery,
    _, question, response, hparsed, hquestion, hresponse, hextract⟩

end DnsServer

end K3rs
