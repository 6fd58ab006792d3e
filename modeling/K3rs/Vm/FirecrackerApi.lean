import K3rs.Lib.CheckedReads
import K3rs.Lib.Incremental
import K3rs.Lib.JsonPrefix
import K3rs.Lib.Lines
import K3rs.Lib.Utf8
import K3rs.Lib.Words
import K3rs.Vm.BootParams

/-!
# The Firecracker API client

`FcApiClient` writes HTTP requests to a Unix socket and reads the responses itself: it looks for the
end of the headers in everything that has arrived, takes the length of the body from the headers,
and reads on until the body is complete.

* `read_http_response_pieces`: what is returned depends on the bytes and not on how they arrive, no
  index is out of bounds, and nothing is missing if it is a response.
* `put_well_formed`: a well-formed response is understood, in any pieces and whatever follows.
* `put_request_well_formed`: so is the request, for a server that reads as the client does.
-/

namespace K3rs

open CheckedReads Incremental Json Lines Net Utf8 Words

/-! ## Texts -/

/-- `str::lines`. -/
def textLines (text : List Char) : List (List Char) :=
  let r := feed '\n' [] text
  r.1.map (fun line => if line.getLast? = some '\r' then line.dropLast else line) ++
    if r.2 = [] then [] else [r.2]

/-- `to_ascii_lowercase`. -/
def toAsciiLowercase (text : List Char) : List Char := text.map Char.toLower

/-- An error with what was being done, as `{:#}` shows it. -/
def context (doing error : String) : String := doing ++ ": " ++ error

namespace FcApiClient

/-! ## Responses -/

/-- What separates the headers from the body. -/
def headerEnd : List UInt8 := asBytes ['\r', '\n', '\r', '\n']

/-- A header line that has the length of the body. -/
def isContentLength (line : List Char) : Bool :=
  "content-length:".toList.isPrefixOf (toAsciiLowercase line)

/-- The length of the body; zero if there is none that can be read. -/
def contentLength (headerStr : List Char) : ℕ :=
  ((((textLines headerStr).find? isContentLength).bind fun l => (l.splitOn ':')[1]?).bind fun s =>
    fromStrRadix 10 (2 ^ 64) (trim s)).getD 0

/-- The status; 500 if there is none that can be read. -/
def statusCode (headerStr : List Char) : ℕ :=
  (((textLines headerStr).head?.bind fun l => (splitWhitespace l)[1]?).bind
    (fromStrRadix 10 (2 ^ 16))).getD 500

/-- What is tried after each read: a complete response, if there is one. -/
def parseResponse (buf : List UInt8) : Checked (Option (ℕ × List Char)) :=
  match positionOf headerEnd buf with
  | none => .ok none
  | some hdrEnd => do
      let header ← slice buf 0 hdrEnd
      let headerStr := fromUtf8Lossy header
      let bodyStart := hdrEnd + 4
      let bodyReceived := buf.length - bodyStart
      if bodyReceived ≥ contentLength headerStr then
        if contentLength headerStr > 0 ∧ bodyStart + contentLength headerStr ≤ buf.length then
          let body ← slice buf bodyStart (bodyStart + contentLength headerStr)
          return some (statusCode headerStr, fromUtf8Lossy body)
        else return some (statusCode headerStr, [])
      else return none

/-- What is said of a response that ends too early. -/
def incomplete (buf : List UInt8) : String :=
  "Firecracker closed connection before sending a complete response: " ++
    String.ofList ((fromUtf8Lossy buf).take 200)

/-- `read_http_response`; a read fails, gets some bytes, or gets none at the end of the stream. -/
def readHttpResponse : (buf : List UInt8) → List (Except String (List UInt8)) →
    Checked (Except String (ℕ × List Char))
  | buf, [] => .ok (.error (incomplete buf))
  | _, .error e :: _ => .ok (.error e)
  | buf, .ok piece :: rest =>
      if piece = [] then .ok (.error (incomplete buf))
      else do
        match ← parseResponse (buf ++ piece) with
        | some r => return .ok r
        | none => readHttpResponse (buf ++ piece) rest

/-! ## Requests -/

/-- The request of `put`. -/
def putRequest (path : String) (body : Json) : List UInt8 :=
  let bodyStr := asBytes (render body)
  asBytes ("PUT ".toList ++ path.toList ++ " HTTP/1.1\r\nHost: localhost\r\n".toList ++
    "Accept: application/json\r\nContent-Type: application/json\r\nContent-Length: ".toList ++
    (toString bodyStr.length).toList ++ "\r\n\r\n".toList) ++ bodyStr

/-- `put`, on a connection with these reads. -/
def put (path : String) (reads : List (Except String (List UInt8))) :
    Checked (Except String (List Char)) := do
  match ← readHttpResponse [] reads with
  | .error e => return .error (context ("PUT " ++ path) e)
  | .ok (status, body) =>
      if 200 ≤ status ∧ status < 300 then return .ok body
      else
        return .error ("Firecracker API error: HTTP " ++ toString status ++ " for PUT " ++ path ++
          " — " ++ String.ofList (trim body))

/-! ## Pieces -/

/-- The complete response at the beginning of some bytes. -/
def complete (buf : List UInt8) : Option (ℕ × List Char) :=
  (positionOf headerEnd buf).bind fun hdrEnd =>
    let headerStr := fromUtf8Lossy (buf.take hdrEnd)
    let body := buf.drop (hdrEnd + 4)
    if contentLength headerStr ≤ body.length then
      some (statusCode headerStr, fromUtf8Lossy (body.take (contentLength headerStr)))
    else none

theorem parseResponse_eq (buf : List UInt8) : parseResponse buf = .ok (complete buf) := by
  unfold parseResponse complete
  cases hpos : positionOf headerEnd buf with
  | none => rfl
  | some hdrEnd =>
      have hle : hdrEnd + 4 ≤ buf.length := positionOf_le hpos
      have hheader : slice buf 0 hdrEnd = .ok (buf.take hdrEnd) :=
        slice_eq (Nat.zero_le _) (by omega)
      simp only [hheader, ok_bind, Option.bind_some, List.length_drop]
      set n := contentLength (fromUtf8Lossy (buf.take hdrEnd)) with hn
      by_cases hbody : n ≤ buf.length - (hdrEnd + 4)
      · rw [if_pos hbody, if_pos hbody]
        by_cases hpos : n > 0
        · have hslice : slice buf (hdrEnd + 4) (hdrEnd + 4 + n) =
              .ok ((buf.drop (hdrEnd + 4)).take n) := by
            rw [slice_eq (Nat.le_add_right _ _) (by omega), Nat.add_sub_cancel_left]
          rw [if_pos ⟨hpos, by omega⟩, hslice]
          rfl
        · have hzero : n = 0 := Nat.eq_zero_of_not_pos hpos
          have hnil : fromUtf8Lossy [] = [] := by rw [fromUtf8Lossy]
          rw [if_neg fun h => hpos h.1, hzero, List.take_zero, hnil]
          rfl
      · rw [if_neg hbody, if_neg hbody]
        rfl

theorem headerEnd_ne_nil : headerEnd ≠ [] := List.cons_ne_nil _ _

theorem stable_complete : Stable complete := by
  intro buf r h more
  obtain ⟨hdrEnd, hpos, hr⟩ := Option.bind_eq_some_iff.mp h
  have hle : hdrEnd + 4 ≤ buf.length := positionOf_le hpos
  have htake : (buf ++ more).take hdrEnd = buf.take hdrEnd :=
    List.take_append_of_le_length (by omega)
  have hdrop : (buf ++ more).drop (hdrEnd + 4) = buf.drop (hdrEnd + 4) ++ more :=
    List.drop_append_of_le_length hle
  unfold complete
  rw [positionOf_append headerEnd_ne_nil hpos, Option.bind_some, htake, hdrop]
  simp only at hr ⊢
  split_ifs at hr with hbody
  cases hr
  have hlonger : contentLength (fromUtf8Lossy (buf.take hdrEnd)) ≤
      (buf.drop (hdrEnd + 4) ++ more).length := by
    rw [List.length_append]
    exact hbody.trans (Nat.le_add_right _ _)
  rw [if_pos hlonger, List.take_append_of_le_length hbody]

theorem readHttpResponse_eq (buf : List UInt8) (reads : List (Except String (List UInt8))) :
    readHttpResponse buf reads = .ok (readUntil complete incomplete buf reads) := by
  induction reads generalizing buf with
  | nil => rfl
  | cons read rest ih =>
      cases read with
      | error e => rfl
      | ok piece =>
          rw [readHttpResponse, readUntil]
          split_ifs with hpiece
          · rfl
          · rw [parseResponse_eq, ok_bind]
            cases complete (buf ++ piece) with
            | none => exact ih _
            | some r => rfl

theorem complete_nil : complete [] = none := rfl

/-- **What is returned depends on the bytes only.**  However the bytes of a stream arrive, and
whatever happens after them, no index is out of bounds; if they hold a complete response it is
returned, and if not the client says so at the end of the stream, or reports the failed read. -/
theorem read_http_response_pieces (pieces : List (List UInt8)) (hpieces : ∀ p ∈ pieces, p ≠ [])
    (after : List (Except String (List UInt8))) :
    readHttpResponse [] (pieces.map .ok ++ after) =
      match complete pieces.flatten with
      | some r => .ok (.ok r)
      | none => readHttpResponse pieces.flatten after := by
  rw [readHttpResponse_eq, readUntil_eq stable_complete hpieces complete_nil, List.nil_append]
  cases complete pieces.flatten with
  | some r => rfl
  | none => exact (readHttpResponse_eq _ _).symm

/-! ## Well-formed messages -/

/-- A line of a header. -/
def IsHeaderLine (line : List Char) : Prop :=
  line ≠ [] ∧ ∀ c ∈ line, 32 ≤ c.toNat ∧ c.toNat < 128

instance (line : List Char) : Decidable (IsHeaderLine line) :=
  @instDecidableAnd _ _ inferInstance
    (List.decidableBAll (fun c : Char => 32 ≤ c.toNat ∧ c.toNat < 128) line)

/-- A message with the length of its body in its headers. -/
structure HttpMessage where
  start : List Char
  before : List (List Char)
  lengthName : List Char
  after : List (List Char)
  body : List UInt8
  lines : ∀ line ∈ start :: before ++ lengthName :: after, IsHeaderLine line
  name : toAsciiLowercase lengthName = "content-length".toList
  first : ∀ line ∈ start :: before, isContentLength line = false
  size : body.length < 2 ^ 64

namespace HttpMessage

variable (m : HttpMessage)

/-- The line with the length. -/
def lengthLine : List Char := m.lengthName ++ ':' :: ' ' :: (toString m.body.length).toList

/-- All lines of the header. -/
def headerLines : List (List Char) := m.start :: m.before ++ m.lengthLine :: m.after

/-- The text of the header. -/
def headerText : List Char := List.intercalate ['\r', '\n'] m.headerLines

/-- The message as it is sent. -/
def bytes : List UInt8 := asBytes m.headerText ++ (headerEnd ++ m.body)

end HttpMessage

/-- Header lines have no line breaks. -/
theorem IsHeaderLine.notMem {line : List Char} (h : IsHeaderLine line) {c : Char}
    (hc : c.toNat < 32) : c ∉ line := by
  intro hmem
  have := (h.2 c hmem).1
  omega

theorem IsHeaderLine.byte_notMem {line : List Char} (h : IsHeaderLine line) :
    '\r'.toUInt8 ∉ asBytes line := by
  intro hmem
  obtain ⟨c, hc, hbyte⟩ := List.mem_flatMap.mp hmem
  rw [(toUInt8_mem_utf8EncodeChar (by decide)).mp hbyte] at hc
  exact h.notMem (by decide) hc

theorem exists_intercalate_cons {α : Type*} (sep line : List α) (lines : List (List α)) :
    ∃ tail, List.intercalate sep (line :: lines) = line ++ tail := by
  cases lines with
  | nil => exact ⟨[], by rw [List.intercalate_singleton, List.append_nil]⟩
  | cons next lines => exact ⟨_, by rw [List.intercalate_cons_cons, List.append_assoc]⟩

/-- The first byte of a line is no carriage return. -/
theorem IsHeaderLine.exists_cons {line : List Char} (h : IsHeaderLine line) (tail : List Char) :
    ∃ b bs, asBytes (line ++ tail) = b :: bs ∧ b ≠ '\r'.toUInt8 := by
  obtain ⟨c, line, rfl⟩ := List.exists_cons_of_ne_nil h.1
  obtain ⟨b, bs, hbytes, hb⟩ := exists_asBytes_cons c (line ++ tail)
  refine ⟨b, bs, hbytes, ?_⟩
  rintro rfl
  exact h.byte_notMem (List.mem_flatMap.mpr ⟨c, List.mem_cons_self, hb⟩)

/-- **The header ends behind its last line**, and not before. -/
theorem positionOf_headerLines {lines : List (List Char)} (hne : lines ≠ [])
    (h : ∀ line ∈ lines, IsHeaderLine line) (rest : List UInt8) :
    positionOf headerEnd (asBytes (List.intercalate ['\r', '\n'] lines) ++ (headerEnd ++ rest)) =
      some (asBytes (List.intercalate ['\r', '\n'] lines)).length := by
  have hhead : headerEnd = '\r'.toUInt8 :: ['\n'.toUInt8, '\r'.toUInt8, '\n'.toUInt8] := rfl
  induction lines with
  | nil => exact absurd rfl hne
  | cons line lines ih =>
      obtain ⟨hline, hlines⟩ := List.forall_mem_cons.mp h
      cases lines with
      | nil =>
          rw [List.intercalate_singleton, hhead, positionOf_append_of_notMem hline.byte_notMem,
            positionOf_self (List.cons_ne_nil _ _), Option.map_some, Nat.zero_add]
      | cons next lines =>
          have hrest := ih (List.cons_ne_nil _ _) hlines
          have hnext := hlines next List.mem_cons_self
          set joined := asBytes (List.intercalate ['\r', '\n'] (next :: lines)) with hjoined
          have hbytes : asBytes (List.intercalate ['\r', '\n'] (line :: next :: lines)) =
              asBytes line ++ ('\r'.toUInt8 :: '\n'.toUInt8 :: joined) := by
            rw [List.intercalate_cons_cons, asBytes_append, asBytes_append, List.append_assoc]
            rfl
          have hfirst : ∃ b bs, joined = b :: bs ∧ b ≠ '\r'.toUInt8 := by
            obtain ⟨tail, htail⟩ := exists_intercalate_cons ['\r', '\n'] next lines
            rw [hjoined, htail]
            exact hnext.exists_cons tail
          obtain ⟨b, bs, hb, hne⟩ := hfirst
          -- the line break is followed by the next line, and not by another one
          have hbreak :
              ¬ headerEnd <+: '\r'.toUInt8 :: '\n'.toUInt8 :: (joined ++ (headerEnd ++ rest)) := by
            rw [hb, hhead]
            intro hprefix
            have h₂ := (List.cons_prefix_cons.mp hprefix).2
            have h₃ := (List.cons_prefix_cons.mp h₂).2
            exact hne (List.cons_prefix_cons.mp h₃).1.symm
          have hfeed : ¬ headerEnd <+: '\n'.toUInt8 :: (joined ++ (headerEnd ++ rest)) := by
            rw [hhead]
            intro hprefix
            exact absurd (List.cons_prefix_cons.mp hprefix).1 (by decide)
          rw [hbytes, List.append_assoc, List.cons_append, List.cons_append]
          conv_lhs => rw [hhead]
          rw [positionOf_append_of_notMem hline.byte_notMem, ← hhead, positionOf_cons_of_not hbreak,
            positionOf_cons_of_not hfeed, hrest]
          simp only [Option.map_some, List.length_append, List.length_cons]
          refine congrArg some ?_
          omega

/-- The lines of a header. -/
theorem textLines_headerLines {lines : List (List Char)} (h : ∀ line ∈ lines, IsHeaderLine line) :
    textLines (List.intercalate ['\r', '\n'] lines) = lines := by
  have hunbroken : ∀ {line : List Char}, IsHeaderLine line → '\n' ∉ line :=
    fun hline => hline.notMem (by decide)
  induction lines with
  | nil => rfl
  | cons line lines ih =>
      obtain ⟨hline, hlines⟩ := List.forall_mem_cons.mp h
      cases lines with
      | nil =>
          rw [List.intercalate_singleton, textLines, feed_of_notMem (hunbroken hline)]
          simp only [List.nil_append, List.map_nil]
          rw [if_neg hline.1]
      | cons next lines =>
          have hrest := ih hlines
          have hbreak : '\n' ∉ line ++ ['\r'] := by
            intro hmem
            rcases List.mem_append.mp hmem with hmem | hmem
            · exact hunbroken hline hmem
            · exact absurd (List.mem_singleton.mp hmem) (by decide)
          have hsplit : List.intercalate ['\r', '\n'] (line :: next :: lines) =
              (line ++ ['\r']) ++ '\n' :: List.intercalate ['\r', '\n'] (next :: lines) := by
            rw [List.intercalate_cons_cons, List.append_assoc, List.append_assoc]
            rfl
          rw [textLines] at hrest ⊢
          rw [hsplit, feed_line hbreak]
          simp only [List.nil_append, List.map_cons, List.cons_append]
          rw [if_pos (by rw [List.getLast?_concat]), List.dropLast_concat, hrest]

namespace HttpMessage

variable (m : HttpMessage)

/-- The line with the length is a header line, too. -/
theorem isHeaderLine_lengthLine : IsHeaderLine m.lengthLine := by
  have hname : IsHeaderLine m.lengthName :=
    m.lines _ (List.mem_append_right _ List.mem_cons_self)
  have hdigit : ∀ c ∈ (toString m.body.length).toList, 32 ≤ c.toNat ∧ c.toNat < 128 := by
    intro c hc
    rw [toList_toString] at hc
    exact toNat_of_isSome_toDigit ((toDigits_spec (by decide) (by decide) m.body.length).1 c hc)
  refine ⟨List.append_ne_nil_of_left_ne_nil hname.1 _, fun c hc => ?_⟩
  rcases List.mem_append.mp hc with hc | hc
  · exact hname.2 c hc
  · rcases List.mem_cons.mp hc with rfl | hc
    · decide
    · rcases List.mem_cons.mp hc with rfl | hc
      · decide
      · exact hdigit c hc

theorem isHeaderLine_headerLines : ∀ line ∈ m.headerLines, IsHeaderLine line := by
  intro line hline
  rcases List.mem_append.mp hline with hline | hline
  · exact m.lines line (List.mem_append_left _ hline)
  · rcases List.mem_cons.mp hline with rfl | hline
    · exact m.isHeaderLine_lengthLine
    · exact m.lines line (List.mem_append_right _ (List.mem_cons_of_mem _ hline))

theorem ascii_headerText : ∀ c ∈ m.headerText, c.toNat < 128 := by
  refine forall_mem_intercalate ?_ fun line hline c hc =>
    ((m.isHeaderLine_headerLines line hline).2 c hc).2
  exact List.forall_mem_cons.mpr ⟨by decide, List.forall_mem_singleton.mpr (by decide)⟩

theorem isContentLength_lengthLine : isContentLength m.lengthLine = true := by
  have hlower : toAsciiLowercase m.lengthLine =
      "content-length:".toList ++ toAsciiLowercase (' ' :: (toString m.body.length).toList) := by
    have hname := m.name
    unfold toAsciiLowercase at hname ⊢
    rw [lengthLine, List.map_append, hname, List.map_cons]
    rfl
  unfold isContentLength
  rw [hlower, List.isPrefixOf_iff_prefix]
  exact List.prefix_append _ _

/-- The part of the line behind its first colon. -/
theorem splitOn_lengthLine :
    m.lengthLine.splitOn ':' = [m.lengthName, ' ' :: (toString m.body.length).toList] := by
  have hname : ∀ c ∈ m.lengthName, (c == ':') = false := by
    intro c hc
    refine beq_false_of_ne ?_
    rintro rfl
    have hmem : Char.toLower ':' ∈ toAsciiLowercase m.lengthName := List.mem_map_of_mem hc
    rw [m.name] at hmem
    revert hmem
    decide
  have hdigits : ∀ c ∈ ' ' :: (toString m.body.length).toList, (c == ':') = false := by
    intro c hc
    refine beq_false_of_ne ?_
    rintro rfl
    rw [toList_toString] at hc
    have hsome := (toDigits_spec (by decide) (by decide) m.body.length).1 ':'
      ((List.mem_cons.mp hc).resolve_left (by decide))
    revert hsome
    decide
  unfold lengthLine
  rw [List.splitOn_eq_splitOnP, List.splitOnP_append_cons_of_forall_mem hname ':' rfl,
    List.splitOnP_eq_singleton hdigits]

/-- **The length is found**, whatever the case of its name. -/
theorem contentLength_headerText : contentLength m.headerText = m.body.length := by
  have hfind : (m.start :: m.before ++ m.lengthLine :: m.after).find? isContentLength =
      some m.lengthLine := by
    rw [List.find?_append, List.find?_eq_none.mpr fun line hline => by
      rw [m.first line hline]
      exact Bool.false_ne_true, Option.none_or, List.find?_cons_of_pos m.isContentLength_lengthLine]
  have hblank : Blankless (toString m.body.length).toList := blankless_toString _
  have htrim : trim (' ' :: (toString m.body.length).toList) = (toString m.body.length).toList := by
    rw [trim, List.dropWhile_cons_of_pos rfl]
    exact trim_of_ends (fun c hc => hblank c (List.mem_of_head? hc))
      fun c hc => hblank c (List.mem_of_getLast? hc)
  unfold contentLength headerText
  rw [textLines_headerLines m.isHeaderLine_headerLines, headerLines, hfind, Option.bind_some,
    splitOn_lengthLine, List.getElem?_cons_succ, List.getElem?_cons_zero, Option.bind_some, htrim,
    fromStrRadix_toString m.size, Option.getD_some]

/-- The status is what the first line says. -/
theorem statusCode_headerText :
    statusCode m.headerText = (((splitWhitespace m.start)[1]?).bind
      (fromStrRadix 10 (2 ^ 16))).getD 500 := by
  unfold statusCode headerText
  rw [textLines_headerLines m.isHeaderLine_headerLines]
  rfl

/-- **The message is understood**, whatever follows it. -/
theorem complete_bytes (rest : List UInt8) :
    complete (m.bytes ++ rest) = some (statusCode m.headerText, fromUtf8Lossy m.body) := by
  have hbytes : m.bytes ++ rest = asBytes m.headerText ++ (headerEnd ++ (m.body ++ rest)) := by
    unfold bytes
    rw [List.append_assoc, List.append_assoc]
  have hpos : positionOf headerEnd (m.bytes ++ rest) = some (asBytes m.headerText).length := by
    rw [hbytes]
    exact positionOf_headerLines (List.cons_ne_nil _ _) m.isHeaderLine_headerLines _
  have htake : (m.bytes ++ rest).take (asBytes m.headerText).length = asBytes m.headerText := by
    rw [hbytes, List.take_left]
  have hdrop : (m.bytes ++ rest).drop ((asBytes m.headerText).length + 4) = m.body ++ rest := by
    rw [hbytes, ← List.drop_drop, List.drop_left]
    rfl
  unfold complete
  rw [hpos, Option.bind_some, htake, hdrop, fromUtf8Lossy_ascii m.ascii_headerText]
  simp only
  rw [contentLength_headerText, List.take_left, if_pos (by simp)]

end HttpMessage

/-- **A well-formed response is understood**: its status decides, in whatever pieces it arrives and
whatever comes after it. -/
theorem put_well_formed (m : HttpMessage) (version reason : List Char) (code : ℕ)
    (hversion : version ≠ [] ∧ Blankless version) (hcode : code < 2 ^ 16)
    (hstart : m.start = version ++ ' ' :: ((toString code).toList ++ ' ' :: reason)) (path : String)
    {pieces : List (List UInt8)} (hpieces : ∀ p ∈ pieces, p ≠ []) (rest : List UInt8)
    (hbytes : pieces.flatten = m.bytes ++ rest) (after : List (Except String (List UInt8))) :
    put path (pieces.map .ok ++ after) =
      .ok (if 200 ≤ code ∧ code < 300 then .ok (fromUtf8Lossy m.body)
        else .error ("Firecracker API error: HTTP " ++ toString code ++ " for PUT " ++ path ++
          " — " ++ String.ofList (trim (fromUtf8Lossy m.body)))) := by
  have hdigits : (toString code).toList ≠ [] := by
    rw [toList_toString]
    exact Nat.toDigits_ne_nil
  have hwords : (splitWhitespace m.start)[1]? = some (toString code).toList := by
    rw [hstart, splitWhitespace_append_blank _ _ rfl, splitWhitespace_append_blank _ _ rfl,
      splitWhitespace_word hversion.1 hversion.2,
      splitWhitespace_word hdigits (blankless_toString code)]
    rfl
  have hstatus : statusCode m.headerText = code := by
    rw [m.statusCode_headerText, hwords, Option.bind_some, fromStrRadix_toString hcode]
    rfl
  unfold put
  rw [readHttpResponse_eq, readUntil_eq stable_complete hpieces complete_nil, List.nil_append,
    hbytes, m.complete_bytes, hstatus, ok_bind]
  simp only
  split_ifs
  · rfl
  · rfl

/-- A response to a request that was carried out. -/
def okMessage : HttpMessage where
  start := "HTTP/1.1 200 OK".toList
  before := ["Server: Firecracker API".toList]
  lengthName := "Content-length".toList
  after := []
  body := asBytes "\x7b\x7d".toList
  lines := by decide
  name := by decide
  first := by decide
  size := by decide

theorem put_well_formed_ok :
    put "/actions" ([okMessage.bytes.take 20, okMessage.bytes.drop 20].map .ok ++ [.error "reset"]) =
      .ok (.ok (fromUtf8Lossy okMessage.body)) :=
  put_well_formed okMessage "HTTP/1.1".toList "OK".toList 200 (by decide) (by decide) (by decide)
    "/actions" (by decide) [] (by decide) _

theorem read_http_response_pieces_ok :
    readHttpResponse [] ([okMessage.bytes.take 20, okMessage.bytes.drop 20].map .ok ++
      [.error "reset"]) = .ok (.ok (200, ['\x7b', '\x7d'])) := by
  have hcomplete : complete [okMessage.bytes.take 20, okMessage.bytes.drop 20].flatten =
      some (200, ['\x7b', '\x7d']) := by decide +kernel
  rw [read_http_response_pieces _ (by decide) _, hcomplete]

/-! ## The request -/

/-- The request as a message. -/
def requestMessage (path : String) (body : Json)
    (hpath : ∀ c ∈ path.toList, 32 ≤ c.toNat ∧ c.toNat < 128)
    (hbody : (asBytes (render body)).length < 2 ^ 64) : HttpMessage where
  start := "PUT ".toList ++ (path.toList ++ " HTTP/1.1".toList)
  before := ["Host: localhost".toList, "Accept: application/json".toList,
    "Content-Type: application/json".toList]
  lengthName := "Content-Length".toList
  after := []
  body := asBytes (render body)
  lines := by
    have hmethod : IsHeaderLine "PUT ".toList := by decide
    have hversion : IsHeaderLine " HTTP/1.1".toList := by decide
    refine List.forall_mem_cons.mpr ⟨⟨List.cons_ne_nil _ _, ?_⟩, by decide⟩
    exact List.forall_mem_append.mpr ⟨hmethod.2, List.forall_mem_append.mpr ⟨hpath, hversion.2⟩⟩
  name := by decide
  first := List.forall_mem_cons.mpr ⟨rfl, by decide⟩
  size := hbody

/-- **The request is well formed**: nothing in a printable path or in the body can be taken for the
end of the headers, and the length is that of the bytes behind them. -/
theorem put_request_well_formed (path : String) (body : Json)
    (hpath : ∀ c ∈ path.toList, 32 ≤ c.toNat ∧ c.toNat < 128)
    (hbody : (asBytes (render body)).length < 2 ^ 64) :
    (requestMessage path body hpath hbody).bytes = putRequest path body := by
  have hfirst : " HTTP/1.1\r\nHost: localhost\r\n".toList =
      " HTTP/1.1".toList ++ (['\r', '\n'] ++ ("Host: localhost".toList ++ ['\r', '\n'])) := by
    decide
  have hsecond : "Accept: application/json\r\nContent-Type: application/json\r\nContent-Length: ".toList =
      "Accept: application/json".toList ++ (['\r', '\n'] ++
        ("Content-Type: application/json".toList ++ (['\r', '\n'] ++
          ("Content-Length".toList ++ [':', ' '])))) := by decide
  have hjoin : ∀ digits : List Char, List.intercalate ['\r', '\n']
      ["PUT ".toList ++ (path.toList ++ " HTTP/1.1".toList), "Host: localhost".toList,
        "Accept: application/json".toList, "Content-Type: application/json".toList,
        "Content-Length".toList ++ ':' :: ' ' :: digits] =
      "PUT ".toList ++ path.toList ++ " HTTP/1.1\r\nHost: localhost\r\n".toList ++
        "Accept: application/json\r\nContent-Type: application/json\r\nContent-Length: ".toList ++
        digits := by
    intro digits
    rw [hfirst, hsecond]
    simp only [List.intercalate_cons_cons, List.intercalate_singleton, List.append_assoc,
      List.cons_append, List.nil_append]
  have hend : "\r\n\r\n".toList = ['\r', '\n', '\r', '\n'] := by decide
  show asBytes (List.intercalate ['\r', '\n'] [_, _, _, _, _]) ++ _ = _
  unfold putRequest
  simp only
  rw [hend, asBytes_append _ ['\r', '\n', '\r', '\n'], List.append_assoc, ← hjoin]
  rfl

end FcApiClient

end K3rs
