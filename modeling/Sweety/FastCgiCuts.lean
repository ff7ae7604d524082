import Sweety.FastCgiRecords
import Sweety.FastCgiRequest
import Sweety.FirstOccurrence

namespace Sweety.FastCgi

open HttpText SegmentedReader UpstreamResponse FcgiWire FirstOccurrence

/-!
# FastCGI responses, cut into records

A backend may cut its output into records as it likes.  The handler makes the
same of every cut, and splits the output at its first blank line, unless the
output has a blank line of two line feeds and, close behind it, one of two
CRLFs: a record that holds both is split at the second.
-/

/-! ## Records on the connection -/

theorem readExact_spec
    {bytes rest : List UInt8}
    {count : Nat}
    {reads back : List (Event IoError)}
    (isCount : bytes.length = count)
    (holds : Holds ⟨[], reads⟩ (bytes ++ rest) back) :
    ∃ after,
      readExact count reads = (.ok bytes, after) ∧
        Holds ⟨[], after⟩ rest back := by
  subst isCount
  obtain ⟨after, isPull, held⟩ := pullExact_spec bytes rest [] holds
  refine ⟨after, ?_, held⟩
  rw [readExact, isPull]
  rfl

/-- A record that is held is read, without its padding. -/
theorem readFcgiFromStream_bytes
    {reads : List (Event IoError)}
    {rest : List UInt8}
    {back : List (Event IoError)}
    (record : Record)
    (holds : Holds ⟨[], reads⟩ (record.bytes ++ rest) back) :
    ∃ after,
      readFcgiFromStream reads =
          (.ok ⟨record.recordType, record.content⟩, after) ∧
        Holds ⟨[], after⟩ rest back := by
  have isLength :
      (record.header.getD 4 0).toNat * 2 ^ 8 +
          (record.header.getD 5 0).toNat =
        record.content.length :=
    number_eq record.contentFits
  have isPadding :
      (record.header.getD 6 0).toNat = record.padding.length := by
    change (UInt8.ofNat record.padding.length).toNat = _
    rw [UInt8.toNat_ofNat', Nat.mod_eq_of_lt record.paddingFits]
  rw [Record.bytes, List.append_assoc, List.append_assoc,
    ← List.append_assoc record.content] at holds
  have eight : record.header.length = 8 := rfl
  obtain ⟨middle, isHeader, middleHeld⟩ := readExact_spec eight holds
  obtain ⟨after, isContent, held⟩ :=
    readExact_spec List.length_append middleHeld
  refine ⟨after, ?_, held⟩
  rw [readFcgiFromStream, isHeader]
  dsimp only
  rw [isLength, isPadding, isContent]
  dsimp only
  rw [List.take_left]
  rfl

/-- The records cut the output, and the last of them closes it. -/
inductive Cuts : List UInt8 → List Record → Prop where
  | closes
      {record : Record}
      (isType : record.recordType = stdoutType)
      (empty : record.content = []) :
      Cuts [] [record]
  | stdout
      {record : Record}
      {payload : List UInt8}
      {records : List Record}
      (isType : record.recordType = stdoutType)
      (nonempty : record.content ≠ [])
      (cuts : Cuts payload records) :
      Cuts (record.content ++ payload) (record :: records)
  | stderr
      {record : Record}
      {payload : List UInt8}
      {records : List Record}
      (isType : record.recordType = stderrType)
      (cuts : Cuts payload records) :
      Cuts payload (record :: records)

/-- The connection brings these records next. -/
def Brings
    (reads : List (Event IoError))
    (records : List Record) :
    Prop :=
  ∃ rest back,
    Holds ⟨[], reads⟩ (records.flatMap Record.bytes ++ rest) back

theorem Brings.read
    {reads : List (Event IoError)}
    {record : Record}
    {records : List Record}
    (brings : Brings reads (record :: records)) :
    ∃ after,
      readFcgiFromStream reads =
          (.ok ⟨record.recordType, record.content⟩, after) ∧
        Brings after records := by
  obtain ⟨rest, back, holds⟩ := brings
  rw [List.flatMap_cons, List.append_assoc] at holds
  obtain ⟨after, isRecord, held⟩ := readFcgiFromStream_bytes record holds
  exact ⟨after, isRecord, rest, back, held⟩

theorem stderr_ne_stdout
    {recordType : UInt8}
    (isType : recordType = stderrType) :
    recordType ≠ stdoutType := by
  rw [isType]
  decide

/-! ## The body -/

section Body

variable
  {payload : List UInt8}
  {records : List Record}
  {reads : List (Event IoError)}

/-- The task sends the output, piece by piece. -/
theorem Cuts.streamRecords
    (cuts : Cuts payload records)
    (brings : Brings reads records)
    {pieces : Pieces}
    (allData : AllData pieces) :
    ∃ all after,
      FastCgi.streamRecords takesAll pieces reads =
          (all, .ended true, after) ∧
        AllData all ∧
        delivered all = delivered pieces ++ payload := by
  induction cuts generalizing reads pieces with
  | closes isType empty =>
      obtain ⟨after, isRecord, _⟩ := brings.read
      rw [streamRecords_of_record pieces isRecord, if_pos isType,
        if_pos empty]
      exact ⟨pieces, after, rfl, allData, by simp⟩
  | @stdout record payload records isType nonempty cuts
      inductionHypothesis =>
      obtain ⟨after, isRecord, later⟩ := brings.read
      rw [streamRecords_of_record pieces isRecord, if_pos isType,
        if_neg nonempty]
      obtain ⟨all, final, isStream, isAllData, isDelivered⟩ :=
        inductionHypothesis later (allData.append record.content)
      refine ⟨all, final, isStream, isAllData, ?_⟩
      rw [isDelivered, delivered_append, pieceBytes, List.append_assoc]
  | stderr isType cuts inductionHypothesis =>
      obtain ⟨after, isRecord, later⟩ := brings.read
      rw [streamRecords_of_record pieces isRecord,
        if_neg (stderr_ne_stdout isType), if_pos isType]
      exact inductionHypothesis later allData

/-- The output is collected whole, or up to a place beyond the limit. -/
theorem Cuts.collectBody
    (cuts : Cuts payload records)
    (brings : Brings reads records)
    (body : List UInt8) :
    (∃ after,
      FastCgi.collectBody body reads = .whole (body ++ payload) after) ∨
    ∃ begun later after rest,
      FastCgi.collectBody body reads = .large begun after ∧
        begun ≠ [] ∧
        begun ++ later = body ++ payload ∧
        Cuts later rest ∧
        Brings after rest := by
  induction cuts generalizing reads body with
  | closes isType empty =>
      obtain ⟨after, isRecord, _⟩ := brings.read
      rw [collectBody_of_record body isRecord, if_pos isType,
        if_pos empty, List.append_nil]
      exact .inl ⟨after, rfl⟩
  | @stdout record payload records isType nonempty cuts
      inductionHypothesis =>
      obtain ⟨after, isRecord, later⟩ := brings.read
      rw [collectBody_of_record body isRecord, if_pos isType,
        if_neg nonempty, ← List.append_assoc]
      dsimp only
      split
      · exact .inr ⟨_, payload, after, records, rfl, by simp [nonempty],
          rfl, cuts, later⟩
      · exact inductionHypothesis later _
  | stderr isType cuts inductionHypothesis =>
      obtain ⟨after, isRecord, later⟩ := brings.read
      rw [collectBody_of_record body isRecord,
        if_neg (stderr_ne_stdout isType), if_pos isType]
      exact inductionHypothesis later body

end Body

/-! ## The headers -/

/-- Where the headers of some output end, as far as it has been read. -/
inductive HeadersRead
    (payload : List UInt8)
    (parsed : FcgiParsedHeaders)
    (later : List UInt8) :
    Prop where
  | never
      (noEnd : findHeaderEnd payload = none)
      (isParsed : parsed = ⟨payload, [], true⟩)
  | found
      {front data : List UInt8}
      {bodyStart textEnd : Nat}
      (isPayload : payload = front ++ data ++ later)
      (fits : data.length < 2 ^ 16)
      (notBefore : findHeaderEnd front = none)
      (isEnd : findHeaderEnd (front ++ data) = some (bodyStart, textEnd))
      (isParsed :
        parsed =
          ⟨(front ++ data).take textEnd, (front ++ data).drop bodyStart,
            false⟩)

/-- The headers end at a record, or with the output. -/
theorem Cuts.readHeaders
    {payload : List UInt8}
    {records : List Record}
    {reads : List (Event IoError)}
    (cuts : Cuts payload records)
    (brings : Brings reads records)
    {buffer : List UInt8}
    (noEnd : findHeaderEnd buffer = none) :
    ∃ parsed later after,
      readHeadersFromStream buffer reads = (.ok parsed, after) ∧
        HeadersRead (buffer ++ payload) parsed later ∧
        (parsed.bodyDone = false →
          ∃ rest, Cuts later rest ∧ Brings after rest) := by
  induction cuts generalizing reads buffer with
  | closes isType empty =>
      obtain ⟨after, isRecord, _⟩ := brings.read
      rw [readHeadersFromStream_of_record buffer isRecord, if_pos isType,
        if_pos empty]
      refine ⟨_, [], after, rfl, .never ?_ ?_, nofun⟩
      · rw [List.append_nil]
        exact noEnd
      · rw [List.append_nil]
  | @stdout record payload records isType nonempty cuts
      inductionHypothesis =>
      obtain ⟨after, isRecord, later⟩ := brings.read
      rw [readHeadersFromStream_of_record buffer isRecord, if_pos isType,
        if_neg nonempty, ← List.append_assoc]
      cases isEnd : findHeaderEnd (buffer ++ record.content) with
      | none =>
          exact inductionHypothesis later isEnd
      | some place =>
          obtain ⟨bodyStart, textEnd⟩ := place
          exact ⟨_, payload, after, rfl,
            .found rfl record.contentFits noEnd isEnd rfl,
            fun _ => ⟨records, cuts, later⟩⟩
  | stderr isType cuts inductionHypothesis =>
      obtain ⟨after, isRecord, later⟩ := brings.read
      rw [readHeadersFromStream_of_record buffer isRecord,
        if_neg (stderr_ne_stdout isType)]
      exact inductionHypothesis later noEnd

/-! ## The first blank line -/

/-- Two CRLFs. -/
def crlfTwice : List UInt8 := [13, 10, 13, 10]

/-- Two line feeds. -/
def lfTwice : List UInt8 := [10, 10]

/-- The place of the first blank line: where it ends, and where it begins. -/
def firstBlankLine? (payload : List UInt8) : Option (Nat × Nat) :=
  match position? crlfTwice payload, position? lfTwice payload with
  | some crlfs, some lfs =>
      if lfs < crlfs then
        some (lfs + 2, lfs)
      else
        some (crlfs + 4, crlfs)
  | some crlfs, none =>
      some (crlfs + 4, crlfs)
  | none, some lfs =>
      some (lfs + 2, lfs)
  | none, none =>
      none

theorem findHeaderEnd_eq (buffer : List UInt8) :
    findHeaderEnd buffer =
      (((position? crlfTwice buffer).map fun crlfs =>
          (crlfs + 4, crlfs)) <|>
        (position? lfTwice buffer).map fun lfs => (lfs + 2, lfs)) :=
  rfl

theorem findHeaderEnd_eq_none_iff {buffer : List UInt8} :
    findHeaderEnd buffer = none ↔
      position? crlfTwice buffer = none ∧
        position? lfTwice buffer = none := by
  rw [findHeaderEnd_eq]
  cases position? crlfTwice buffer with
  | none =>
      simp
  | some crlfs =>
      simp

theorem findHeaderEnd_le
    {buffer : List UInt8}
    {bodyStart textEnd : Nat}
    (isEnd : findHeaderEnd buffer = some (bodyStart, textEnd)) :
    textEnd ≤ bodyStart ∧ bodyStart ≤ buffer.length := by
  rw [findHeaderEnd_eq] at isEnd
  cases isCrlfs : position? crlfTwice buffer with
  | some crlfs =>
      rw [isCrlfs] at isEnd
      obtain ⟨rfl, rfl⟩ := Prod.mk.inj (Option.some.inj isEnd)
      exact ⟨Nat.le_add_right _ _,
        (position?_eq_some_iff.mp isCrlfs).1.1⟩
  | none =>
      rw [isCrlfs] at isEnd
      obtain ⟨lfs, isLfs, isPlace⟩ := Option.map_eq_some_iff.mp isEnd
      obtain ⟨rfl, rfl⟩ := Prod.mk.inj isPlace
      exact ⟨Nat.le_add_right _ _, (position?_eq_some_iff.mp isLfs).1.1⟩

/-- What has no blank line had none before. -/
theorem findHeaderEnd_of_append
    {buffer more : List UInt8}
    (noEnd : findHeaderEnd (buffer ++ more) = none) :
    findHeaderEnd buffer = none := by
  rw [findHeaderEnd_eq_none_iff] at noEnd ⊢
  obtain ⟨noCrlfs, noLfs⟩ := noEnd
  constructor
  · by_contra isSome
    obtain ⟨crlfs, isCrlfs⟩ := Option.ne_none_iff_exists'.mp isSome
    rw [position?_append isCrlfs] at noCrlfs
    cases noCrlfs
  · by_contra isSome
    obtain ⟨lfs, isLfs⟩ := Option.ne_none_iff_exists'.mp isSome
    rw [position?_append isLfs] at noLfs
    cases noLfs

/-- Output that holds both, close together, the line feeds first. -/
def Masked (payload : List UInt8) : Prop :=
  ∃ lfs crlfs,
    position? lfTwice payload = some lfs ∧
      position? crlfTwice payload = some crlfs ∧
      lfs < crlfs ∧
      crlfs + 3 - lfs < 2 ^ 16

/-- The two kinds of blank lines do not begin at one place. -/
theorem lfs_lt_crlfs
    {payload : List UInt8}
    {lfs crlfs : Nat}
    (isLfs : StandsAt lfTwice payload lfs)
    (isCrlfs : StandsAt crlfTwice payload crlfs)
    (behind : lfs + 2 < crlfs + 4) :
    lfs < crlfs := by
  by_contra notBefore
  have firstLf := isLfs.getElem? (show 0 < lfTwice.length by decide)
  have secondLf := isLfs.getElem? (show 1 < lfTwice.length by decide)
  have firstCr := isCrlfs.getElem? (show 0 < crlfTwice.length by decide)
  have secondCr := isCrlfs.getElem? (show 2 < crlfTwice.length by decide)
  have near : lfs = crlfs ∨ lfs = crlfs + 1 := by omega
  rcases near with rfl | rfl
  · rw [firstLf] at firstCr
    exact absurd firstCr (by decide)
  · rw [Nat.add_assoc, secondCr] at secondLf
    exact absurd secondLf (by decide)

/-- A record that ends the headers does so at the first blank line. -/
theorem firstBlankLine?_of_found
    {front data later : List UInt8}
    {place : Nat × Nat}
    (notMasked : ¬ Masked (front ++ data ++ later))
    (fits : data.length < 2 ^ 16)
    (notBefore : findHeaderEnd front = none)
    (isEnd : findHeaderEnd (front ++ data) = some place) :
    firstBlankLine? (front ++ data ++ later) = some place := by
  obtain ⟨noCrlfs, noLfs⟩ := findHeaderEnd_eq_none_iff.mp notBefore
  rw [findHeaderEnd_eq] at isEnd
  cases isCrlfs : position? crlfTwice (front ++ data) with
  | some crlfs =>
      rw [isCrlfs] at isEnd
      obtain rfl := Option.some.inj isEnd
      have isFirst :
          position? crlfTwice (front ++ data ++ later) = some crlfs :=
        position?_append isCrlfs
      have within := (position?_eq_some_iff.mp isCrlfs).1.1
      rw [firstBlankLine?, isFirst]
      cases isLfs : position? lfTwice (front ++ data ++ later) with
      | none =>
          rfl
      | some lfs =>
          have notLfs : ¬ lfs < crlfs := by
            intro before
            have begun : front.length < lfs + lfTwice.length := by
              apply length_lt_of_position?_append noLfs
              rw [← List.append_assoc]
              exact isLfs
            refine notMasked ⟨lfs, crlfs, isLfs, isFirst, before, ?_⟩
            simp only [List.length_append, lfTwice, crlfTwice,
              List.length_cons, List.length_nil] at begun within
            omega
          exact if_neg notLfs
  | none =>
      rw [isCrlfs] at isEnd
      obtain ⟨lfs, isLfs, rfl⟩ := Option.map_eq_some_iff.mp isEnd
      have isFirst :
          position? lfTwice (front ++ data ++ later) = some lfs :=
        position?_append isLfs
      have within := (position?_eq_some_iff.mp isLfs).1.1
      rw [firstBlankLine?, isFirst]
      cases isLater : position? crlfTwice (front ++ data ++ later) with
      | none =>
          rfl
      | some crlfs =>
          have behind := length_lt_of_position?_append isCrlfs isLater
          have before : lfs < crlfs := by
            apply lfs_lt_crlfs (position?_eq_some_iff.mp isFirst).1
              (position?_eq_some_iff.mp isLater).1
            simp only [lfTwice, crlfTwice, List.length_cons,
              List.length_nil] at behind within
            omega
          exact if_pos before

theorem firstBlankLine?_of_none
    {payload : List UInt8}
    (noEnd : findHeaderEnd payload = none) :
    firstBlankLine? payload = none := by
  obtain ⟨noCrlfs, noLfs⟩ := findHeaderEnd_eq_none_iff.mp noEnd
  rw [firstBlankLine?, noCrlfs, noLfs]

/-- The text of the headers and the body, split at the first blank line. -/
def splitPayload (payload : List UInt8) : List UInt8 × List UInt8 :=
  match firstBlankLine? payload with
  | some (bodyStart, textEnd) =>
      (payload.take textEnd, payload.drop bodyStart)
  | none =>
      (payload, [])

/-- The headers are those before the first blank line. -/
theorem HeadersRead.eq_splitPayload
    {payload later : List UInt8}
    {parsed : FcgiParsedHeaders}
    (isRead : HeadersRead payload parsed later)
    (notMasked : ¬ Masked payload) :
    splitPayload payload =
      (parsed.headerText,
        if parsed.bodyDone then
          parsed.bodyPrefix
        else
          parsed.bodyPrefix ++ later) := by
  cases isRead with
  | never noEnd isParsed =>
      subst isParsed
      rw [splitPayload, firstBlankLine?_of_none noEnd]
      rfl
  | @found front data bodyStart textEnd isPayload fits notBefore isEnd
      isParsed =>
      subst isParsed isPayload
      rw [splitPayload,
        firstBlankLine?_of_found notMasked fits notBefore isEnd]
      obtain ⟨ordered, within⟩ := findHeaderEnd_le isEnd
      dsimp only
      rw [List.take_append_of_le_length (Nat.le_trans ordered within),
        List.drop_append_of_le_length within]
      rfl

/-! ## The response -/

/-- What is read of a response. -/
structure FcgiReading where
  status : Nat
  headers : List (List Char × List Char)
  body : List UInt8
  deriving Repr, DecidableEq

/-- The reading with this text of headers and this body. -/
def readingOf (text body : List UInt8) : FcgiReading where
  status := (parseFcgiHeaders (fromUtf8Lossy text)).1
  headers := (parseFcgiHeaders (fromUtf8Lossy text)).2
  body

/-- The body that was collected, or was begun and is streamed. -/
def Collected.body? : Collected → Option (List UInt8)
  | .whole body _ =>
      some body
  | .large body after =>
      some (delivered (streamRemaining takesAll body after).1)
  | .stall =>
      none

/-- The text of the headers and the body as the handler reads them. -/
def reading? (reads : List (Event IoError)) : Option FcgiReading :=
  match readHeadersFromStream [] reads with
  | (.ok parsed, after) =>
      if parsed.bodyDone then
        some (readingOf parsed.headerText parsed.bodyPrefix)
      else
        (collectBody parsed.bodyPrefix after).body?.map
          (readingOf parsed.headerText)
  | _ =>
      none

/-- The result is a response with this reading. -/
def FcgiContext.Makes
    (context : FcgiContext)
    (reading : FcgiReading)
    (result : FcgiResult) :
    Prop :=
  ∃ made stored released,
    result = .response made stored released ∧
      (made =
          context.makeCompleteResponse reading.status reading.headers
            reading.body ∨
        ∃ pieces,
          AllData pieces ∧
            delivered pieces = reading.body ∧
            made =
              context.makeStreamedResponse reading.status reading.headers
                pieces)

/-- A body is read from its records to its end. -/
theorem Cuts.body
    {payload : List UInt8}
    {records : List Record}
    {reads : List (Event IoError)}
    {context : FcgiContext}
    {parsed : FcgiParsedHeaders}
    (cuts : Cuts payload records)
    (brings : Brings reads records)
    (takes : context.receives = takesAll)
    (notDone : parsed.bodyDone = false) :
    (FastCgi.collectBody parsed.bodyPrefix reads).body? =
        some (parsed.bodyPrefix ++ payload) ∧
      context.Makes
        (readingOf parsed.headerText (parsed.bodyPrefix ++ payload))
        (context.buildStreamingResponse parsed reads) := by
  rw [FcgiContext.buildStreamingResponse, notDone,
    if_neg Bool.false_ne_true]
  rcases cuts.collectBody brings parsed.bodyPrefix with
    ⟨after, isWhole⟩ |
      ⟨begun, later, after, rest, isLarge, nonempty, isBody, laterCuts,
        laterBrings⟩
  · rw [isWhole]
    exact ⟨rfl, _, _, _, rfl, .inl rfl⟩
  · have one : AllData [.ok begun] := by
      intro piece member
      exact ⟨begun, List.mem_singleton.mp member⟩
    obtain ⟨all, final, isStream, allData, isDelivered⟩ :=
      laterCuts.streamRecords laterBrings one
    have isAll : delivered all = parsed.bodyPrefix ++ payload := by
      rw [isDelivered, ← isBody]
      simp [delivered, pieceBytes]
    have remaining :
        streamRemaining takesAll begun after =
          (all, .ended true, final) := by
      rw [streamRemaining, if_neg nonempty]
      exact isStream
    simp only [isLarge, takes, remaining, Collected.body?, isAll]
    exact ⟨trivial, _, _, _, rfl, .inr ⟨all, allData, isAll, rfl⟩⟩

/-- The reading of some output that is split at its first blank line. -/
def expectedReading (payload : List UInt8) : FcgiReading :=
  readingOf (splitPayload payload).1 (splitPayload payload).2

/-- Whatever the cut, the output is split at its first blank line. -/
def CutsAlike (payload : List UInt8) : Prop :=
  ∀ (context : FcgiContext) (records : List Record)
    (reads : List (Event IoError)),
    context.receives = takesAll →
    Cuts payload records →
    Brings reads records →
      reading? reads = some (expectedReading payload) ∧
        context.Makes (expectedReading payload)
          (context.readResponse reads)

theorem cutsAlike_of_not_masked
    {payload : List UInt8}
    (notMasked : ¬ Masked payload) :
    CutsAlike payload := by
  intro context records reads takes cuts brings
  have noEnd : findHeaderEnd [] = none := rfl
  obtain ⟨parsed, later, after, isParsed, isRead, goesOn⟩ :=
    cuts.readHeaders brings noEnd
  rw [List.nil_append] at isRead
  rw [expectedReading, isRead.eq_splitPayload notMasked, reading?,
    isParsed, FcgiContext.readResponse, isParsed]
  dsimp only
  cases isDone : parsed.bodyDone with
  | true =>
      rw [FcgiContext.buildStreamingResponse, isDone]
      exact ⟨rfl, _, _, _, rfl, .inl rfl⟩
  | false =>
      obtain ⟨rest, laterCuts, laterBrings⟩ := goesOn isDone
      obtain ⟨isBody, makes⟩ := laterCuts.body laterBrings takes isDone
      rw [isBody]
      exact ⟨rfl, makes⟩

/-! ## Output that is masked -/

section Masking

variable
  {payload data : List UInt8}
  {records : List Record}

/-- The records of some data go before a cut. -/
theorem IsStream.cuts
    {sent : List Record}
    (isStream : IsStream stdoutType data sent)
    (cuts : Cuts payload records) :
    Cuts (data ++ payload) (sent ++ records) := by
  induction sent generalizing data with
  | nil =>
      obtain rfl := isStream.isData
      exact cuts
  | cons record others inductionHypothesis =>
      have isFirst := isStream.first
      have isData := isStream.isData
      rw [List.flatMap_cons] at isData
      rw [← isData, List.append_assoc]
      exact .stdout isFirst.1 isFirst.2
        (inductionHypothesis isStream.tail)

/-- Data without a blank line is kept for the headers. -/
theorem IsStream.readHeaders
    {sent : List Record}
    {reads : List (Event IoError)}
    {buffer : List UInt8}
    (isStream : IsStream stdoutType data sent)
    (brings : Brings reads (sent ++ records))
    (noEnd : findHeaderEnd (buffer ++ data) = none) :
    ∃ after,
      readHeadersFromStream buffer reads =
          readHeadersFromStream (buffer ++ data) after ∧
        Brings after records := by
  induction sent generalizing data reads buffer with
  | nil =>
      obtain rfl := isStream.isData
      refine ⟨reads, ?_, brings⟩
      rw [List.flatMap_nil, List.append_nil]
  | cons record others inductionHypothesis =>
      have isFirst := isStream.first
      have isData := isStream.isData
      obtain ⟨after, isRecord, later⟩ := brings.read
      rw [List.flatMap_cons] at isData
      rw [← isData, ← List.append_assoc] at noEnd ⊢
      rw [readHeadersFromStream_of_record buffer isRecord,
        if_pos isFirst.1, if_neg isFirst.2]
      dsimp only
      rw [findHeaderEnd_of_append noEnd]
      exact inductionHypothesis isStream.tail later noEnd

/-- The bytes are brought by one read. -/
theorem brings_ofBytes (records : List Record) :
    Brings (Event.ofBytes (records.flatMap Record.bytes)) records := by
  refine ⟨[], [], Event.ofBytes (records.flatMap Record.bytes), ?_, ?_, ?_⟩
  · rw [List.append_nil]
  · intro event isEvent
    exact isData_of_mem_ofBytes isEvent
  · rw [flatMap_ofBytes, List.nil_append, List.append_nil]

/-- A client that takes everything, and a handler without a cache. -/
def plainContext : FcgiContext where
  cache := none
  valid _ := true
  receives := takesAll

/-- A record that holds both blank lines is split at the second. -/
theorem readHeaders_of_both
    {reads : List (Event IoError)}
    {start : List UInt8}
    {middle : Record}
    {crlfs : Nat}
    (isStdout : middle.recordType = stdoutType)
    (noEnd : findHeaderEnd start = none)
    (isCrlfs :
      position? crlfTwice (start ++ middle.content) = some crlfs)
    (brings :
      Brings reads
        (FastCgi.dataRecords stdoutType start ++ middle :: records)) :
    ∃ after,
      readHeadersFromStream [] reads =
          (.ok
            ⟨(start ++ middle.content).take crlfs,
              (start ++ middle.content).drop (crlfs + 4), false⟩, after) ∧
        Brings after records := by
  obtain ⟨afterStart, isStart, bringsMiddle⟩ :=
    @IsStream.readHeaders _ _ _ _ [] (isStream_dataRecords stdoutType start)
      brings noEnd
  obtain ⟨after, isRecord, later⟩ := bringsMiddle.read
  have nonempty : middle.content ≠ [] := by
    intro empty
    rw [empty, List.append_nil] at isCrlfs
    rw [(findHeaderEnd_eq_none_iff.mp noEnd).1] at isCrlfs
    cases isCrlfs
  refine ⟨after, ?_, later⟩
  rw [isStart, List.nil_append,
    readHeadersFromStream_of_record start isRecord, if_pos isStdout,
    if_neg nonempty]
  dsimp only
  rw [findHeaderEnd_eq, isCrlfs]
  rfl

/-- Output that is cut so that one record holds both is read otherwise. -/
theorem not_cutsAlike_of_both
    {start content later : List UInt8}
    {crlfs : Nat}
    (isPayload : start ++ content ++ later = payload)
    (short : content.length ≤ maxContent)
    (nonempty : content ≠ [])
    (noEnd : findHeaderEnd start = none)
    (isCrlfs : position? crlfTwice (start ++ content) = some crlfs)
    (atEnd : (start ++ content).length = crlfs + 4)
    (longer : later.length < (splitPayload payload).2.length) :
    ¬ CutsAlike payload := by
  intro alike
  let middle := contentRecord stdoutType content short
  have cutsLater :
      Cuts later
        (FastCgi.dataRecords stdoutType later ++
          [emptyRecord stdoutType]) := by
    have closed := (isStream_dataRecords stdoutType later).cuts
      (.closes (show (emptyRecord stdoutType).recordType = _ from rfl) rfl)
    rw [List.append_nil] at closed
    exact closed
  have cuts :
      Cuts payload
        (FastCgi.dataRecords stdoutType start ++
          middle ::
            (FastCgi.dataRecords stdoutType later ++
              [emptyRecord stdoutType])) := by
    rw [← isPayload, List.append_assoc]
    exact (isStream_dataRecords stdoutType start).cuts
      (.stdout (show middle.recordType = _ from rfl) nonempty cutsLater)
  obtain ⟨isReading, _⟩ :=
    alike plainContext _ _ rfl cuts (brings_ofBytes _)
  obtain ⟨after, isHeaders, bringsLater⟩ :=
    @readHeaders_of_both _ _ start middle crlfs rfl noEnd isCrlfs
      (brings_ofBytes _)
  obtain ⟨isBody, _⟩ :=
    @Cuts.body _ _ _ plainContext
      ⟨(start ++ content).take crlfs, (start ++ content).drop (crlfs + 4),
        false⟩ cutsLater bringsLater rfl rfl
  rw [reading?, isHeaders] at isReading
  dsimp only at isReading isBody
  rw [if_neg Bool.false_ne_true] at isReading
  have isAll : (start ++ content).drop (crlfs + 4) ++ later = later := by
    rw [List.drop_of_length_le (Nat.le_of_eq atEnd), List.nil_append]
  rw [isAll] at isBody
  change (Collected.body? (FastCgi.collectBody
    ((start ++ content).drop (crlfs + 4)) after)).map _ = _ at isReading
  rw [isBody] at isReading
  have sameBody := congrArg FcgiReading.body (Option.some.inj isReading)
  rw [show (splitPayload payload).2 = later from sameBody.symm] at longer
  exact Nat.lt_irrefl _ longer

theorem not_cutsAlike_of_masked
    (masked : Masked payload) :
    ¬ CutsAlike payload := by
  obtain ⟨lfs, crlfs, isLfs, isCrlfs, before, fits⟩ := masked
  have within := (position?_eq_some_iff.mp isCrlfs).1.1
  simp only [crlfTwice, List.length_cons, List.length_nil] at within
  -- One record from the second line feed to the end of the CRLFs.
  have isFront :
      payload.take (lfs + 1) ++ (payload.take (crlfs + 4)).drop (lfs + 1) =
        payload.take (crlfs + 4) := by
    have isStart :
        payload.take (lfs + 1) =
          (payload.take (crlfs + 4)).take (lfs + 1) := by
      rw [List.take_take, Nat.min_eq_left (by omega)]
    rw [isStart, List.take_append_drop]
  have isLength :
      ((payload.take (crlfs + 4)).drop (lfs + 1)).length =
        crlfs + 3 - lfs := by
    rw [List.length_drop, List.length_take]
    omega
  apply @not_cutsAlike_of_both payload (payload.take (lfs + 1))
    ((payload.take (crlfs + 4)).drop (lfs + 1))
    (payload.drop (crlfs + 4)) crlfs
  · rw [isFront, List.take_append_drop]
  · rw [isLength, maxContent]
    omega
  · apply List.ne_nil_of_length_pos
    omega
  · rw [findHeaderEnd_eq_none_iff]
    constructor
    · apply position?_take_eq_none isCrlfs
      simp only [crlfTwice, List.length_cons, List.length_nil]
      omega
    · apply position?_take_eq_none isLfs
      simp only [lfTwice, List.length_cons, List.length_nil]
      omega
  · rw [isFront]
    exact position?_take isCrlfs (Nat.le_refl _)
  · rw [isFront, List.length_take]
    omega
  · rw [splitPayload, firstBlankLine?, isLfs, isCrlfs]
    dsimp only
    rw [if_pos before]
    simp only [List.length_drop]
    omega

end Masking

/-- The output is read alike however it is cut, unless it is masked. -/
theorem cutsAlike_iff (payload : List UInt8) :
    CutsAlike payload ↔ ¬ Masked payload :=
  ⟨fun alike masked => not_cutsAlike_of_masked masked alike,
    cutsAlike_of_not_masked⟩

/-- A header, a line, and a body after two CRLFs. -/
def maskedOutput : List UInt8 :=
  encodeUtf8 "A: b\n\nc\r\n\r\nd".toList

/-- One record with all of this output is split at the CRLFs. -/
theorem not_cutsAlike_maskedOutput : ¬ CutsAlike maskedOutput :=
  not_cutsAlike_of_masked ⟨4, 7, by decide, by decide, by decide, by decide⟩

end Sweety.FastCgi
