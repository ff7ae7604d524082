import Sweety.BrokenReading
import Sweety.FastCgiBody

namespace Sweety.FastCgi

open HttpText SegmentedReader UpstreamResponse

/-!
# FastCGI responses that break off

What the handler makes of a backend that sends some whole records and then
fails, in the middle of a record or between two.
-/

/-- `FCGI_END_REQUEST`, which the source does not name. -/
def endRequest : UInt8 := 3

/-- The backend sends these records, and then reading fails. -/
inductive Yields :
    List (Event IoError) → List FcgiRecord → Prop where
  | fails
      {reads after : List (Event IoError)}
      {error : IoError}
      (isFailure : readFcgiFromStream reads = (.failed error, after)) :
      Yields reads []
  | sends
      {reads after : List (Event IoError)}
      {record : FcgiRecord}
      {later : List FcgiRecord}
      (isRecord : readFcgiFromStream reads = (.ok record, after))
      (yields : Yields after later) :
      Yields reads (record :: later)

/-! ## What the records say -/

/-- A record at which the handler takes the response to be complete. -/
def Stops (record : FcgiRecord) : Prop :=
  if record.recType = stdoutType then
    record.data = []
  else
    record.recType ≠ stderrType

/-- The output in some records. -/
def output (records : List FcgiRecord) : List UInt8 :=
  (records.filter (·.recType = stdoutType)).flatMap FcgiRecord.data

/-- The output goes over the limit after `total` bytes before it. -/
def Exceeds (total : Nat) (records : List FcgiRecord) : Prop :=
  output records ≠ [] ∧ collectLimit < total + (output records).length

/--
The headers in some records, with the records after them; `buffer` is what was
read of the headers before.
-/
def headersIn (buffer : List UInt8) :
    List FcgiRecord → Option (FcgiParsedHeaders × List FcgiRecord)
  | [] =>
      none
  | record :: later =>
      if record.recType = stdoutType then
        if record.data = [] then
          some (⟨buffer, [], true⟩, later)
        else
          match findHeaderEnd (buffer ++ record.data) with
          | some (bodyStart, textEnd) =>
              some
                (⟨(buffer ++ record.data).take textEnd,
                  (buffer ++ record.data).drop bodyStart, false⟩, later)
          | none =>
              headersIn (buffer ++ record.data) later
      else
        headersIn buffer later

section Records

variable
  {record : FcgiRecord}
  {later : List FcgiRecord}
  {total : Nat}

theorem output_cons_stdout
    (isOutput : record.recType = stdoutType) :
    output (record :: later) = record.data ++ output later := by
  simp [output, isOutput]

theorem output_cons_other
    (notOutput : record.recType ≠ stdoutType) :
    output (record :: later) = output later := by
  simp [output, notOutput]

theorem stops_iff_nil
    (isOutput : record.recType = stdoutType) :
    Stops record ↔ record.data = [] := by
  rw [Stops, if_pos isOutput]

theorem stops_iff_notStderr
    (notOutput : record.recType ≠ stdoutType) :
    Stops record ↔ record.recType ≠ stderrType := by
  rw [Stops, if_neg notOutput]

/-- Output that stays within the limit counts for what follows. -/
theorem exceeds_cons_within
    (isOutput : record.recType = stdoutType)
    (nonempty : record.data ≠ [])
    (within : total + record.data.length ≤ collectLimit) :
    Exceeds total (record :: later) ↔
      Exceeds (total + record.data.length) later := by
  rw [Exceeds, Exceeds, output_cons_stdout isOutput, List.length_append]
  constructor
  · rintro ⟨_, large⟩
    refine ⟨?_, by omega⟩
    intro isNil
    rw [isNil, List.length_nil] at large
    omega
  · rintro ⟨_, large⟩
    exact ⟨by simp [nonempty], by omega⟩

theorem exceeds_cons_large
    (isOutput : record.recType = stdoutType)
    (nonempty : record.data ≠ [])
    (large : collectLimit < total + record.data.length) :
    Exceeds total (record :: later) := by
  rw [Exceeds, output_cons_stdout isOutput, List.length_append]
  exact ⟨by simp [nonempty], by omega⟩

theorem exceeds_cons_other
    (notOutput : record.recType ≠ stdoutType) :
    Exceeds total (record :: later) ↔ Exceeds total later := by
  rw [Exceeds, Exceeds, output_cons_other notOutput]

theorem exists_stops_cons
    (goesOn : ¬ Stops record) :
    (∃ stop ∈ record :: later, Stops stop) ↔
      ∃ stop ∈ later, Stops stop := by
  simp [goesOn]

end Records

/-! ## The loops at one record -/

section Loops

variable
  {reads after : List (Event IoError)}
  {record : FcgiRecord}
  {error : IoError}

theorem collectBody_of_record
    (body : List UInt8)
    (isRecord : readFcgiFromStream reads = (.ok record, after)) :
    collectBody body reads =
      if record.recType = stdoutType then
        if record.data = [] then
          .whole body after
        else if collectLimit < (body ++ record.data).length then
          .large (body ++ record.data) after
        else
          collectBody (body ++ record.data) after
      else if record.recType = stderrType then
        collectBody body after
      else
        .whole body after := by
  rw [collectBody]
  split
  all_goals
    rename_i isRead
    rw [isRecord] at isRead
    cases isRead
  rfl

theorem collectBody_of_failure
    (body : List UInt8)
    (isFailure : readFcgiFromStream reads = (.failed error, after)) :
    collectBody body reads = .whole body after := by
  rw [collectBody]
  split
  all_goals
    rename_i isRead
    rw [isFailure] at isRead
    cases isRead
  rfl

theorem streamRecords_of_ok
    (receives : Nat → Bool)
    (pieces : Pieces)
    (isRecord : readFcgiFromStream reads = (.ok record, after)) :
    streamRecords receives pieces reads =
      if record.recType = stdoutType then
        if record.data = [] then
          (pieces, .ended true, after)
        else if receives pieces.length then
          streamRecords receives (pieces ++ [.ok record.data]) after
        else
          (pieces, .ended false, after)
      else if record.recType = stderrType then
        streamRecords receives pieces after
      else
        (pieces, .ended true, after) := by
  rw [streamRecords]
  split
  all_goals
    rename_i isRead
    rw [isRecord] at isRead
    cases isRead
  rfl

/-- The same for a client that takes every piece. -/
theorem streamRecords_of_record
    (pieces : Pieces)
    (isRecord : readFcgiFromStream reads = (.ok record, after)) :
    streamRecords takesAll pieces reads =
      if record.recType = stdoutType then
        if record.data = [] then
          (pieces, .ended true, after)
        else
          streamRecords takesAll (pieces ++ [.ok record.data]) after
      else if record.recType = stderrType then
        streamRecords takesAll pieces after
      else
        (pieces, .ended true, after) :=
  streamRecords_of_ok takesAll pieces isRecord

theorem streamRecords_of_failure
    (receives : Nat → Bool)
    (pieces : Pieces)
    (isFailure : readFcgiFromStream reads = (.failed error, after)) :
    streamRecords receives pieces reads =
      (pieces ++ [.error error], .ended false, after) := by
  rw [streamRecords]
  split
  all_goals
    rename_i isRead
    rw [isFailure] at isRead
    cases isRead
  rfl

theorem readHeadersFromStream_of_record
    (buffer : List UInt8)
    (isRecord : readFcgiFromStream reads = (.ok record, after)) :
    readHeadersFromStream buffer reads =
      if record.recType = stdoutType then
        if record.data = [] then
          (.ok ⟨buffer, [], true⟩, after)
        else
          match findHeaderEnd (buffer ++ record.data) with
          | some (bodyStart, textEnd) =>
              (.ok
                ⟨(buffer ++ record.data).take textEnd,
                  (buffer ++ record.data).drop bodyStart, false⟩, after)
          | none =>
              readHeadersFromStream (buffer ++ record.data) after
      else
        readHeadersFromStream buffer after := by
  rw [readHeadersFromStream]
  split
  all_goals
    rename_i isRead
    rw [isRecord] at isRead
    cases isRead
  rfl

theorem readHeadersFromStream_of_failure
    (buffer : List UInt8)
    (isFailure : readFcgiFromStream reads = (.failed error, after)) :
    readHeadersFromStream buffer reads = (.failed error, after) := by
  rw [readHeadersFromStream]
  split
  all_goals
    rename_i isRead
    rw [isFailure] at isRead
    cases isRead
  rfl

end Loops

/-! ## Whole streams -/

section Streams

variable
  {reads : List (Event IoError)}
  {records : List FcgiRecord}

/-- The headers are read, or reading them fails. -/
theorem readHeadersFromStream_cases
    (yields : Yields reads records)
    (buffer : List UInt8) :
    (headersIn buffer records = none ∧
      ∃ error after,
        readHeadersFromStream buffer reads = (.failed error, after)) ∨
    ∃ parsed after later,
      headersIn buffer records = some (parsed, later) ∧
        readHeadersFromStream buffer reads = (.ok parsed, after) ∧
        Yields after later := by
  induction yields generalizing buffer with
  | fails isFailure =>
      exact .inl
        ⟨rfl, _, _, readHeadersFromStream_of_failure buffer isFailure⟩
  | sends isRecord yields inductionHypothesis =>
      rw [readHeadersFromStream_of_record buffer isRecord, headersIn]
      split
      · split
        · exact .inr ⟨_, _, _, rfl, rfl, yields⟩
        · split
          · exact .inr ⟨_, _, _, rfl, rfl, yields⟩
          · exact inductionHypothesis _
      · exact inductionHypothesis _

/-- The task sends an error unless a record stops it before. -/
theorem allData_streamRecords
    (yields : Yields reads records)
    {pieces : Pieces}
    (allData : AllData pieces) :
    AllData (streamRecords takesAll pieces reads).1 ↔
      ∃ stop ∈ records, Stops stop := by
  induction yields generalizing pieces with
  | @fails _ _ error isFailure =>
      rw [streamRecords_of_failure takesAll pieces isFailure]
      refine iff_of_false ?_ (by simp)
      intro isAllData
      obtain ⟨bytes, isOk⟩ := isAllData (.error error) (by simp)
      cases isOk
  | @sends _ _ record _ isRecord _ inductionHypothesis =>
      rw [streamRecords_of_record pieces isRecord]
      by_cases isOutput : record.recType = stdoutType
      · have stops := stops_iff_nil isOutput
        rw [if_pos isOutput]
        by_cases isNil : record.data = []
        · rw [if_pos isNil]
          exact iff_of_true allData
            ⟨record, List.mem_cons_self, stops.mpr isNil⟩
        · rw [if_neg isNil,
            exists_stops_cons (fun stop => isNil (stops.mp stop))]
          exact inductionHypothesis (allData.append _)
      · have stops := stops_iff_notStderr isOutput
        rw [if_neg isOutput]
        by_cases isStderr : record.recType = stderrType
        · rw [if_pos isStderr,
            exists_stops_cons (fun stop => stops.mp stop isStderr)]
          exact inductionHypothesis allData
        · rw [if_neg isStderr]
          exact iff_of_true allData
            ⟨record, List.mem_cons_self, stops.mpr isStderr⟩

/--
The body is collected up to the first record that stops, or up to the failure,
or it exceeds the limit before.
-/
theorem collectBody_cases
    (yields : Yields reads records)
    (body : List UInt8) :
    (∃ all after,
      collectBody body reads = .whole all after ∧
        ((∃ stop ∈ records, Stops stop) ∨
          ¬ Exceeds body.length records)) ∨
    ∃ all after later,
      collectBody body reads = .large all after ∧
        all ≠ [] ∧
        Yields after later ∧
        Exceeds body.length records ∧
        ((∃ stop ∈ records, Stops stop) ↔ ∃ stop ∈ later, Stops stop) := by
  induction yields generalizing body with
  | fails isFailure =>
      refine .inl ⟨_, _, collectBody_of_failure body isFailure, .inr ?_⟩
      rintro ⟨nonempty, _⟩
      exact nonempty rfl
  | @sends _ after record later isRecord yields inductionHypothesis =>
      rw [collectBody_of_record body isRecord]
      by_cases isOutput : record.recType = stdoutType
      · have stops := stops_iff_nil isOutput
        rw [if_pos isOutput]
        by_cases isNil : record.data = []
        · rw [if_pos isNil]
          exact .inl ⟨_, _, rfl, .inl
            ⟨record, List.mem_cons_self, stops.mpr isNil⟩⟩
        · have sameStops := @exists_stops_cons _ later
            (fun stop => isNil (stops.mp stop))
          rw [if_neg isNil, sameStops]
          by_cases large : collectLimit < (body ++ record.data).length
          · rw [if_pos large]
            rw [List.length_append] at large
            exact .inr ⟨_, after, later, rfl, by simp [isNil], yields,
              exceeds_cons_large isOutput isNil large, Iff.rfl⟩
          · rw [if_neg large]
            rw [List.length_append, Nat.not_lt] at large
            rw [exceeds_cons_within isOutput isNil large,
              ← List.length_append]
            exact inductionHypothesis _
      · have stops := stops_iff_notStderr isOutput
        rw [if_neg isOutput]
        by_cases isStderr : record.recType = stderrType
        · rw [if_pos isStderr, exceeds_cons_other isOutput,
            exists_stops_cons (fun stop => stops.mp stop isStderr)]
          exact inductionHypothesis _
        · rw [if_neg isStderr]
          exact .inl ⟨_, _, rfl, .inl
            ⟨record, List.mem_cons_self, stops.mpr isStderr⟩⟩

end Streams

/-! ## Responses -/

/-- The client is told of a failure, and nothing is stored. -/
def FcgiResult.Shown : FcgiResult → Prop
  | .response made stored _ =>
      ¬ made.body.Complete ∧ stored = none
  | _ =>
      True

/--
The headers are not complete, or a body that the status allows goes over the
limit and no record stops it.
-/
def ShowsFailure (records : List FcgiRecord) : Prop :=
  ∀ parsed later,
    headersIn [] records = some (parsed, later) →
      parsed.bodyDone = false ∧
        noBodyStatus (statusFromU16 parsed.status) = false ∧
        Exceeds parsed.bodyPrefix.length later ∧
        ∀ record ∈ later, ¬ Stops record

section Responses

variable
  {context : FcgiContext}
  {parsed : FcgiParsedHeaders}
  {reads : List (Event IoError)}
  {records later : List FcgiRecord}

/-- What was collected is sent as a whole body. -/
theorem not_shown_finish (body : List UInt8) :
    ¬ (context.finish parsed body reads).Shown := by
  rintro ⟨notComplete, _⟩
  apply notComplete
  unfold FcgiContext.makeCompleteResponse
  dsimp only
  split
  · trivial
  · trivial

/-- An error in the pieces shows, if the status allows a body. -/
theorem complete_makeStreamedResponse
    (code : Nat)
    (headers : List (List Char × List Char))
    (pieces : Pieces) :
    (context.makeStreamedResponse code headers pieces).body.Complete ↔
      noBodyStatus (statusFromU16 code) = true ∨ AllData pieces := by
  unfold FcgiContext.makeStreamedResponse
  dsimp only
  by_cases noBody : noBodyStatus (statusFromU16 code) = true
  · rw [if_pos noBody]
    exact iff_of_true trivial (.inl noBody)
  · rw [if_neg noBody, or_iff_right noBody]
    rfl

/-- When the rest of a response that breaks off after its headers shows it. -/
theorem shown_buildStreamingResponse
    (yields : Yields reads later)
    (takes : context.receives = takesAll) :
    (context.buildStreamingResponse parsed reads).Shown ↔
      parsed.bodyDone = false ∧
        noBodyStatus (statusFromU16 parsed.status) = false ∧
        Exceeds parsed.bodyPrefix.length later ∧
        ∀ record ∈ later, ¬ Stops record := by
  unfold FcgiContext.buildStreamingResponse
  by_cases done : parsed.bodyDone = true
  · rw [if_pos done]
    refine iff_of_false (not_shown_finish _) ?_
    rintro ⟨notDone, _⟩
    rw [done] at notDone
    cases notDone
  · rw [if_neg done]
    rcases collectBody_cases yields parsed.bodyPrefix with
      ⟨all, after, isWhole, ended⟩ |
        ⟨all, after, rest, isLarge, nonempty, restYields, exceeds, same⟩
    · rw [isWhole]
      refine iff_of_false (not_shown_finish _) ?_
      rintro ⟨_, _, exceeds, noStop⟩
      rcases ended with ⟨stop, member, stops⟩ | within
      · exact noStop stop member stops
      · exact within exceeds
    · have streams :
          streamRemaining context.receives all after =
            streamRecords takesAll [.ok all] after := by
        rw [streamRemaining, takes, if_neg nonempty]
        rfl
      have one : AllData [.ok all] := by
        intro piece member
        exact ⟨all, List.mem_singleton.mp member⟩
      have shows := allData_streamRecords restYields one
      rw [← same] at shows
      have noStop :
          ¬ AllData (streamRecords takesAll [.ok all] after).1 ↔
            ∀ record ∈ later, ¬ Stops record := by
        rw [shows, not_exists]
        exact forall_congr' fun record => not_and
      simp only [isLarge, streams, FcgiResult.Shown, and_true,
        complete_makeStreamedResponse, not_or, Bool.not_eq_true, noStop]
      constructor
      · rintro ⟨hasBody, goesOn⟩
        exact ⟨by simpa using done, hasBody, exceeds, goesOn⟩
      · rintro ⟨_, hasBody, _, goesOn⟩
        exact ⟨hasBody, goesOn⟩

/-- When a response that breaks off shows it. -/
theorem shown_readResponse
    (yields : Yields reads records)
    (takes : context.receives = takesAll) :
    (context.readResponse reads).Shown ↔ ShowsFailure records := by
  unfold FcgiContext.readResponse ShowsFailure
  rcases readHeadersFromStream_cases yields [] with
    ⟨isNone, error, after, isFailed⟩ |
      ⟨parsed, after, later, isSome, isParsed, laterYields⟩
  · rw [isFailed]
    refine iff_of_true trivial ?_
    intro parsed later isSome
    rw [isNone] at isSome
    cases isSome
  · rw [isParsed]
    dsimp only
    rw [shown_buildStreamingResponse laterYields takes]
    constructor
    · intro shows other rest isOther
      rw [isSome] at isOther
      cases isOther
      exact shows
    · intro shows
      exact shows parsed later isSome

end Responses

end Sweety.FastCgi
