import Sweety.FastCgiRecords

namespace Sweety.FastCgi

open SegmentedReader UpstreamResponse

/-!
# Which connections go back to the pool

`build_streaming_response` and `stream_remaining` hand a connection back to the
pool when their loops end.  It can serve another request if its records were
read up to the end of the response: then the next request finds nothing of it
but records that it passes by.
-/

/-! ## Reading records in a row -/

/-- Reading some whole records leaves `rest`. -/
inductive Reads :
    List (Event IoError) → List FcgiRecord → List (Event IoError) → Prop where
  | done
      {reads : List (Event IoError)} :
      Reads reads [] reads
  | next
      {reads after rest : List (Event IoError)}
      {record : FcgiRecord}
      {later : List FcgiRecord}
      (isRecord : readFcgiFromStream reads = (.ok record, after))
      (readsLater : Reads after later rest) :
      Reads reads (record :: later) rest

namespace Reads

variable
  {reads middle rest : List (Event IoError)}
  {first second : List FcgiRecord}

theorem append
    (readsFirst : Reads reads first middle)
    (readsSecond : Reads middle second rest) :
    Reads reads (first ++ second) rest := by
  induction readsFirst with
  | done =>
      exact readsSecond
  | next isRecord _ inductionHypothesis =>
      exact .next isRecord (inductionHypothesis readsSecond)

theorem weight_le
    (readsFirst : Reads reads first rest) :
    weight rest ≤ weight reads := by
  induction readsFirst with
  | done =>
      exact Nat.le_refl _
  | next isRecord _ inductionHypothesis =>
      have less := weight_readFcgiFromStream_lt isRecord
      exact Nat.le_of_lt (Nat.lt_of_le_of_lt inductionHypothesis less)

/-- Reading records without end of the stream means reading none. -/
theorem eq_nil_of_weight_le
    (readsFirst : Reads reads first rest)
    (same : weight reads ≤ weight rest) :
    first = [] ∧ rest = reads := by
  cases readsFirst with
  | done =>
      exact ⟨rfl, rfl⟩
  | next isRecord readsLater =>
      have less := weight_readFcgiFromStream_lt isRecord
      have notMore := readsLater.weight_le
      exact absurd (Nat.lt_of_le_of_lt notMore less) (Nat.not_lt.mpr same)

/-- Of two ways to read on, one goes on from where the other ends. -/
theorem cases_of_reads
    {firstRest secondRest : List (Event IoError)}
    (readsFirst : Reads reads first firstRest)
    (readsSecond : Reads reads second secondRest) :
    (∃ more, second = first ++ more ∧ Reads firstRest more secondRest) ∨
      ∃ more, first = second ++ more ∧ Reads secondRest more firstRest := by
  induction readsFirst generalizing second with
  | done =>
      exact .inl ⟨second, rfl, readsSecond⟩
  | @next reads after rest record later isRecord readsLater
      inductionHypothesis =>
      cases readsSecond with
      | done =>
          exact .inr ⟨record :: later, rfl, .next isRecord readsLater⟩
      | next isOther readsOthers =>
          rw [isRecord] at isOther
          cases isOther
          rcases inductionHypothesis readsOthers with
            ⟨more, rfl, readsMore⟩ | ⟨more, rfl, readsMore⟩
          · exact .inl ⟨more, rfl, readsMore⟩
          · exact .inr ⟨more, rfl, readsMore⟩

/-- Reading up to one place reads the same records. -/
theorem eq_of_reads
    (readsFirst : Reads reads first rest)
    (readsSecond : Reads reads second rest) :
    first = second := by
  rcases readsFirst.cases_of_reads readsSecond with
    ⟨more, rfl, readsMore⟩ | ⟨more, rfl, readsMore⟩
  · have noMore := readsMore.eq_nil_of_weight_le (Nat.le_refl _)
    rw [noMore.1, List.append_nil]
  · have noMore := readsMore.eq_nil_of_weight_le (Nat.le_refl _)
    rw [noMore.1, List.append_nil]

end Reads

/-! ## The end of a response -/

/-- A record that ends a response: an empty `STDOUT`, or `END_REQUEST`. -/
def Ends (record : FcgiRecord) : Prop :=
  record.recType = stdoutType ∧ record.data = [] ∨
    record.recType = endRequest

/-- Nothing but whole records were read, the last of which ends the response. -/
def InStep (reads rest : List (Event IoError)) : Prop :=
  ∃ records last,
    Reads reads (records ++ [last]) rest ∧ Ends last

/--
The records of a response: `END_REQUEST` is the last, and an empty `STDOUT` is
not followed by another one.
-/
structure IsResponse (records : List FcgiRecord) : Prop where
  ends :
    ∃ body last,
      records = body ++ [last] ∧
        last.recType = endRequest ∧
        ∀ record ∈ body, record.recType ≠ endRequest
  closes :
    ∀ before close after,
      records = before ++ close :: after →
      close.recType = stdoutType →
      close.data = [] →
      ∀ record ∈ after, record.recType ≠ stdoutType

/--
What the handler promises the next request: a connection that goes back to the
pool is in step, and the next request reads the headers of its own response on
it.
-/
structure ReleasesInStep
    (context : FcgiContext)
    (reads : List (Event IoError)) :
    Prop where
  inStep :
    ∀ made stored rest,
      context.readResponse reads = .response made stored (some rest) →
      InStep reads rest
  ownHeaders :
    ∀ made stored rest current unread next,
      context.readResponse reads = .response made stored (some rest) →
      IsResponse current →
      Reads reads current next →
      Reads rest unread next →
      readHeadersFromStream [] rest = readHeadersFromStream [] next

theorem stops_of_ends
    {record : FcgiRecord}
    (ends : Ends record) :
    Stops record := by
  rcases ends with ⟨isOutput, isNil⟩ | isEnd
  · exact (stops_iff_nil isOutput).mpr isNil
  · have notOutput : record.recType ≠ stdoutType := by
      rw [isEnd]
      decide
    apply (stops_iff_notStderr notOutput).mpr
    rw [isEnd]
    decide

/-- The next request passes by records without output. -/
theorem readHeadersFromStream_of_noOutput
    {reads rest : List (Event IoError)}
    {records : List FcgiRecord}
    (readsRecords : Reads reads records rest)
    (noOutput : ∀ record ∈ records, record.recType ≠ stdoutType)
    (buffer : List UInt8) :
    readHeadersFromStream buffer reads =
      readHeadersFromStream buffer rest := by
  induction readsRecords with
  | done =>
      rfl
  | next isRecord _ inductionHypothesis =>
      obtain ⟨notOutput, laterNoOutput⟩ := List.forall_mem_cons.mp noOutput
      rw [readHeadersFromStream_of_record buffer isRecord,
        if_neg notOutput, inductionHypothesis laterNoOutput]

/-- In step, the next request reads its own headers. -/
theorem InStep.ownHeaders
    {reads rest next : List (Event IoError)}
    {current unread : List FcgiRecord}
    (inStep : InStep reads rest)
    (isResponse : IsResponse current)
    (readsCurrent : Reads reads current next)
    (readsUnread : Reads rest unread next) :
    readHeadersFromStream [] rest = readHeadersFromStream [] next := by
  obtain ⟨records, last, readsRecords, ends⟩ := inStep
  have isCurrent : current = records ++ last :: unread := by
    have together := readsRecords.append readsUnread
    simpa using readsCurrent.eq_of_reads together
  apply readHeadersFromStream_of_noOutput readsUnread
  rcases ends with ⟨isOutput, isNil⟩ | isEnd
  · exact isResponse.closes records last unread isCurrent isOutput isNil
  · -- After `END_REQUEST` there is nothing left of the response.
    obtain ⟨body, final, isBody, _, notEnd⟩ := isResponse.ends
    rcases List.eq_nil_or_concat unread with rfl | ⟨others, other, rfl⟩
    · simp
    · rw [isCurrent] at isBody
      have isInit : records ++ last :: others = body := by
        have isSplit :
            (records ++ last :: others) ++ [other] = body ++ [final] := by
          simpa using isBody
        exact (List.append_inj' isSplit rfl).1
      have inBody : last ∈ body := by
        rw [← isInit]
        simp
      exact absurd isEnd (notEnd last inBody)

/-! ## Where the loops stop -/

/-- Records that the loops go on after. -/
def GoOn (records : List FcgiRecord) : Prop :=
  ∀ record ∈ records, ¬ Stops record

/-- How many of some records are output. -/
def outputs (records : List FcgiRecord) : Nat :=
  (records.filter (·.recType = stdoutType)).length

/--
How many pieces the client is sent for some records, `total` bytes being
collected before them: from the record on that goes over the limit, one for each
output.
-/
def sends (total : Nat) : List FcgiRecord → Nat
  | [] =>
      0
  | record :: later =>
      if record.recType = stdoutType then
        if collectLimit < total + record.data.length then
          1 + outputs later
        else
          sends (total + record.data.length) later
      else
        sends total later

/--
The record that stops the loops ends the response, unless the client went away
before; and reading does not fail before the client is sent anything.
-/
structure StopsCleanly
    (receives : Nat → Bool)
    (total : Nat)
    (reads : List (Event IoError)) :
    Prop where
  failure :
    ∀ passed after error rest,
      Reads reads passed after →
      GoOn passed →
      readFcgiFromStream after = (.failed error, rest) →
      0 < sends total passed
  record :
    ∀ passed after record rest,
      Reads reads passed after →
      GoOn passed →
      readFcgiFromStream after = (.ok record, rest) →
      Stops record →
      Ends record ∨ ∃ index < sends total passed, receives index = false

/-- What comes at a place where the loops stop. -/
inductive Halt (reads : List (Event IoError)) : Prop where
  | failure
      (error : IoError)
      (rest : List (Event IoError))
      (isFailure : readFcgiFromStream reads = (.failed error, rest))
  | record
      (record : FcgiRecord)
      (rest : List (Event IoError))
      (isRecord : readFcgiFromStream reads = (.ok record, rest))
      (stops : Stops record)
  | stall
      (rest : List (Event IoError))
      (isStall : readFcgiFromStream reads = (.stall, rest))

/-- Every stream is read up to a place where the loops stop. -/
theorem exists_halt (reads : List (Event IoError)) :
    ∃ passed after, Reads reads passed after ∧ GoOn passed ∧ Halt after := by
  induction isWeight : weight reads using Nat.strong_induction_on
    generalizing reads with
  | _ total inductionHypothesis =>
      subst isWeight
      cases isRead : readFcgiFromStream reads with
      | mk result rest =>
          cases result with
          | ok record =>
              by_cases stops : Stops record
              · exact ⟨[], reads, .done, by simp [GoOn],
                  .record record rest isRead stops⟩
              · have less := weight_readFcgiFromStream_lt isRead
                obtain ⟨passed, after, readsPassed, goesOn, halt⟩ :=
                  inductionHypothesis (weight rest) less rest rfl
                refine
                  ⟨record :: passed, after, .next isRead readsPassed, ?_,
                    halt⟩
                exact List.forall_mem_cons.mpr ⟨stops, goesOn⟩
          | failed error =>
              exact ⟨[], reads, .done, by simp [GoOn],
                .failure error rest isRead⟩
          | stall =>
              exact ⟨[], reads, .done, by simp [GoOn], .stall rest isRead⟩

/-! ## What the loops release -/

/-- What the task of `stream_remaining` releases, after some pieces. -/
def streamReleases
    (receives : Nat → Bool)
    (pieces : Pieces)
    (reads : List (Event IoError)) :
    Option (List (Event IoError)) :=
  let streamed := streamRecords receives pieces reads
  if streamed.2.1 = .ended true then
    some streamed.2.2
  else
    none

/-- What the body loop releases, or the task that it hands the connection to. -/
def bodyReleases
    (receives : Nat → Bool)
    (body : List UInt8)
    (reads : List (Event IoError)) :
    Option (List (Event IoError)) :=
  match collectBody body reads with
  | .whole _ after =>
      some after
  | .large all after =>
      if receives 0 = true then
        streamReleases receives [.ok all] after
      else
        none
  | .stall =>
      none

section Steps

variable
  {receives : Nat → Bool}
  {reads after : List (Event IoError)}
  {record : FcgiRecord}
  {error : IoError}

theorem streamReleases_of_stops
    (pieces : Pieces)
    (isRecord : readFcgiFromStream reads = (.ok record, after))
    (stops : Stops record) :
    streamReleases receives pieces reads = some after := by
  rw [streamReleases, streamRecords_of_ok receives pieces isRecord]
  by_cases isOutput : record.recType = stdoutType
  · have isNil := (stops_iff_nil isOutput).mp stops
    simp [isOutput, isNil]
  · have notStderr := (stops_iff_notStderr isOutput).mp stops
    simp [isOutput, notStderr]

theorem streamReleases_of_failure
    (pieces : Pieces)
    (isFailure : readFcgiFromStream reads = (.failed error, after)) :
    streamReleases receives pieces reads = none := by
  rw [streamReleases, streamRecords_of_failure receives pieces isFailure]
  rfl

theorem streamReleases_of_stall
    (pieces : Pieces)
    (isStall : readFcgiFromStream reads = (.stall, after)) :
    streamReleases receives pieces reads = none := by
  have isEnd :
      streamRecords receives pieces reads = (pieces, .hang, after) := by
    rw [streamRecords]
    split
    all_goals
      rename_i isRead
      rw [isStall] at isRead
      cases isRead
    rfl
  rw [streamReleases, isEnd]
  rfl

/-- The task goes on after output, as long as the client takes it. -/
theorem streamReleases_of_output
    (pieces : Pieces)
    (isRecord : readFcgiFromStream reads = (.ok record, after))
    (goesOn : ¬ Stops record)
    (isOutput : record.recType = stdoutType) :
    streamReleases receives pieces reads =
      if receives pieces.length = true then
        streamReleases receives (pieces ++ [.ok record.data]) after
      else
        none := by
  have nonempty : record.data ≠ [] := fun isNil =>
    goesOn ((stops_iff_nil isOutput).mpr isNil)
  rw [streamReleases, streamRecords_of_ok receives pieces isRecord,
    if_pos isOutput, if_neg nonempty]
  split <;> rfl

theorem streamReleases_of_stderr
    (pieces : Pieces)
    (isRecord : readFcgiFromStream reads = (.ok record, after))
    (goesOn : ¬ Stops record)
    (notOutput : record.recType ≠ stdoutType) :
    streamReleases receives pieces reads =
      streamReleases receives pieces after := by
  have isStderr : record.recType = stderrType := by
    by_contra notStderr
    exact goesOn ((stops_iff_notStderr notOutput).mpr notStderr)
  rw [streamReleases, streamRecords_of_ok receives pieces isRecord,
    if_neg notOutput, if_pos isStderr]
  rfl

end Steps

/-- The client takes the next `count` pieces after the first `first`. -/
def Takes (receives : Nat → Bool) (first count : Nat) : Prop :=
  ∀ index, first ≤ index → index < first + count → receives index = true

/--
The task comes to the end of records that it goes on after, if the client takes
all their output.
-/
theorem streamReleases_of_reads
    {receives : Nat → Bool}
    {reads after : List (Event IoError)}
    {passed : List FcgiRecord}
    (readsPassed : Reads reads passed after)
    (goesOn : GoOn passed)
    (pieces : Pieces) :
    (Takes receives pieces.length (outputs passed) ∧
      ∃ later,
        streamReleases receives pieces reads =
          streamReleases receives later after) ∨
    (¬ Takes receives pieces.length (outputs passed) ∧
      streamReleases receives pieces reads = none) := by
  induction readsPassed generalizing pieces with
  | done =>
      left
      refine ⟨?_, pieces, rfl⟩
      intro index least less
      exact absurd less (Nat.not_lt.mpr least)
  | @next reads middle rest record later isRecord readsLater
      inductionHypothesis =>
      obtain ⟨notStop, laterGoOn⟩ := List.forall_mem_cons.mp goesOn
      by_cases isOutput : record.recType = stdoutType
      · have isCount : outputs (record :: later) = outputs later + 1 := by
          simp [outputs, isOutput]
        rw [streamReleases_of_output pieces isRecord notStop isOutput,
          isCount]
        have onwards :=
          inductionHypothesis laterGoOn (pieces ++ [.ok record.data])
        rw [List.length_append, List.length_singleton] at onwards
        have split :
            Takes receives pieces.length (outputs later + 1) ↔
              receives pieces.length = true ∧
                Takes receives (pieces.length + 1) (outputs later) := by
          constructor
          · intro takes
            refine ⟨takes _ (Nat.le_refl _) (by omega), ?_⟩
            intro index least less
            exact takes index (by omega) (by omega)
          · rintro ⟨takesFirst, takesLater⟩ index least less
            rcases Nat.eq_or_lt_of_le least with rfl | greater
            · exact takesFirst
            · exact takesLater index greater (by omega)
        by_cases takesFirst : receives pieces.length = true
        · rw [if_pos takesFirst]
          rcases onwards with ⟨takesLater, goesTo⟩ | ⟨refuses, isNone⟩
          · exact .inl ⟨split.mpr ⟨takesFirst, takesLater⟩, goesTo⟩
          · exact .inr ⟨fun takes => refuses (split.mp takes).2, isNone⟩
        · rw [if_neg takesFirst]
          exact .inr ⟨fun takes => takesFirst (split.mp takes).1, rfl⟩
      · have isCount : outputs (record :: later) = outputs later := by
          simp [outputs, isOutput]
        rw [streamReleases_of_stderr pieces isRecord notStop isOutput,
          isCount]
        exact inductionHypothesis laterGoOn pieces

section Body

variable
  {receives : Nat → Bool}
  {reads after : List (Event IoError)}
  {record : FcgiRecord}
  {error : IoError}

theorem bodyReleases_of_failure
    (body : List UInt8)
    (isFailure : readFcgiFromStream reads = (.failed error, after)) :
    bodyReleases receives body reads = some after := by
  rw [bodyReleases, collectBody_of_failure body isFailure]

theorem bodyReleases_of_stall
    (body : List UInt8)
    (isStall : readFcgiFromStream reads = (.stall, after)) :
    bodyReleases receives body reads = none := by
  have isEnd : collectBody body reads = .stall := by
    rw [collectBody]
    split
    · rename_i isRead
      rw [isStall] at isRead
      cases isRead
    · rename_i isRead
      rw [isStall] at isRead
      cases isRead
    · rfl
  rw [bodyReleases, isEnd]

theorem bodyReleases_of_stops
    (body : List UInt8)
    (isRecord : readFcgiFromStream reads = (.ok record, after))
    (stops : Stops record) :
    bodyReleases receives body reads = some after := by
  rw [bodyReleases, collectBody_of_record body isRecord]
  by_cases isOutput : record.recType = stdoutType
  · have isNil := (stops_iff_nil isOutput).mp stops
    simp [isOutput, isNil]
  · have notStderr := (stops_iff_notStderr isOutput).mp stops
    simp [isOutput, notStderr]

/-- How the body loop goes on after a record that does not stop it. -/
theorem bodyReleases_of_goesOn
    (body : List UInt8)
    (isRecord : readFcgiFromStream reads = (.ok record, after))
    (goesOn : ¬ Stops record) :
    bodyReleases receives body reads =
      if record.recType = stdoutType then
        if collectLimit < body.length + record.data.length then
          if receives 0 = true then
            streamReleases receives [.ok (body ++ record.data)] after
          else
            none
        else
          bodyReleases receives (body ++ record.data) after
      else
        bodyReleases receives body after := by
  rw [bodyReleases, collectBody_of_record body isRecord]
  by_cases isOutput : record.recType = stdoutType
  · have nonempty : record.data ≠ [] := fun isNil =>
      goesOn ((stops_iff_nil isOutput).mpr isNil)
    rw [if_pos isOutput, if_pos isOutput, if_neg nonempty,
      List.length_append]
    by_cases large : collectLimit < body.length + record.data.length
    · rw [if_pos large, if_pos large]
    · rw [if_neg large, if_neg large]
      rfl
  · have isStderr : record.recType = stderrType := by
      by_contra notStderr
      exact goesOn ((stops_iff_notStderr isOutput).mpr notStderr)
    rw [if_neg isOutput, if_neg isOutput, if_pos isStderr]
    rfl

end Body

/--
The body loop comes to the end of records that it goes on after, collecting or
streaming, unless the client goes away.
-/
inductive Arrives
    (receives : Nat → Bool)
    (count : Nat)
    (released : Option (List (Event IoError)))
    (after : List (Event IoError)) : Prop where
  | collecting
      (body : List UInt8)
      (none : count = 0)
      (isReleased : released = bodyReleases receives body after)
  | streaming
      (pieces : Pieces)
      (some : 0 < count)
      (takes : Takes receives 0 count)
      (isReleased : released = streamReleases receives pieces after)
  | gone
      (refuses : ¬ Takes receives 0 count)
      (isReleased : released = none)

theorem arrives_bodyReleases
    {receives : Nat → Bool}
    {reads after : List (Event IoError)}
    {passed : List FcgiRecord}
    (readsPassed : Reads reads passed after)
    (goesOn : GoOn passed)
    (body : List UInt8) :
    Arrives receives (sends body.length passed)
      (bodyReleases receives body reads) after := by
  induction readsPassed generalizing body with
  | done =>
      exact .collecting body rfl rfl
  | @next reads middle rest record later isRecord readsLater
      inductionHypothesis =>
      obtain ⟨notStop, laterGoOn⟩ := List.forall_mem_cons.mp goesOn
      rw [bodyReleases_of_goesOn body isRecord notStop, sends]
      by_cases isOutput : record.recType = stdoutType
      · rw [if_pos isOutput, if_pos isOutput]
        by_cases large : collectLimit < body.length + record.data.length
        · rw [if_pos large, if_pos large]
          have streams :=
            @streamReleases_of_reads receives _ _ _ readsLater laterGoOn
              [.ok (body ++ record.data)]
          rw [List.length_singleton] at streams
          have split :
              Takes receives 0 (1 + outputs later) ↔
                receives 0 = true ∧ Takes receives 1 (outputs later) := by
            constructor
            · intro takes
              exact ⟨takes 0 (Nat.le_refl 0) (by omega),
                fun index _ less => takes index (Nat.zero_le _) (by omega)⟩
            · rintro ⟨takesFirst, takesLater⟩ index _ less
              rcases Nat.eq_zero_or_pos index with rfl | positive
              · exact takesFirst
              · exact takesLater index positive (by omega)
          by_cases takesFirst : receives 0 = true
          · rw [if_pos takesFirst]
            rcases streams with
              ⟨takesLater, pieces, isReleased⟩ | ⟨refuses, isNone⟩
            · exact .streaming pieces (by omega)
                (split.mpr ⟨takesFirst, takesLater⟩) isReleased
            · exact .gone (fun takes => refuses (split.mp takes).2) isNone
          · rw [if_neg takesFirst]
            exact .gone (fun takes => takesFirst (split.mp takes).1) rfl
        · rw [if_neg large, if_neg large, ← List.length_append]
          exact inductionHypothesis laterGoOn _
      · rw [if_neg isOutput, if_neg isOutput]
        exact inductionHypothesis laterGoOn body

/-! ## Whole responses -/

section Whole

variable
  {context : FcgiContext}
  {reads after rest : List (Event IoError)}
  {parsed : FcgiParsedHeaders}

/-- The headers are read from whole records, the last of which is output. -/
theorem reads_of_headers
    {buffer : List UInt8}
    (isParsed : readHeadersFromStream buffer reads = (.ok parsed, after)) :
    ∃ records last,
      Reads reads (records ++ [last]) after ∧
        last.recType = stdoutType ∧
        (last.data = [] ↔ parsed.bodyDone = true) := by
  fun_induction readHeadersFromStream buffer reads with
  | case1 buffer reads record rest isRecord isOutput isNil =>
      cases isParsed
      exact ⟨[], record, .next isRecord .done, isOutput, by simp [isNil]⟩
  | case2 buffer reads record rest isRecord isOutput nonempty all
      bodyStart textEnd isEnd =>
      cases isParsed
      exact ⟨[], record, .next isRecord .done, isOutput, by simp [nonempty]⟩
  | case3 buffer reads record rest isRecord isOutput nonempty all noEnd
      inductionHypothesis =>
      obtain ⟨records, last, readsLater, isLast⟩ :=
        inductionHypothesis isParsed
      exact ⟨record :: records, last, .next isRecord readsLater, isLast⟩
  | case4 buffer reads record rest isRecord notOutput
      inductionHypothesis =>
      obtain ⟨records, last, readsLater, isLast⟩ :=
        inductionHypothesis isParsed
      exact ⟨record :: records, last, .next isRecord readsLater, isLast⟩
  | case5 buffer reads error rest isFailure =>
      cases isParsed
  | case6 buffer reads rest isStall =>
      cases isParsed

/-- What is released once the headers are read. -/
def releases
    (context : FcgiContext)
    (parsed : FcgiParsedHeaders)
    (after : List (Event IoError)) :
    Option (List (Event IoError)) :=
  if parsed.bodyDone = true then
    some after
  else
    bodyReleases context.receives parsed.bodyPrefix after

/-- Only a body over the limit is streamed. -/
theorem collectLimit_lt_of_large
    {body all : List UInt8}
    (isLarge : collectBody body reads = .large all after) :
    collectLimit < all.length := by
  fun_induction collectBody body reads with
  | case1 =>
      cases isLarge
  | case2 _ _ _ _ _ _ _ exceeds =>
      cases isLarge
      exact exceeds
  | case3 _ _ _ _ _ _ _ _ inductionHypothesis =>
      exact inductionHypothesis isLarge
  | case4 _ _ _ _ _ _ _ inductionHypothesis =>
      exact inductionHypothesis isLarge
  | case5 =>
      cases isLarge
  | case6 =>
      cases isLarge
  | case7 =>
      cases isLarge

theorem buildStreamingResponse_released :
    (∃ made stored,
      context.buildStreamingResponse parsed after =
        .response made stored (some rest)) ↔
      releases context parsed after = some rest := by
  unfold FcgiContext.buildStreamingResponse releases
  by_cases done : parsed.bodyDone = true
  · simp [done, FcgiContext.finish]
  · rw [if_neg done, if_neg done, bodyReleases]
    cases isBody : collectBody parsed.bodyPrefix after with
    | whole body later =>
        simp [FcgiContext.finish]
    | large body later =>
        have exceeds := collectLimit_lt_of_large isBody
        have nonempty : body ≠ [] := by
          rintro rfl
          exact absurd exceeds (Nat.not_lt_zero _)
        simp only [streamRemaining, if_neg nonempty, streamReleases]
        by_cases takes : context.receives 0 = true
        · simp [takes]
        · simp [takes]
    | stall =>
        simp

/--
What is released is what the body loop releases, or what the headers leave.
-/
theorem readResponse_released :
    (∃ made stored,
      context.readResponse reads = .response made stored (some rest)) ↔
      ∃ parsed after,
        readHeadersFromStream [] reads = (.ok parsed, after) ∧
          releases context parsed after = some rest := by
  unfold FcgiContext.readResponse
  cases readHeadersFromStream [] reads with
  | mk result after =>
      cases result with
      | ok parsed =>
          simp [buildStreamingResponse_released]
      | failed error =>
          simp
      | stall =>
          simp

/-- A read that fails does not add to the stream. -/
theorem weight_readFcgiFromStream_le_of_failure
    {error : IoError}
    (isFailure : readFcgiFromStream reads = (.failed error, after)) :
    weight after ≤ weight reads := by
  have headerRead := weight_readExact_le 8 reads
  unfold readFcgiFromStream at isFailure
  split at isFailure
  · rename_i header middle isHeader
    rw [isHeader] at headerRead
    have contentRead := weight_readExact_le
      ((header.getD 4 0).toNat * 2 ^ 8 + (header.getD 5 0).toNat +
        (header.getD 6 0).toNat)
      middle
    dsimp only at isFailure
    split at isFailure
    · cases isFailure
    · rename_i isContent
      obtain ⟨-, rfl⟩ := Prod.mk.inj isFailure
      rw [isContent] at contentRead
      exact Nat.le_trans contentRead headerRead
    · cases isFailure
  · rename_i isHeader
    obtain ⟨-, rfl⟩ := Prod.mk.inj isFailure
    rw [isHeader] at headerRead
    exact headerRead
  · cases isFailure

/-- Records that end where a read fails, or after that read, are the same. -/
theorem Reads.eq_of_failure
    {first second : List FcgiRecord}
    {error : IoError}
    (readsFirst : Reads reads first after)
    (isFailure : readFcgiFromStream after = (.failed error, rest))
    (readsSecond : Reads reads second rest) :
    second = first := by
  have notMore := weight_readFcgiFromStream_le_of_failure isFailure
  rcases readsFirst.cases_of_reads readsSecond with
    ⟨more, rfl, readsMore⟩ | ⟨more, rfl, readsMore⟩
  · cases readsMore with
    | done =>
        exact List.append_nil _
    | next isRecord _ =>
        rw [isFailure] at isRecord
        cases isRecord
  · have noMore := readsMore.eq_nil_of_weight_le notMore
    rw [noMore.1, List.append_nil]

end Whole

/-! ## When what is released is in step -/

section Released

variable
  {context : FcgiContext}
  {reads after middle rest : List (Event IoError)}
  {parsed : FcgiParsedHeaders}
  {passed : List FcgiRecord}

/-- The body loop stops cleanly, so what it releases is in step. -/
theorem inStep_of_stopsCleanly
    (readsPassed : Reads reads passed after)
    (clean :
      StopsCleanly context.receives parsed.bodyPrefix.length after)
    (isReleased :
      bodyReleases context.receives parsed.bodyPrefix after = some rest) :
    InStep reads rest := by
  obtain ⟨others, middle, readsOthers, goesOn, halt⟩ := exists_halt after
  have arrives :=
    @arrives_bodyReleases context.receives _ _ _ readsOthers goesOn
      parsed.bodyPrefix
  cases halt with
  | failure error failed isFailure =>
      have sent := clean.failure _ _ _ _ readsOthers goesOn isFailure
      cases arrives with
      | collecting body none _ =>
          exact absurd none (Nat.ne_of_gt sent)
      | streaming pieces _ _ isStreamed =>
          rw [isReleased, streamReleases_of_failure pieces isFailure]
            at isStreamed
          cases isStreamed
      | gone _ isNone =>
          rw [isReleased] at isNone
          cases isNone
  | record record later isRecord stops =>
      have ending :=
        clean.record _ _ _ _ readsOthers goesOn isRecord stops
      have readsAll : Reads reads (passed ++ others ++ [record]) later :=
        (readsPassed.append readsOthers).append (.next isRecord .done)
      cases arrives with
      | collecting body none isCollected =>
          rw [isReleased, bodyReleases_of_stops body isRecord stops]
            at isCollected
          cases isCollected
          rcases ending with ends | ⟨index, less, _⟩
          · exact ⟨passed ++ others, record, readsAll, ends⟩
          · rw [none] at less
            exact absurd less (Nat.not_lt_zero index)
      | streaming pieces _ takes isStreamed =>
          rw [isReleased, streamReleases_of_stops pieces isRecord stops]
            at isStreamed
          cases isStreamed
          rcases ending with ends | ⟨index, less, refuses⟩
          · exact ⟨passed ++ others, record, readsAll, ends⟩
          · have taken := takes index (Nat.zero_le index) (by omega)
            rw [refuses] at taken
            cases taken
      | gone _ isNone =>
          rw [isReleased] at isNone
          cases isNone
  | stall later isStall =>
      cases arrives with
      | collecting body _ isCollected =>
          rw [isReleased, bodyReleases_of_stall body isStall]
            at isCollected
          cases isCollected
      | streaming pieces _ _ isStreamed =>
          rw [isReleased, streamReleases_of_stall pieces isStall]
            at isStreamed
          cases isStreamed
      | gone _ isNone =>
          rw [isReleased] at isNone
          cases isNone

/--
If what the body loop releases is in step, the loop stopped cleanly: the last of
the records that it goes on after does not end a response.
-/
theorem stopsCleanly_of_inStep
    {last : FcgiRecord}
    (readsHeaders : Reads reads (passed ++ [last]) after)
    (isOutput : last.recType = stdoutType)
    (nonempty : last.data ≠ [])
    (inStep :
      ∀ rest,
        bodyReleases context.receives parsed.bodyPrefix after = some rest →
        InStep reads rest) :
    StopsCleanly context.receives parsed.bodyPrefix.length after := by
  have goesOnLast : ¬ Stops last := fun stops =>
    nonempty ((stops_iff_nil isOutput).mp stops)
  constructor
  · intro others middle error later readsOthers goesOn isFailure
    have arrives :=
      @arrives_bodyReleases context.receives _ _ _ readsOthers goesOn
        parsed.bodyPrefix
    cases arrives with
    | collecting body none isCollected =>
        rw [bodyReleases_of_failure body isFailure] at isCollected
        obtain ⟨records, final, readsRecords, ends⟩ :=
          inStep later isCollected
        have readsAll := readsHeaders.append readsOthers
        have isSame := readsAll.eq_of_failure isFailure readsRecords
        have isMember : final ∈ last :: others := by
          have isLast : (passed ++ [last] ++ others).getLast? = some final := by
            rw [← isSame, List.getLast?_concat]
          rw [List.append_assoc, List.singleton_append,
            List.getLast?_append_of_ne_nil _ (List.cons_ne_nil _ _)]
            at isLast
          exact List.mem_of_getLast? isLast
        have stops := stops_of_ends ends
        rcases List.mem_cons.mp isMember with rfl | isOther
        · exact absurd stops goesOnLast
        · exact absurd stops (goesOn final isOther)
    | streaming _ some _ _ =>
        exact some
    | gone refuses _ =>
        apply Nat.pos_of_ne_zero
        intro none
        apply refuses
        intro index _ less
        rw [none] at less
        exact absurd less (Nat.not_lt_zero index)
  · intro others middle record later readsOthers goesOn isRecord stops
    have readsAll :
        Reads reads (passed ++ [last] ++ others ++ [record]) later :=
      (readsHeaders.append readsOthers).append (.next isRecord .done)
    have endsOf (isReleased :
        bodyReleases context.receives parsed.bodyPrefix after =
          some later) :
        Ends record := by
      obtain ⟨records, final, readsRecords, ends⟩ := inStep later isReleased
      have isSame := readsRecords.eq_of_reads readsAll
      obtain ⟨-, isFinal⟩ := List.append_inj' isSame rfl
      cases isFinal
      exact ends
    have arrives :=
      @arrives_bodyReleases context.receives _ _ _ readsOthers goesOn
        parsed.bodyPrefix
    cases arrives with
    | collecting body _ isCollected =>
        rw [bodyReleases_of_stops body isRecord stops] at isCollected
        exact .inl (endsOf isCollected)
    | streaming pieces _ _ isStreamed =>
        rw [streamReleases_of_stops pieces isRecord stops] at isStreamed
        exact .inl (endsOf isStreamed)
    | gone refuses _ =>
        simp only [Takes, Nat.zero_le, Nat.zero_add, true_implies,
          not_forall, Bool.not_eq_true] at refuses
        obtain ⟨index, less, isFalse⟩ := refuses
        exact .inr ⟨index, less, isFalse⟩

end Released

/--
Every connection that goes back to the pool is in step exactly if, once the
headers are read, an empty `STDOUT` ended them, or the body loop stops cleanly.
-/
theorem releasesInStep_iff
    (context : FcgiContext)
    (reads : List (Event IoError)) :
    ReleasesInStep context reads ↔
      ∀ parsed after,
        readHeadersFromStream [] reads = (.ok parsed, after) →
        parsed.bodyDone = true ∨
          StopsCleanly context.receives parsed.bodyPrefix.length after := by
  constructor
  · intro releasesInStep parsed after isParsed
    obtain ⟨records, last, readsHeaders, isOutput, isDone⟩ :=
      reads_of_headers isParsed
    by_cases done : parsed.bodyDone = true
    · exact .inl done
    · refine .inr ?_
      have nonempty : last.data ≠ [] := fun isNil => done (isDone.mp isNil)
      apply stopsCleanly_of_inStep readsHeaders isOutput nonempty
      intro rest isReleased
      have isRelease : releases context parsed after = some rest := by
        rw [releases, if_neg done]
        exact isReleased
      obtain ⟨made, stored, isResponse⟩ :=
        readResponse_released.mpr ⟨parsed, after, isParsed, isRelease⟩
      exact releasesInStep.inStep made stored rest isResponse
  · intro clean
    have allInStep :
        ∀ made stored rest,
          context.readResponse reads = .response made stored (some rest) →
          InStep reads rest := by
      intro made stored rest isResponse
      obtain ⟨parsed, after, isParsed, isRelease⟩ :=
        readResponse_released.mp ⟨made, stored, isResponse⟩
      obtain ⟨records, last, readsHeaders, isOutput, isDone⟩ :=
        reads_of_headers isParsed
      by_cases done : parsed.bodyDone = true
      · rw [releases, if_pos done] at isRelease
        cases isRelease
        exact ⟨records, last, readsHeaders,
          .inl ⟨isOutput, isDone.mpr done⟩⟩
      · rw [releases, if_neg done] at isRelease
        rcases clean parsed after isParsed with isDone | stopsCleanly
        · exact absurd isDone done
        · exact inStep_of_stopsCleanly readsHeaders stopsCleanly isRelease
    refine ⟨allInStep, ?_⟩
    intro made stored rest current unread next isResponse isCurrent
      readsCurrent readsUnread
    exact (allInStep made stored rest isResponse).ownHeaders isCurrent
      readsCurrent readsUnread

/--
The backend closes the connection after the headers: it goes back all the same.
-/
theorem not_releasesInStep_of_closed :
    ¬ ReleasesInStep ⟨none, fun _ => true, fun _ => true⟩
      [.data 1 [6, 0, 1, 0, 4, 0, 0, 13, 10, 13, 10]] := by
  intro releasesInStep
  let reads : List (Event IoError) :=
    [.data 1 [6, 0, 1, 0, 4, 0, 0, 13, 10, 13, 10]]
  let headers : FcgiRecord := ⟨stdoutType, [13, 10, 13, 10]⟩
  have isRecord : readFcgiFromStream reads = (.ok headers, []) := by
    simp [readFcgiFromStream, readExact, pullExact, pull, Event.ofBytes,
      reads, headers, stdoutType]
  have isClosed :
      readFcgiFromStream [] =
        (.failed ⟨.unexpectedEof, "early eof"⟩, []) := by
    simp [readFcgiFromStream, readExact, pullExact, pull]
  have isParsed :
      readHeadersFromStream [] reads = (.ok ⟨[], [], false⟩, []) := by
    rw [readHeadersFromStream_of_record [] isRecord]
    decide
  have isReleased :
      releases ⟨none, fun _ => true, fun _ => true⟩ ⟨[], [], false⟩ [] =
        some [] :=
    bodyReleases_of_failure [] isClosed
  obtain ⟨made, stored, isResponse⟩ :=
    readResponse_released.mpr ⟨_, _, isParsed, isReleased⟩
  obtain ⟨records, last, readsRecords, ends⟩ :=
    releasesInStep.inStep made stored [] isResponse
  have readsHeaders : Reads reads ([] ++ [headers]) [] :=
    .next isRecord .done
  obtain ⟨-, isLast⟩ :=
    List.append_inj' (readsRecords.eq_of_reads readsHeaders) rfl
  cases isLast
  rcases ends with ⟨_, isNil⟩ | isEnd
  · cases isNil
  · exact absurd isEnd (by decide)

end Sweety.FastCgi
