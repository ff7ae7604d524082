import Sweety.ForwardRequest

namespace Sweety.ForwardRequest

open HttpText SegmentedReader UpstreamResponse

/-!
# Whose body an upstream got

Whenever `forward_request` returns a response, the connection that produced it
should have been sent the client's whole body.  The first attempt takes the body
before anything is written.  If it then fails while writing the head, or finds
the connection closed before the first byte of a response, the second attempt
starts with an empty body.
-/

/-- The writes that make up a whole body. -/
def bodyWrites
    (useChunked : Bool)
    (chunks : List (List UInt8)) :
    List (List UInt8) :=
  (chunks.filter fun chunk => !chunk.isEmpty).flatMap
      (chunkWrites useChunked) ++
    endWrites useChunked

/-- A whole body on the wire. -/
def encodedBody
    (useChunked : Bool)
    (chunks : List (List UInt8)) :
    List UInt8 :=
  (bodyWrites useChunked chunks).flatten

/-- A body whose stream brings these chunks and ends. -/
def wholeBody (chunks : List (List UInt8)) : RequestBody :=
  chunks.map BodyEvent.chunk

/-! ## Piping the body -/

variable {useChunked : Bool}

theorem writeError?_eq_none_iff
    {context timeoutText : String}
    {result : WriteResult} :
    writeError? context timeoutText result = none ↔ result = .done := by
  cases result <;> simp [writeError?]

theorem bodyWrites_cons
    (byte : UInt8)
    (others : List UInt8)
    (chunks : List (List UInt8)) :
    bodyWrites useChunked ((byte :: others) :: chunks) =
      chunkWrites useChunked (byte :: others) ++
        bodyWrites useChunked chunks := by
  simp [bodyWrites]

/-- A body is piped without error only if its stream ends properly. -/
theorem pipeRequestBody_done
    {body : RequestBody}
    {conn after : Conn}
    (piped : pipeRequestBody useChunked body conn = (none, after)) :
    ∃ chunks,
      body = wholeBody chunks ∧
        conn.Accepts (bodyWrites useChunked chunks).length ∧
        after = conn.wrote (bodyWrites useChunked chunks) := by
  induction body generalizing conn with
  | nil =>
      have done :
          (conn.writeEach (endWrites useChunked)).1 = .done :=
        writeError?_eq_none_iff.mp (congrArg Prod.fst piped)
      obtain ⟨written, accepts⟩ := Conn.writeEach_done done
      refine ⟨[], rfl, accepts, ?_⟩
      have isAfter := congrArg Prod.snd piped
      simp only [pipeRequestBody, written] at isAfter
      exact isAfter.symm
  | cons event rest inductionHypothesis =>
      rcases event with (_ | ⟨byte, others⟩) | text | _
      · obtain ⟨chunks, rfl, facts⟩ := inductionHypothesis piped
        exact ⟨[] :: chunks, rfl, facts⟩
      · rcases Conn.writeEach_cases
            (chunkWrites useChunked (byte :: others)) conn with
            ⟨written, accepts⟩ | ⟨notDone, _⟩
        · simp only [pipeRequestBody, written] at piped
          obtain ⟨chunks, rfl, restAccepts, rfl⟩ :=
            inductionHypothesis piped
          refine ⟨(byte :: others) :: chunks, rfl, ?_, ?_⟩
          · rw [bodyWrites_cons, List.length_append, Conn.accepts_add]
            exact ⟨accepts, restAccepts⟩
          · rw [bodyWrites_cons, Conn.wrote_append]
        · simp only [pipeRequestBody] at piped
          have isDone :=
            writeError?_eq_none_iff.mp (congrArg Prod.fst piped)
          exact absurd isDone notDone
      · cases piped
      · cases piped

/-- A whole body is piped if the connection accepts all its writes. -/
theorem pipeRequestBody_whole
    {chunks : List (List UInt8)}
    {conn : Conn}
    (accepts : conn.Accepts (bodyWrites useChunked chunks).length) :
    pipeRequestBody useChunked (wholeBody chunks) conn =
      (none, conn.wrote (bodyWrites useChunked chunks)) := by
  induction chunks generalizing conn with
  | nil =>
      have written :
          conn.writeEach (endWrites useChunked) =
            (.done, conn.wrote (endWrites useChunked)) :=
        Conn.writeEach_of_accepts accepts
      simp only [wholeBody, List.map_nil, pipeRequestBody, written]
      rfl
  | cons chunk rest inductionHypothesis =>
      cases chunk with
      | nil =>
          exact inductionHypothesis accepts
      | cons byte others =>
          rw [bodyWrites_cons, List.length_append,
            Conn.accepts_add] at accepts
          obtain ⟨chunkAccepts, restAccepts⟩ := accepts
          have written := Conn.writeEach_of_accepts chunkAccepts
          have restPiped := inductionHypothesis restAccepts
          simp only [wholeBody] at restPiped
          simp only [wholeBody, List.map_cons, pipeRequestBody, written,
            restPiped]
          rw [Conn.wrote_append, bodyWrites_cons]

/-! ## One attempt -/

section Attempt

variable
  {mode : ReplyMode}
  {writeTimeout : Nat}
  {request : Request}
  {body : RequestBody}
  {allowRetry : Bool}
  {conn : Conn}

/--
The attempt fails before the first byte of a response, and claims that the body
is still there: the head is not written, or the whole request is written and the
connection is found closed.
-/
def FailsUnanswered
    (request : Request)
    (body : RequestBody)
    (conn : Conn) :
    Prop :=
  ¬ conn.Accepts 2 ∨
    ∃ chunks,
      body = wholeBody chunks ∧
        conn.Accepts
          (2 + (bodyWrites request.useChunked chunks).length) ∧
        conn.reads = []

/-- What was sent before does not matter. -/
theorem failsUnanswered_handedOver :
    FailsUnanswered request body conn.handedOver ↔
      FailsUnanswered request body conn :=
  Iff.rfl

/-- No status line arrives that the response could be read after. -/
def NoStatusLine (reads : List (Event IoError)) : Prop :=
  match (readTextLine ⟨[], reads⟩).1 with
  | .stall =>
      True
  | .error error before =>
      ¬ (error.kind = .unexpectedEof ∧ before ≠ [])
  | .ok line =>
      line = []

/-- An empty status line means that the connection is closed. -/
theorem reads_eq_nil_of_readTextLine
    {reads : List (Event IoError)}
    {rest : Reader}
    (isLine : readTextLine ⟨[], reads⟩ = (.ok [], rest)) :
    reads = [] := by
  unfold readTextLine at isLine
  split at isLine
  · rename_i bytes _ isRead
    split at isLine
    · rename_i line decoded
      obtain ⟨sameLine, _⟩ := Prod.mk.inj isLine
      obtain rfl := LineText.ok.inj sameLine
      have noBytes : bytes = [] := eq_encodeUtf8_of_decodeUtf8 decoded
      apply reads_eq_nil_of_readLine
      rw [isRead, noBytes]
    · cases isLine
  · cases isLine
  · cases isLine

/-- On a closed connection the body is taken to be unused. -/
theorem receive_closed :
    receive mode true ⟨[], []⟩ =
      .failed (.proxy (.connReset "")) false := by
  have isLine : readTextLine ⟨[], []⟩ = (.ok [], ⟨[], []⟩) := by
    rw [readTextLine, readLine]
    rfl
  rw [receive, isLine]

/-- With a status line, the rest of the response decides. -/
theorem receive_of_line
    {hasBody : Bool}
    {reader rest : Reader}
    {line : List Char}
    (isLine : readTextLine reader = (.ok line, rest))
    (nonempty : line ≠ []) :
    receive mode hasBody reader = afterStatusLine mode line rest := by
  cases line with
  | nil =>
      exact absurd rfl nonempty
  | cons char others =>
      rw [receive, isLine]

/-- Once there is a status line, the body counts as used. -/
theorem afterStatusLine_ne_failed_false
    {line : List Char}
    {reader : Reader}
    {error : ForwardError} :
    afterStatusLine mode line reader ≠ .failed error false := by
  intro failed
  unfold afterStatusLine at failed
  split at failed <;> cases failed

/-- With a body, only a closed connection makes reading blame the head. -/
theorem receive_failed_false
    {reads : List (Event IoError)}
    {error : ForwardError}
    (failed : receive mode true ⟨[], reads⟩ = .failed error false) :
    reads = [] := by
  unfold receive at failed
  split at failed
  · cases failed
  · split at failed
    · exact absurd failed afterStatusLine_ne_failed_false
    · split at failed <;> cases failed
  · rename_i isLine
    exact reads_eq_nil_of_readTextLine isLine
  · exact absurd failed afterStatusLine_ne_failed_false

theorem wholeBody_injective
    {first second : List (List UInt8)}
    (same : wholeBody first = wholeBody second) :
    first = second := by
  apply List.map_injective_iff.mpr _ same
  intro chunk other sameChunk
  exact BodyEvent.chunk.inj sameChunk

/-- What one attempt does for a request with a body and without `Expect`. -/
structure AttemptSpec
    (request : Request)
    (body : RequestBody)
    (conn : Conn)
    (result : SendResult)
    (after : Conn) :
    Prop where
  unanswered_iff :
    (∃ error, result = .failed error false) ↔
      FailsUnanswered request body conn
  whole :
    ∀ reply released,
      result = .ok reply released →
        ∃ chunks,
          body = wholeBody chunks ∧
            after.sent =
              conn.sent ++ request.head ++
                encodedBody request.useChunked chunks

/-- A head that is not written counts as a body that is not used. -/
theorem sendRecvPooled_of_head_refused
    {result : WriteResult}
    {after : Conn}
    (refused : conn.writeEach [request.head, []] = (result, after))
    (notDone : result ≠ .done) :
    ∃ error,
      sendRecvPooled mode writeTimeout request body allowRetry conn =
        (.failed error false, after) := by
  rw [sendRecvPooled, refused]
  cases result with
  | done =>
      exact absurd rfl notDone
  | failed error =>
      dsimp only
      split <;> exact ⟨_, rfl⟩
  | timedOut =>
      exact ⟨_, rfl⟩

/-- A head that is written leaves the body and the response. -/
theorem sendRecvPooled_of_head_written
    (mode : ReplyMode)
    (writeTimeout : Nat)
    (request : Request)
    (body : RequestBody)
    (allowRetry : Bool)
    (accepts : conn.Accepts 2) :
    sendRecvPooled mode writeTimeout request body allowRetry conn =
      sendBody mode request body (conn.wrote [request.head, []]) := by
  have written :
      conn.writeEach [request.head, []] =
        (.done, conn.wrote [request.head, []]) :=
    Conn.writeEach_of_accepts accepts
  rw [sendRecvPooled, written]

/-- A whole request that is written leaves the response. -/
theorem sendRecvPooled_of_body_written
    (mode : ReplyMode)
    (writeTimeout : Nat)
    (allowRetry : Bool)
    {chunks : List (List UInt8)}
    (hasBody : request.hasBody = true)
    (noExpect : request.hasExpectContinue = false)
    (accepts :
      conn.Accepts
        (2 + (bodyWrites request.useChunked chunks).length)) :
    sendRecvPooled mode writeTimeout request (wholeBody chunks)
        allowRetry conn =
      (receive mode true ⟨[], conn.reads⟩,
        conn.wrote
          ([request.head, []] ++ bodyWrites request.useChunked chunks)) := by
  obtain ⟨headAccepts, bodyAccepts⟩ :=
    (Conn.accepts_add [request.head, []] _ conn).mp accepts
  have sendsBody :=
    sendRecvPooled_of_head_written mode writeTimeout request
      (wholeBody chunks) allowRetry headAccepts
  rw [sendsBody, sendBody]
  simp only [hasBody, noExpect, Bool.and_false, Bool.false_eq_true,
    ↓reduceIte]
  rw [pipeRequestBody_whole bodyAccepts, Conn.wrote_append]
  rfl

/-- The head is refused. -/
theorem attemptSpec_of_head_refused
    (refuses : ¬ conn.Accepts 2) :
    AttemptSpec request body conn
      (sendRecvPooled mode writeTimeout request body allowRetry conn).1
      (sendRecvPooled mode writeTimeout request body allowRetry conn).2 := by
  have fails :
      ∃ error,
        (sendRecvPooled mode writeTimeout request body allowRetry conn).1 =
          .failed error false := by
    rcases Conn.writeEach_cases [request.head, []] conn with
        ⟨_, accepts⟩ | ⟨notDone, _⟩
    · exact absurd accepts refuses
    · obtain ⟨error, attempt⟩ :=
        sendRecvPooled_of_head_refused (Prod.eta _).symm notDone
      exact ⟨error, congrArg Prod.fst attempt⟩
  obtain ⟨error, isFailed⟩ := fails
  constructor
  · exact iff_of_true ⟨error, isFailed⟩ (.inl refuses)
  · intro reply released isOk
    rw [isFailed] at isOk
    cases isOk

/-- The head is accepted. -/
theorem attemptSpec_of_head_accepted
    (hasBody : request.hasBody = true)
    (noExpect : request.hasExpectContinue = false)
    (accepts : conn.Accepts 2) :
    AttemptSpec request body conn
      (sendRecvPooled mode writeTimeout request body allowRetry conn).1
      (sendRecvPooled mode writeTimeout request body allowRetry conn).2 := by
  rw [sendRecvPooled_of_head_written mode writeTimeout request body
    allowRetry accepts]
  simp only [sendBody, hasBody, noExpect, Bool.and_false,
    Bool.false_eq_true, ↓reduceIte]
  cases piped :
      pipeRequestBody request.useChunked body
        (conn.wrote [request.head, []]) with
  | mk failure after =>
      cases failure with
      | some error =>
          -- The body is not written: nothing is sent twice.
          constructor
          · refine iff_of_false ?_ ?_
            · rintro ⟨_, isFailed⟩
              cases isFailed
            · rintro (refuses | ⟨chunks, rfl, bodyAccepts, _⟩)
              · exact refuses accepts
              · have split :=
                  (Conn.accepts_add [request.head, []] _ conn).mp
                    bodyAccepts
                rw [pipeRequestBody_whole split.2] at piped
                cases piped
          · intro reply released isOk
            cases isOk
      | none =>
          obtain ⟨chunks, rfl, bodyAccepts, rfl⟩ :=
            pipeRequestBody_done piped
          have allAccepted :
              conn.Accepts
                (2 + (bodyWrites request.useChunked chunks).length) :=
            (Conn.accepts_add [request.head, []] _ conn).mpr
              ⟨accepts, bodyAccepts⟩
          constructor
          · constructor
            · rintro ⟨error, isFailed⟩
              exact .inr ⟨chunks, rfl, allAccepted,
                receive_failed_false isFailed⟩
            · rintro (refuses | ⟨_, _, _, closed⟩)
              · exact absurd accepts refuses
              · refine ⟨.proxy (.connReset ""), ?_⟩
                simp only [Conn.wrote, closed]
                exact receive_closed
          · intro reply released _
            refine ⟨chunks, rfl, ?_⟩
            simp [Conn.wrote, encodedBody]

/-- Every attempt with a body meets its specification. -/
theorem attemptSpec
    (mode : ReplyMode)
    (writeTimeout : Nat)
    {request : Request}
    (body : RequestBody)
    (allowRetry : Bool)
    (conn : Conn)
    (hasBody : request.hasBody = true)
    (noExpect : request.hasExpectContinue = false) :
    AttemptSpec request body conn
      (sendRecvPooled mode writeTimeout request body allowRetry conn).1
      (sendRecvPooled mode writeTimeout request body allowRetry conn).2 := by
  by_cases accepts : conn.Accepts 2
  · exact attemptSpec_of_head_accepted hasBody noExpect accepts
  · exact attemptSpec_of_head_refused accepts

end Attempt

/-! ## When the body is kept whole -/

/--
Whenever `forward_request` returns a response, the connection that produced it
was sent the request head and the client's whole body, and nothing else.
-/
def BodyIntegrity
    (request : Request)
    (body : RequestBody)
    (outcome : ForwardOutcome × List Conn) :
    Prop :=
  ∀ reply released,
    outcome.1 = .ok reply released →
      ∃ producer chunks,
        outcome.2.getLast? = some producer ∧
          body = wholeBody chunks ∧
          producer.sent =
            request.head ++ encodedBody request.useChunked chunks

/-- A whole body without a single byte. -/
def EmptyBody (body : RequestBody) : Prop :=
  ∃ chunks, body = wholeBody chunks ∧ ∀ chunk ∈ chunks, chunk = []

/-- The first attempt gets a connection and fails on it unanswered. -/
def FirstFailsUnanswered
    (request : Request)
    (body : RequestBody)
    (first : Except ForwardError Conn) :
    Prop :=
  ∃ conn, first = .ok conn ∧ FailsUnanswered request body conn

/-- The encoding of a body tells whether it has a byte at all. -/
theorem encodedBody_eq_nil_body_iff
    {chunks : List (List UInt8)} :
    encodedBody useChunked chunks = encodedBody useChunked [] ↔
      ∀ chunk ∈ chunks, chunk = [] := by
  have split :
      encodedBody useChunked chunks =
        ((chunks.filter fun chunk => !chunk.isEmpty).flatMap
            (chunkWrites useChunked)).flatten ++
          encodedBody useChunked [] := by
    simp [encodedBody, bodyWrites]
  rw [split, List.append_left_eq_self]
  constructor
  · intro nothing chunk member
    by_contra nonempty
    have data : chunk ∈ chunkWrites useChunked chunk := by
      cases useChunked <;> simp [chunkWrites]
    have isEmpty : chunk = [] := by
      apply List.flatten_eq_nil_iff.mp nothing
      apply List.mem_flatMap.mpr
      refine ⟨chunk, List.mem_filter.mpr ⟨member, ?_⟩, data⟩
      simp [nonempty]
    exact nonempty isEmpty
  · intro allEmpty
    have noneLeft :
        (chunks.filter fun chunk => !chunk.isEmpty) = [] := by
      apply List.filter_eq_nil_iff.mpr
      intro chunk member
      simp [allEmpty chunk member]
    rw [noneLeft]
    rfl

/-- The response of an upstream that has nothing to say. -/
def noContent : List (Event IoError) :=
  Event.ofBytes (ascii "HTTP/1.1 204 No Content\r\n\r\n")

/-- An upstream that takes whatever it is sent and answers. -/
def answering : Conn :=
  ⟨[], noContent, []⟩

/-- Its response is read on every path. -/
theorem receive_noContent (mode : ReplyMode) (hasBody : Bool) :
    receive mode hasBody ⟨[], noContent⟩ =
      .ok ⟨204, [], .none, []⟩ (some ⟨[], []⟩) := by
  have isLine :
      readTextLine ⟨[], noContent⟩ =
        (.ok "HTTP/1.1 204 No Content\r\n".toList,
          ⟨ascii "\r\n", []⟩) := by
    decide +kernel
  have isHead :
      readHeaders (ResponseHead.start false) ⟨ascii "\r\n", []⟩ =
        (.ok (ResponseHead.start false), ⟨[], []⟩) := by
    decide +kernel
  have isReply :
      readReply mode "HTTP/1.1 204 No Content\r\n".toList
          ⟨ascii "\r\n", []⟩ =
        .reply ⟨204, [], .none, []⟩ (some ⟨[], []⟩) := by
    have notOld :
        "HTTP/1.0".toList.isPrefixOf
          "HTTP/1.1 204 No Content\r\n".toList = false := by
      decide
    have status :
        parseStatusCode "HTTP/1.1 204 No Content\r\n".toList =
          204 := by
      decide
    simp only [readReply, notOld, status, isHead]
    rfl
  rw [receive_of_line isLine (by decide), afterStatusLine, isReply]

/-- A repeated attempt on it succeeds, and has sent an empty body. -/
theorem sendRecvPooled_answering
    (mode : ReplyMode)
    (writeTimeout : Nat)
    {request : Request}
    (hasBody : request.hasBody = true)
    (noExpect : request.hasExpectContinue = false) :
    ∃ reply released,
      sendRecvPooled mode writeTimeout request [] false
          answering.handedOver =
        (.ok reply released,
          answering.wrote
            ([request.head, []] ++ bodyWrites request.useChunked [])) := by
  have accepts :
      answering.handedOver.Accepts
        (2 + (bodyWrites request.useChunked []).length) := by
    simp [answering, Conn.handedOver, Conn.Accepts]
  have received := receive_noContent mode true
  have sends :=
    sendRecvPooled_of_body_written mode writeTimeout false hasBody
      noExpect accepts
  refine ⟨⟨204, [], .none, []⟩, some ⟨[], []⟩, sends.trans ?_⟩
  have sameReads : answering.handedOver.reads = noContent := rfl
  rw [sameReads, received]
  rfl

section Forward

variable
  {mode : ReplyMode}
  {writeTimeout : Nat}
  {request : Request}
  {body : RequestBody}
  {conn after : Conn}

/-- An attempt that did not blame the head is the only one. -/
theorem forwardRequest_of_settled
    {result : SendResult}
    {second : Except ForwardError Conn}
    (attempt :
      sendRecvPooled mode writeTimeout request body true
          conn.handedOver =
        (result, after))
    (settled : ∀ error, result ≠ .failed error false) :
    forwardRequest mode writeTimeout request body (.ok conn) second =
      (result.outcome, [after]) := by
  simp only [forwardRequest, attempt]

/-- The attempt on a new connection decides after one that blamed the head. -/
theorem forwardRequest_of_repeated
    {error : ForwardError}
    {result : SendResult}
    {fresh afterFresh : Conn}
    (attempt :
      sendRecvPooled mode writeTimeout request body true
          conn.handedOver =
        (.failed error false, after))
    (again :
      sendRecvPooled mode writeTimeout request [] false
          fresh.handedOver =
        (result, afterFresh)) :
    forwardRequest mode writeTimeout request body (.ok conn)
        (.ok fresh) =
      (result.outcome, [after, afterFresh]) := by
  simp only [forwardRequest, attempt, again]

theorem outcome_eq_ok
    {result : SendResult}
    {reply : Reply}
    {released : Option Reader}
    (isOk : result.outcome = .ok reply released) :
    result = .ok reply released := by
  cases result with
  | ok sameReply sameReleased =>
      obtain ⟨rfl, rfl⟩ := ForwardOutcome.ok.inj isOk
      rfl
  | failed error consumed =>
      cases isOk
  | hang =>
      cases isOk

/-- The first attempt fails unanswered, and blames the head. -/
theorem attempt_of_failsUnanswered
    (mode : ReplyMode)
    (writeTimeout : Nat)
    (hasBody : request.hasBody = true)
    (noExpect : request.hasExpectContinue = false)
    (unanswered : FailsUnanswered request body conn) :
    ∃ error after,
      sendRecvPooled mode writeTimeout request body true
          conn.handedOver =
        (.failed error false, after) := by
  have spec :=
    attemptSpec mode writeTimeout body true conn.handedOver hasBody
      noExpect
  obtain ⟨error, isFailed⟩ :=
    spec.unanswered_iff.mpr (failsUnanswered_handedOver.mpr unanswered)
  exact ⟨error, _, Prod.ext isFailed rfl⟩

/-- A single attempt keeps the body whole. -/
theorem bodyIntegrity_of_settled
    {second : Except ForwardError Conn}
    (hasBody : request.hasBody = true)
    (noExpect : request.hasExpectContinue = false)
    (answered : ¬ FailsUnanswered request body conn) :
    BodyIntegrity request body
      (forwardRequest mode writeTimeout request body (.ok conn)
        second) := by
  have spec :=
    attemptSpec mode writeTimeout body true conn.handedOver hasBody
      noExpect
  cases attempt :
      sendRecvPooled mode writeTimeout request body true
        conn.handedOver with
  | mk result after =>
      rw [attempt] at spec
      have settled : ∀ error, result ≠ .failed error false := by
        intro error isFailed
        have unanswered := spec.unanswered_iff.mp ⟨error, isFailed⟩
        exact answered (failsUnanswered_handedOver.mp unanswered)
      rw [forwardRequest_of_settled attempt settled]
      intro reply released isOk
      obtain ⟨chunks, isWhole, sent⟩ :=
        spec.whole reply released (outcome_eq_ok isOk)
      refine ⟨after, chunks, rfl, isWhole, ?_⟩
      rw [sent, Conn.handedOver, List.nil_append]

/-- A repeated attempt sends an empty body, which is right for an empty one. -/
theorem bodyIntegrity_of_emptyBody
    {first second : Except ForwardError Conn}
    (hasBody : request.hasBody = true)
    (noExpect : request.hasExpectContinue = false)
    (empty : EmptyBody body) :
    BodyIntegrity request body
      (forwardRequest mode writeTimeout request body first second) := by
  cases first with
  | error error =>
      intro reply released isOk
      cases isOk
  | ok conn =>
      by_cases unanswered : FailsUnanswered request body conn
      · obtain ⟨error, after, attempt⟩ :=
          attempt_of_failsUnanswered mode writeTimeout hasBody noExpect
            unanswered
        cases second with
        | error other =>
            simp only [forwardRequest, attempt]
            intro reply released isOk
            cases isOk
        | ok fresh =>
            have spec :=
              attemptSpec mode writeTimeout [] false fresh.handedOver
                hasBody noExpect
            cases again :
                sendRecvPooled mode writeTimeout request [] false
                  fresh.handedOver with
            | mk result afterFresh =>
                rw [again] at spec
                rw [forwardRequest_of_repeated attempt again]
                intro reply released isOk
                obtain ⟨noChunks, isEmpty, sent⟩ :=
                  spec.whole reply released (outcome_eq_ok isOk)
                obtain rfl : noChunks = [] :=
                  wholeBody_injective isEmpty.symm
                obtain ⟨chunks, isWhole, allEmpty⟩ := empty
                refine ⟨afterFresh, chunks, rfl, isWhole, ?_⟩
                rw [encodedBody_eq_nil_body_iff.mpr allEmpty, sent,
                  Conn.handedOver, List.nil_append]
      · exact bodyIntegrity_of_settled hasBody noExpect unanswered

/-- A repeated attempt that is answered shows that the body was empty. -/
theorem emptyBody_of_bodyIntegrity
    (hasBody : request.hasBody = true)
    (noExpect : request.hasExpectContinue = false)
    (unanswered : FailsUnanswered request body conn)
    (whole :
      BodyIntegrity request body
        (forwardRequest mode writeTimeout request body (.ok conn)
          (.ok answering))) :
    EmptyBody body := by
  obtain ⟨error, after, attempt⟩ :=
    attempt_of_failsUnanswered mode writeTimeout hasBody noExpect
      unanswered
  obtain ⟨reply, released, answered⟩ :=
    sendRecvPooled_answering mode writeTimeout hasBody noExpect
  rw [forwardRequest_of_repeated attempt answered] at whole
  obtain ⟨producer, chunks, isLast, isWhole, sent⟩ :=
    whole reply released rfl
  obtain rfl := Option.some.inj isLast
  have sentEmpty :
      request.head ++ encodedBody request.useChunked [] =
        request.head ++ encodedBody request.useChunked chunks := by
    rw [← sent]
    simp [Conn.wrote, answering, encodedBody]
  have sameBody := List.append_cancel_left sentEmpty
  exact ⟨chunks, isWhole, encodedBody_eq_nil_body_iff.mp sameBody.symm⟩

end Forward

/--
The body is kept whole, whatever a new connection would do, exactly if it is
empty or the first attempt does not fail unanswered.
-/
theorem bodyIntegrity_iff
    (mode : ReplyMode)
    (writeTimeout : Nat)
    (request : Request)
    (body : RequestBody)
    (first : Except ForwardError Conn)
    (hasBody : request.hasBody = true)
    (noExpect : request.hasExpectContinue = false) :
    (∀ second,
      BodyIntegrity request body
        (forwardRequest mode writeTimeout request body first second)) ↔
      EmptyBody body ∨ ¬ FirstFailsUnanswered request body first := by
  constructor
  · intro whole
    by_contra neither
    obtain ⟨notEmpty, fails⟩ := not_or.mp neither
    obtain ⟨conn, rfl, unanswered⟩ := not_not.mp fails
    exact notEmpty
      (emptyBody_of_bodyIntegrity hasBody noExpect unanswered
        (whole (.ok answering)))
  · rintro (empty | answered) second
    · exact bodyIntegrity_of_emptyBody hasBody noExpect empty
    · cases first with
      | error error =>
          intro reply released isOk
          cases isOk
      | ok conn =>
          apply bodyIntegrity_of_settled hasBody noExpect
          exact fun unanswered => answered ⟨conn, rfl, unanswered⟩

/-- A request with a body, for the cases below. -/
def samplePost : Request where
  method := "POST"
  path := "/orders"
  host := "shop"
  extraHeaders := []
  clientIp := "10.0.0.1"
  clientProto := "http"

/-- Two chunks of a client's body. -/
def sampleBody : RequestBody :=
  wholeBody [ascii "abc", ascii "de"]

/-- On a connection that answers, the body arrives. -/
theorem bodyIntegrity_on_answering :
    BodyIntegrity samplePost sampleBody
      (forwardRequest ⟨false, fun _ => true⟩ 60 samplePost sampleBody
        (.ok answering) (.ok answering)) := by
  apply (bodyIntegrity_iff ⟨false, fun _ => true⟩ 60 samplePost
    sampleBody (.ok answering) (by decide) (by decide)).mpr
  right
  rintro ⟨conn, isFirst, refuses | ⟨_, _, _, closed⟩⟩
  · obtain rfl := Except.ok.inj isFirst
    exact refuses (by simp [answering, Conn.Accepts])
  · obtain rfl := Except.ok.inj isFirst
    exact absurd closed (by decide)

/--
The upstream has closed an idle connection.  The new connection is sent the
head and an empty chunked body, and its response is returned.
-/
theorem empty_body_sent_after_idle_close :
    ¬ BodyIntegrity samplePost sampleBody
      (forwardRequest ⟨false, fun _ => true⟩ 60 samplePost sampleBody
        (.ok ⟨[], [], []⟩) (.ok answering)) := by
  intro whole
  have unanswered : FailsUnanswered samplePost sampleBody ⟨[], [], []⟩ :=
    .inr ⟨_, rfl, by simp [Conn.Accepts], rfl⟩
  obtain ⟨chunks, isWhole, allEmpty⟩ :=
    emptyBody_of_bodyIntegrity (by decide) (by decide) unanswered whole
  obtain rfl := wholeBody_injective isWhole
  exact absurd (allEmpty (ascii "abc") (by simp)) (by decide)

end Sweety.ForwardRequest
