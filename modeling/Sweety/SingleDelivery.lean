import Sweety.BodyIntegrity
import Sweety.FastCgi
import Sweety.RetryLoop

namespace Sweety

open HttpText SegmentedReader UpstreamResponse

/-!
# How often a request is delivered

A request that is not idempotent should reach at most one backend connection as
a complete request.  The retry loop of the proxy makes one attempt only, but
that attempt may use two connections: `forward_request` repeats a request
whenever the first connection failed before the first byte of a response and the
body counts as unused, also when everything had been written to it.  The FastCGI
handler repeats a request after every error of the first connection that is not
a timeout.
-/

/-- No two of the connections were sent something that is `Delivered`. -/
def AtMostOnce (Delivered : Conn → Prop) (used : List Conn) : Prop :=
  used.Pairwise fun earlier later =>
    ¬ (Delivered earlier ∧ Delivered later)

theorem atMostOnce_nil (Delivered : Conn → Prop) :
    AtMostOnce Delivered [] :=
  List.Pairwise.nil

theorem atMostOnce_single
    (Delivered : Conn → Prop)
    (conn : Conn) :
    AtMostOnce Delivered [conn] :=
  List.pairwise_singleton _ conn

theorem atMostOnce_pair_iff
    {Delivered : Conn → Prop}
    {earlier later : Conn} :
    AtMostOnce Delivered [earlier, later] ↔
      ¬ (Delivered earlier ∧ Delivered later) :=
  List.pairwise_pair

/-! ## FastCGI -/

namespace FastCgi

variable
  {params : List (String × String)}
  {stdinBody : List UInt8}
  {conn : Conn}

/-- The whole packet was sent. -/
def Delivered
    (params : List (String × String))
    (stdinBody : List UInt8)
    (conn : Conn) :
    Prop :=
  conn.sent = requestPacket params stdinBody

/--
The connection takes the whole packet and fails then, other than by a timeout:
while it is flushed, or before the response headers are complete.
-/
inductive FailsAfterDelivery (conn : Conn) : Prop where
  | flush
      (accepted : Nat)
      (error : IoError)
      (written : conn.Accepts 1)
      (flushFails : conn.writes[1]? = some (.failed accepted error))
  | headers
      (error : IoError)
      (written : conn.Accepts 2)
      (broken : (readHeadersFromStream [] conn.reads).1 = .failed error)

/-- An attempt that is repeated after the whole packet was sent. -/
theorem failsAfterDelivery_of_attempt
    {error : IoError}
    {after : Conn}
    (attempt :
      fcgiSendAndReadHeaders params stdinBody conn.handedOver =
        (.failed error, after))
    (delivered : Delivered params stdinBody after) :
    FailsAfterDelivery conn := by
  rcases Conn.writeFlush_cases (requestPacket_ne_nil params stdinBody)
      conn.handedOver with
      ⟨accepts, written⟩ |
      ⟨outcome, middle, accepts, isOutcome, notOk, written, _⟩ |
      ⟨outcome, middle, _, notOk, written, short⟩
  · rw [fcgiSendAndReadHeaders, written] at attempt
    dsimp only at attempt
    split at attempt
    · cases attempt
    · rename_i other reads broken
      have broken' : (readHeadersFromStream [] conn.reads).1 = _ :=
        congrArg Prod.fst broken
      exact .headers _ accepts broken'
    · cases attempt
  · cases outcome with
    | ok =>
        exact absurd rfl notOk
    | failed accepted other =>
        exact .flush accepted other accepts isOutcome
    | stall accepted =>
        rw [fcgiSendAndReadHeaders, written] at attempt
        cases attempt
  · have isMiddle : after = middle := by
      rw [fcgiSendAndReadHeaders, written] at attempt
      cases outcome with
      | ok =>
          exact absurd rfl notOk
      | failed accepted other =>
          exact (Prod.mk.inj attempt).2.symm
      | stall accepted =>
          cases attempt
    rw [isMiddle, Delivered] at delivered
    rw [delivered] at short
    simp [Conn.handedOver] at short

/-- Such a connection makes the handler repeat the request. -/
theorem attempt_of_failsAfterDelivery
    (params : List (String × String))
    (stdinBody : List UInt8)
    (fails : FailsAfterDelivery conn) :
    ∃ error after,
      fcgiSendAndReadHeaders params stdinBody conn.handedOver =
          (.failed error, after) ∧
        Delivered params stdinBody after := by
  rcases Conn.writeFlush_cases (requestPacket_ne_nil params stdinBody)
      conn.handedOver with
      ⟨accepts, written⟩ |
      ⟨outcome, middle, _, isOutcome, notOk, written, sent⟩ |
      ⟨outcome, middle, isOutcome, notOk, written, _⟩
  · cases fails with
    | flush accepted error _ flushFails =>
        have isOk := accepts.eq_ok flushFails (by decide)
        cases isOk
    | headers error _ broken =>
        have isRead :
            readHeadersFromStream []
                (conn.handedOver.wrote
                  [requestPacket params stdinBody, []]).reads =
              (.failed error, (readHeadersFromStream [] conn.reads).2) :=
          Prod.ext broken rfl
        rw [fcgiSendAndReadHeaders, written]
        simp only [isRead]
        refine ⟨error, _, rfl, ?_⟩
        simp [Delivered, Conn.wrote, Conn.handedOver]
  · cases fails with
    | flush accepted error _ flushFails =>
        obtain rfl : WriteOutcome.failed accepted error = outcome :=
          Option.some.inj (flushFails.symm.trans isOutcome)
        rw [fcgiSendAndReadHeaders, written]
        exact ⟨error, middle, rfl, sent⟩
    | headers error written _ =>
        exact absurd (written.eq_ok isOutcome (by decide)) notOk
  · cases fails with
    | flush accepted error written _ =>
        exact absurd (written.eq_ok isOutcome (by decide)) notOk
    | headers error written _ =>
        exact absurd (written.eq_ok isOutcome (by decide)) notOk

/-- A backend that takes the packet and answers with an empty response. -/
def answering : Conn :=
  ⟨[], Event.ofBytes (writeFcgiHeader stdoutType 1 0 0), []⟩

/-- The packet is delivered to it. -/
theorem delivered_answering
    (params : List (String × String))
    (stdinBody : List UInt8) :
    Delivered params stdinBody
      (fcgiSendAndReadHeaders params stdinBody
        answering.handedOver).2 := by
  have accepts : answering.handedOver.Accepts 2 := by
    simp [Conn.Accepts, Conn.handedOver, answering]
  have written :
      answering.handedOver.writeEach
          [requestPacket params stdinBody, []] = _ :=
    Conn.writeEach_of_accepts accepts
  rw [fcgiSendAndReadHeaders, written]
  dsimp only
  split <;> simp [Delivered, Conn.wrote, Conn.handedOver]

/-- The connections a request uses, both attempts counted. -/
theorem reconnectLoop_used
    (params : List (String × String))
    (stdinBody : List UInt8)
    (conn : Conn)
    (second : Except IoError Conn) :
    (∃ after,
      (reconnectLoop params stdinBody (.ok conn) second).2 =
        [after]) ∨
    ∃ error after fresh,
      fcgiSendAndReadHeaders params stdinBody conn.handedOver =
          (.failed error, after) ∧
        second = .ok fresh ∧
        (reconnectLoop params stdinBody (.ok conn) second).2 =
          [after,
            (fcgiSendAndReadHeaders params stdinBody
              fresh.handedOver).2] := by
  cases attempt :
      fcgiSendAndReadHeaders params stdinBody conn.handedOver with
  | mk result after =>
      cases result with
      | ok parsed =>
          left
          exact ⟨after, by simp only [reconnectLoop, attempt]⟩
      | timedOut =>
          left
          exact ⟨after, by simp only [reconnectLoop, attempt]⟩
      | failed error =>
          cases second with
          | error other =>
              left
              exact ⟨after, by simp only [reconnectLoop, attempt]⟩
          | ok fresh =>
              right
              exact ⟨error, after, fresh, rfl, rfl,
                by simp only [reconnectLoop, attempt]⟩

/-- FastCGI delivers at most once iff the first one does not fail late. -/
theorem atMostOnce_iff
    (params : List (String × String))
    (stdinBody : List UInt8)
    (first : Except IoError Conn) :
    (∀ second,
      AtMostOnce (Delivered params stdinBody)
        (reconnectLoop params stdinBody first second).2) ↔
      ¬ ∃ conn, first = .ok conn ∧ FailsAfterDelivery conn := by
  cases first with
  | error error =>
      refine iff_of_true (fun second => atMostOnce_nil _) ?_
      rintro ⟨conn, isConn, _⟩
      cases isConn
  | ok conn =>
      constructor
      · rintro once ⟨_, isConn, fails⟩
        obtain rfl := Except.ok.inj isConn
        obtain ⟨error, after, attempt, delivered⟩ :=
          attempt_of_failsAfterDelivery params stdinBody fails
        have twice := once (.ok answering)
        rcases reconnectLoop_used params stdinBody conn
            (.ok answering) with
            ⟨_, single⟩ | ⟨_, _, _, again, isFresh, used⟩
        · simp [reconnectLoop, attempt] at single
        · rw [attempt] at again
          obtain ⟨-, rfl⟩ := Prod.mk.inj again
          obtain rfl := Except.ok.inj isFresh
          rw [used, atMostOnce_pair_iff] at twice
          exact twice
            ⟨delivered, delivered_answering params stdinBody⟩
      · intro notLate second
        rcases reconnectLoop_used params stdinBody conn second with
            ⟨after, used⟩ | ⟨error, after, fresh, attempt, _, used⟩
        · rw [used]
          exact atMostOnce_single _ after
        · rw [used, atMostOnce_pair_iff]
          rintro ⟨delivered, _⟩
          exact notLate
            ⟨conn, rfl, failsAfterDelivery_of_attempt attempt delivered⟩

end FastCgi

/-! ## The HTTP/1 proxy -/

namespace ForwardRequest

/--
The bytes after the head are a whole body, as the head announces it: all chunks
and the last one, or as many bytes as `Content-Length` says.
-/
def Request.Frames
    (request : Request)
    (payload : List UInt8) :
    Prop :=
  request.hasBody = true →
    match request.knownContentLength with
    | none =>
        ∃ chunks, payload = encodedBody true chunks
    | some len =>
        len ≤ payload.length

/-- A complete request was sent. -/
def Delivered (request : Request) (conn : Conn) : Prop :=
  ∃ payload,
    conn.sent = request.head ++ payload ∧ request.Frames payload

/-- No line at all arrives where `100 Continue` is waited for. -/
def NoContinue (reads : List (Event IoError)) : Prop :=
  match (readTextLine ⟨[], reads⟩).1 with
  | .stall | .error _ _ =>
      True
  | .ok _ =>
      False

/--
The first connection takes a complete request, fails before the first byte of a
response, and the request counts as unsent.
-/
inductive FailsAfterDelivery
    (request : Request)
    (body : RequestBody)
    (conn : Conn) :
    Prop where
  /-- The head is the whole request, and its flush fails. -/
  | flush
      (complete : request.Frames [])
      (written : conn.Accepts 1)
      (flushFails : ¬ conn.Accepts 2)
  /-- A method without a body, and no response. -/
  | noStatusLine
      (hasNoBody : request.hasBody = false)
      (written : conn.Accepts 2)
      (noLine : NoStatusLine conn.reads)
  /-- The body is empty, and no `100 Continue` comes. -/
  | noContinue
      (hasBody : request.hasBody = true)
      (expects : request.hasExpectContinue = true)
      (complete : request.Frames [])
      (written : conn.Accepts 2)
      (noLine : NoContinue conn.reads)
  /-- The connection is closed after the body, which may be sent empty. -/
  | closed
      (hasBody : request.hasBody = true)
      (noExpect : request.hasExpectContinue = false)
      (complete : request.Frames (encodedBody request.useChunked []))
      (chunks : List (List UInt8))
      (isWhole : body = wholeBody chunks)
      (written :
        conn.Accepts
          (2 + (bodyWrites request.useChunked chunks).length))
      (noReads : conn.reads = [])

variable
  {mode : ReplyMode}
  {writeTimeout : Nat}
  {request : Request}
  {body : RequestBody}
  {conn : Conn}

theorem head_ne_nil (request : Request) :
    request.head ≠ [] := by
  intro empty
  have decoded : decodeUtf8 request.head = some request.headText :=
    decodeUtf8_encodeUtf8 _
  rw [empty, show decodeUtf8 [] = some [] from
    decodeUtf8_encodeUtf8 []] at decoded
  have noText := Option.some.inj decoded
  simp [Request.headText] at noText

/-- A request whose head is complete is complete with an empty body. -/
theorem frames_empty_of_frames_nil
    (complete : request.Frames []) :
    request.Frames (encodedBody request.useChunked []) := by
  intro hasBody
  have headOnly := complete hasBody
  cases known : request.knownContentLength with
  | none =>
      refine ⟨[], ?_⟩
      simp [Request.useChunked, hasBody, known]
  | some len =>
      rw [known] at headOnly
      exact Nat.le_trans headOnly (Nat.zero_le _)

/-- A whole body completes a request that an empty one would complete. -/
theorem frames_encodedBody
    (complete : request.Frames (encodedBody request.useChunked []))
    (chunks : List (List UInt8)) :
    request.Frames (encodedBody request.useChunked chunks) := by
  intro hasBody
  have emptyDoes := complete hasBody
  cases known : request.knownContentLength with
  | none =>
      refine ⟨chunks, ?_⟩
      simp [Request.useChunked, hasBody, known]
  | some len =>
      have notChunked : request.useChunked = false := by
        simp [Request.useChunked, known]
      rw [known, notChunked] at emptyDoes
      have isZero : len = 0 := by
        simpa [encodedBody, bodyWrites, endWrites] using emptyDoes
      rw [isZero]
      exact Nat.zero_le _

/-! ### The first attempt -/

/-- Without a body, no status line means that the request counts as unsent. -/
theorem receive_failed_false_iff
    {reads : List (Event IoError)} :
    (∃ error,
      receive mode false ⟨[], reads⟩ = .failed error false) ↔
      NoStatusLine reads := by
  unfold receive NoStatusLine
  split
  · rename_i isLine
    simp [isLine]
  · rename_i error before after isLine
    rw [isLine]
    dsimp only
    split
    · rename_i partLine
      refine iff_of_false ?_ (not_not.mpr partLine)
      rintro ⟨_, failed⟩
      exact afterStatusLine_ne_failed_false failed
    · rename_i noLine
      refine iff_of_true ?_ noLine
      split <;> exact ⟨_, rfl⟩
  · rename_i isLine
    simp [isLine]
  · rename_i line after nonempty isLine
    rw [isLine]
    refine iff_of_false ?_ nonempty
    rintro ⟨_, failed⟩
    exact afterStatusLine_ne_failed_false failed

/-- Once there is a line, the body counts as used. -/
theorem continueRequest_ne_failed_false
    {useChunked : Bool}
    {reader : Reader}
    {error : ForwardError} :
    (continueRequest mode useChunked body conn reader).1 ≠
      .failed error false := by
  unfold continueRequest
  split
  · exact nofun
  · split
    · exact nofun
    · split
      · exact nofun
      · exact nofun
      · exact afterStatusLine_ne_failed_false

/-- Waiting for `100 Continue` fails before the body exactly without a line. -/
theorem sendBody_expecting
    (hasBody : request.hasBody = true)
    (expects : request.hasExpectContinue = true) :
    (NoContinue conn.reads ∧
      ∃ error,
        sendBody mode request body conn =
          (.failed error false, conn)) ∨
    ¬ NoContinue conn.reads ∧
      ∀ error,
        (sendBody mode request body conn).1 ≠ .failed error false := by
  unfold NoContinue sendBody
  simp only [hasBody, expects, Bool.and_self, ↓reduceIte]
  cases isLine : readTextLine ⟨[], conn.reads⟩ with
  | mk line after =>
      cases line with
      | stall =>
          left
          exact ⟨trivial, _, rfl⟩
      | error error before =>
          left
          exact ⟨trivial, _, rfl⟩
      | ok line =>
          right
          refine ⟨id, fun error => ?_⟩
          dsimp only
          split
          · exact continueRequest_ne_failed_false
          · exact afterStatusLine_ne_failed_false

theorem sendBody_without_body
    (hasNoBody : request.hasBody = false) :
    sendBody mode request body conn =
      (receive mode false ⟨[], conn.reads⟩, conn) := by
  simp [sendBody, hasNoBody]

/-- An attempt that is repeated after a complete request was sent. -/
theorem failsAfterDelivery_of_attempt
    {error : ForwardError}
    {after : Conn}
    (complete : request.Frames (encodedBody request.useChunked []))
    (attempt :
      sendRecvPooled mode writeTimeout request body true
          conn.handedOver =
        (.failed error false, after))
    (delivered : Delivered request after) :
    FailsAfterDelivery request body conn := by
  obtain ⟨payload, sent, frames⟩ := delivered
  rcases Conn.writeFlush_cases (head_ne_nil request)
      conn.handedOver with
      ⟨accepts, written⟩ |
      ⟨outcome, middle, accepts, isOutcome, notOk, refused, sentHead⟩ |
      ⟨outcome, middle, _, notOk, refused, short⟩
  · have headSent :
        (conn.handedOver.wrote [request.head, []]).sent =
          request.head := by
      simp [Conn.wrote, Conn.handedOver]
    have sendsBody := attempt
    rw [sendRecvPooled, written] at sendsBody
    dsimp only at sendsBody
    cases hasBody : request.hasBody with
    | false =>
        rw [sendBody_without_body hasBody] at sendsBody
        have failed := (Prod.mk.inj sendsBody).1
        exact .noStatusLine hasBody accepts
          (receive_failed_false_iff.mp ⟨error, failed⟩)
    | true =>
        cases expects : request.hasExpectContinue with
        | true =>
            rcases sendBody_expecting hasBody expects with
                ⟨noLine, other, waits⟩ | ⟨_, neverFails⟩
            · rw [waits] at sendsBody
              obtain ⟨-, rfl⟩ := Prod.mk.inj sendsBody
              rw [headSent, List.self_eq_append_right] at sent
              rw [sent] at frames
              exact .noContinue hasBody expects frames accepts noLine
            · exact absurd (congrArg Prod.fst sendsBody)
                (neverFails error)
        | false =>
            have spec :=
              attemptSpec mode writeTimeout body true conn.handedOver
                hasBody expects
            rw [attempt] at spec
            rcases spec.unanswered_iff.mp ⟨error, rfl⟩ with
                refuses | ⟨chunks, isWhole, bodyWritten, noReads⟩
            · exact absurd accepts refuses
            · exact .closed hasBody expects complete chunks isWhole
                bodyWritten noReads
  · obtain ⟨other, repeated⟩ :=
      sendRecvPooled_of_head_refused refused
        (WriteOutcome.result_ne_done notOk)
    rw [repeated] at attempt
    obtain ⟨-, rfl⟩ := Prod.mk.inj attempt
    rw [sentHead] at sent
    have noPayload : payload = [] := by
      simpa [Conn.handedOver] using sent
    rw [noPayload] at frames
    refine .flush frames accepts ?_
    intro flushed
    exact notOk (flushed.eq_ok isOutcome (by decide))
  · obtain ⟨other, repeated⟩ :=
      sendRecvPooled_of_head_refused refused
        (WriteOutcome.result_ne_done notOk)
    rw [repeated] at attempt
    obtain ⟨-, rfl⟩ := Prod.mk.inj attempt
    rw [sent, List.length_append] at short
    simp only [Conn.handedOver, List.length_nil, Nat.zero_add] at short
    exact absurd short (Nat.not_lt.mpr (Nat.le_add_right _ _))

/-- Such a connection makes `forward_request` repeat the request. -/
theorem attempt_of_failsAfterDelivery
    (mode : ReplyMode)
    (writeTimeout : Nat)
    (fails : FailsAfterDelivery request body conn) :
    ∃ error after,
      sendRecvPooled mode writeTimeout request body true
          conn.handedOver =
          (.failed error false, after) ∧
        Delivered request after := by
  cases fails with
  | flush complete written flushFails =>
      rcases Conn.writeFlush_cases (head_ne_nil request)
          conn.handedOver with
          ⟨accepts, _⟩ |
          ⟨outcome, middle, _, _, notOk, refused, sentHead⟩ |
          ⟨outcome, middle, isOutcome, notOk, _, _⟩
      · exact absurd accepts flushFails
      · obtain ⟨error, repeated⟩ :=
          sendRecvPooled_of_head_refused refused
            (WriteOutcome.result_ne_done notOk)
        refine ⟨error, middle, repeated, [], ?_, complete⟩
        rw [sentHead]
        simp [Conn.handedOver]
      · exact absurd (written.eq_ok isOutcome (by decide)) notOk
  | noStatusLine hasNoBody written noLine =>
      obtain ⟨error, failed⟩ := receive_failed_false_iff.mpr noLine
      refine ⟨error, conn.handedOver.wrote [request.head, []], ?_, [],
        ?_, ?_⟩
      · have sendsBody :=
          sendRecvPooled_of_head_written mode writeTimeout request
            body true (conn.accepts_handedOver.mpr written)
        rw [sendsBody, sendBody_without_body hasNoBody,
          Conn.reads_wrote, Conn.reads_handedOver, failed]
      · simp [Conn.wrote, Conn.handedOver]
      · intro hasBody
        rw [hasNoBody] at hasBody
        cases hasBody
  | noContinue hasBody expects complete written noLine =>
      rcases sendBody_expecting hasBody expects with
          ⟨_, error, waits⟩ | ⟨line, _⟩
      · have sendsBody :=
          sendRecvPooled_of_head_written mode writeTimeout request
            body true (conn.accepts_handedOver.mpr written)
        refine ⟨error, _, sendsBody.trans waits, [], ?_, complete⟩
        simp [Conn.wrote, Conn.handedOver]
      · exact absurd noLine line
  | closed hasBody noExpect complete chunks isWhole written noReads =>
      have sends :=
        sendRecvPooled_of_body_written mode writeTimeout true hasBody
          noExpect (conn.accepts_handedOver.mpr written)
      rw [Conn.reads_handedOver, noReads, receive_closed] at sends
      rw [isWhole]
      refine ⟨_, _, sends, encodedBody request.useChunked chunks, ?_,
        frames_encodedBody complete chunks⟩
      simp [Conn.wrote, Conn.handedOver, encodedBody]

/-! ### The second attempt -/

/-- What is sent of a body bounds what is sent after the head. -/
theorem prefix_sent_sendBody
    {bound : List UInt8}
    (mode : ReplyMode)
    (request : Request)
    (pipes :
      ∀ conn,
        (pipeRequestBody request.useChunked body conn).2.sent <+:
          conn.sent ++ bound)
    (conn : Conn) :
    (sendBody mode request body conn).2.sent <+: conn.sent ++ bound := by
  have piped := pipes conn
  have unsent : conn.sent <+: conn.sent ++ bound :=
    List.prefix_append _ _
  unfold sendBody
  dsimp only
  split
  · split
    · exact unsent
    · exact unsent
    · split
      · unfold continueRequest
        split
        · exact unsent
        · split
          · rename_i isPiped
            rw [isPiped] at piped
            exact piped
          · rename_i isPiped
            rw [isPiped] at piped
            split <;> exact piped
      · exact unsent
  · split
    · split
      all_goals
        rename_i isPiped
        rw [isPiped] at piped
        exact piped
    · exact unsent

/-- The same for a whole attempt. -/
theorem prefix_sent_attempt
    {bound : List UInt8}
    (mode : ReplyMode)
    (writeTimeout : Nat)
    (request : Request)
    (allowRetry : Bool)
    (pipes :
      ∀ conn,
        (pipeRequestBody request.useChunked body conn).2.sent <+:
          conn.sent ++ bound)
    (fresh : Conn) :
    (sendRecvPooled mode writeTimeout request body allowRetry
        fresh.handedOver).2.sent <+:
      request.head ++ bound := by
  have headSent :=
    Conn.prefix_sent_writeEach [request.head, []] fresh.handedOver
  rcases Conn.writeEach_cases [request.head, []] fresh.handedOver with
      ⟨_, accepts⟩ | ⟨notDone, _⟩
  · rw [sendRecvPooled_of_head_written mode writeTimeout request body
      allowRetry accepts]
    have bodySent :=
      prefix_sent_sendBody mode request pipes
        (fresh.handedOver.wrote [request.head, []])
    simpa [Conn.wrote, Conn.handedOver] using bodySent
  · obtain ⟨error, refused⟩ :
        ∃ error,
          sendRecvPooled mode writeTimeout request body allowRetry
              fresh.handedOver =
            (.failed error false, _) :=
      sendRecvPooled_of_head_refused (Prod.eta _).symm notDone
    rw [refused]
    refine headSent.trans ?_
    simp [Conn.handedOver]

/-- Nothing beyond the head and an empty body is sent the second time. -/
theorem prefix_sent_repeated
    (mode : ReplyMode)
    (writeTimeout : Nat)
    (request : Request)
    (fresh : Conn) :
    (sendRecvPooled mode writeTimeout request [] false
        fresh.handedOver).2.sent <+:
      request.head ++ encodedBody request.useChunked [] :=
  @prefix_sent_attempt [] (encodedBody request.useChunked []) mode
    writeTimeout request false
    (Conn.prefix_sent_writeEach (endWrites request.useChunked)) fresh

/-- A repeated request that is complete is complete with an empty body. -/
theorem frames_of_repeated
    {fresh : Conn}
    (delivered :
      Delivered request
        (sendRecvPooled mode writeTimeout request [] false
          fresh.handedOver).2) :
    request.Frames (encodedBody request.useChunked []) := by
  obtain ⟨payload, sent, frames⟩ := delivered
  have within :=
    prefix_sent_repeated mode writeTimeout request fresh
  rw [sent, List.prefix_append_right_inj] at within
  intro hasBody
  have framed := frames hasBody
  cases known : request.knownContentLength with
  | none =>
      refine ⟨[], ?_⟩
      simp [Request.useChunked, hasBody, known]
  | some len =>
      rw [known] at framed
      exact Nat.le_trans framed within.length_le

/-- A new connection that takes what it is sent, and never answers. -/
def silent : Conn :=
  ⟨[], [.stall], []⟩

/-- The head is complete by itself, where only the head is sent. -/
theorem FailsAfterDelivery.frames_nil
    (fails : FailsAfterDelivery request body conn)
    (onlyHead :
      request.hasBody = false ∨ request.hasExpectContinue = true) :
    request.Frames [] := by
  cases fails with
  | flush complete written flushFails =>
      exact complete
  | noStatusLine hasNoBody written noLine =>
      intro hasBody
      rw [hasNoBody] at hasBody
      cases hasBody
  | noContinue hasBody expects complete written noLine =>
      exact complete
  | closed hasBody noExpect complete chunks isWhole written noReads =>
      simp [hasBody, noExpect] at onlyHead

theorem FailsAfterDelivery.frames_empty
    (fails : FailsAfterDelivery request body conn) :
    request.Frames (encodedBody request.useChunked []) := by
  cases fails with
  | flush complete written flushFails =>
      exact frames_empty_of_frames_nil complete
  | noStatusLine hasNoBody written noLine =>
      intro hasBody
      rw [hasNoBody] at hasBody
      cases hasBody
  | noContinue hasBody expects complete written noLine =>
      exact frames_empty_of_frames_nil complete
  | closed hasBody noExpect complete chunks isWhole written noReads =>
      exact complete

/-- A repeated request is complete on it. -/
theorem delivered_silent
    (mode : ReplyMode)
    (writeTimeout : Nat)
    (fails : FailsAfterDelivery request body conn) :
    Delivered request
      (sendRecvPooled mode writeTimeout request [] false
        silent.handedOver).2 := by
  have acceptsAll (count : Nat) : silent.handedOver.Accepts count := by
    simp [silent, Conn.handedOver, Conn.Accepts]
  have sendsBody :=
    sendRecvPooled_of_head_written mode writeTimeout request [] false
      (acceptsAll 2)
  have headSent :
      (silent.handedOver.wrote [request.head, []]).sent =
        request.head ++ [] := by
    simp [Conn.wrote, Conn.handedOver]
  cases hasBody : request.hasBody with
  | false =>
      rw [sendsBody, sendBody_without_body hasBody]
      exact ⟨[], headSent, fails.frames_nil (.inl hasBody)⟩
  | true =>
      cases expects : request.hasExpectContinue with
      | true =>
          have noAnswer : NoContinue [.stall] := by
            rw [NoContinue, readTextLine, readLine]
            trivial
          rcases sendBody_expecting hasBody expects with
              ⟨_, error, waits⟩ | ⟨line, _⟩
          · rw [sendsBody, waits]
            exact ⟨[], headSent, fails.frames_nil (.inr expects)⟩
          · exact absurd noAnswer line
      | false =>
          have sends :=
            sendRecvPooled_of_body_written mode writeTimeout false
              hasBody expects
              (acceptsAll
                (2 + (bodyWrites request.useChunked []).length))
          have isWhole : ([] : RequestBody) = wholeBody [] := rfl
          rw [isWhole, sends]
          refine ⟨_, ?_, fails.frames_empty⟩
          simp [Conn.wrote, Conn.handedOver, encodedBody]

/-! ### Both attempts, and the retry loop around them -/

/-- The connections a request uses, both attempts counted. -/
theorem forwardRequest_used
    (mode : ReplyMode)
    (writeTimeout : Nat)
    (request : Request)
    (body : RequestBody)
    (conn : Conn)
    (second : Except ForwardError Conn) :
    (∃ after,
      (forwardRequest mode writeTimeout request body (.ok conn)
        second).2 = [after]) ∨
    ∃ error after fresh,
      sendRecvPooled mode writeTimeout request body true
          conn.handedOver =
          (.failed error false, after) ∧
        second = .ok fresh ∧
        (forwardRequest mode writeTimeout request body (.ok conn)
            second).2 =
          [after,
            (sendRecvPooled mode writeTimeout request [] false
              fresh.handedOver).2] := by
  cases attempt :
      sendRecvPooled mode writeTimeout request body true
        conn.handedOver with
  | mk result after =>
      by_cases repeated : ∃ error, result = .failed error false
      · obtain ⟨error, rfl⟩ := repeated
        cases second with
        | error other =>
            left
            exact ⟨after, by simp only [forwardRequest, attempt]⟩
        | ok fresh =>
            right
            refine ⟨error, after, fresh, rfl, rfl, ?_⟩
            rw [forwardRequest_of_repeated attempt (Prod.eta _).symm]
      · left
        refine ⟨after, ?_⟩
        rw [forwardRequest_of_settled attempt fun error isFailed =>
          repeated ⟨error, isFailed⟩]

/-- `forward_request` delivers at most once iff the first one is not late. -/
theorem forwardRequest_atMostOnce_iff
    (mode : ReplyMode)
    (writeTimeout : Nat)
    (request : Request)
    (body : RequestBody)
    (first : Except ForwardError Conn) :
    (∀ second,
      AtMostOnce (Delivered request)
        (forwardRequest mode writeTimeout request body first
          second).2) ↔
      ¬ ∃ conn,
        first = .ok conn ∧ FailsAfterDelivery request body conn := by
  cases first with
  | error error =>
      refine iff_of_true (fun second => atMostOnce_nil _) ?_
      rintro ⟨conn, isConn, _⟩
      cases isConn
  | ok conn =>
      constructor
      · rintro once ⟨_, isConn, fails⟩
        obtain rfl := Except.ok.inj isConn
        obtain ⟨error, after, attempt, delivered⟩ :=
          attempt_of_failsAfterDelivery mode writeTimeout fails
        have twice := once (.ok silent)
        rw [forwardRequest_of_repeated attempt (Prod.eta _).symm,
          atMostOnce_pair_iff] at twice
        exact twice
          ⟨delivered, delivered_silent mode writeTimeout fails⟩
      · intro notLate second
        rcases forwardRequest_used mode writeTimeout request body conn
            second with
            ⟨after, used⟩ | ⟨error, after, fresh, attempt, _, used⟩
        · rw [used]
          exact atMostOnce_single _ after
        · rw [used, atMostOnce_pair_iff]
          rintro ⟨delivered, again⟩
          exact notLate
            ⟨conn, rfl,
              failsAfterDelivery_of_attempt (frames_of_repeated again)
                attempt delivered⟩

/-- The clock, and the connections used so far with what was sent on each. -/
structure Net where
  clock : Nat
  used : List Conn

/-- What the retry loop sees of `forward_request`. -/
def ForwardOutcome.result :
    ForwardOutcome → Except ForwardError Reply
  | .ok reply _ =>
      .ok reply
  | .failed error =>
      .error error
  | .hang =>
      -- An attempt that waits for ever sends no more than one that fails.
      .error (.message "")

/--
The world of the retry loop, where the connections that each attempt gets are
given.
-/
def network
    (mode : ReplyMode)
    (writeTimeout : Nat)
    (request : Request)
    (first second : Nat → Except ForwardError Conn)
    (durations : Nat → Nat) :
    Upstreams Net RequestBody Reply where
  now net := net.clock
  sleep seconds net := { net with clock := net.clock + seconds }
  forward attempt _ body net :=
    let (outcome, used) :=
      forwardRequest mode writeTimeout request body (first attempt)
        (second attempt)
    (outcome.result,
      ⟨net.clock + durations attempt, net.used ++ used⟩)
  status reply := reply.status

/-- The whole handling of a request uses the connections of one attempt. -/
theorem retryLoop_used
    (mode : ReplyMode)
    (writeTimeout : Nat)
    (request : Request)
    (body : RequestBody)
    (first second : Nat → Except ForwardError Conn)
    (durations : Nat → Nat)
    (clientIp : String)
    (node : Nat)
    (pool : UpstreamPool)
    (clock : Nat)
    (picked : node < pool.nodes.length) :
    ∃ ended,
      RetryLoop.retryLoop
          (network mode writeTimeout request first second durations)
          request.method clientIp body node pool ⟨clock, []⟩ =
          some ended ∧
        ended.world.used =
          (forwardRequest mode writeTimeout request body (first 0)
            (second 0)).2 := by
  obtain ⟨ended, runs, _, isWorld, _⟩ :=
    RetryLoop.retryLoop_single
      (network mode writeTimeout request first second durations)
      request.method clientIp body node pool ⟨clock, []⟩ picked
  refine ⟨ended, runs, ?_⟩
  rw [isWorld]
  exact List.nil_append _

end ForwardRequest

/-- A connection that takes what it is sent and is then closed. -/
def closedConn : Conn :=
  ⟨[], [], []⟩

/-- A request with an empty body is sent to both connections. -/
theorem ForwardRequest.used_after_closed
    (mode : ReplyMode)
    (writeTimeout : Nat)
    {request : Request}
    (hasBody : request.hasBody = true)
    (noExpect : request.hasExpectContinue = false) :
    (forwardRequest mode writeTimeout request [] (.ok closedConn)
        (.ok answering)).2 =
      [closedConn.wrote
          ([request.head, []] ++ bodyWrites request.useChunked []),
        answering.wrote
          ([request.head, []] ++ bodyWrites request.useChunked [])] := by
  have accepts :
      closedConn.handedOver.Accepts
        (2 + (bodyWrites request.useChunked []).length) := by
    simp [closedConn, Conn.handedOver, Conn.Accepts]
  have attempt :=
    sendRecvPooled_of_body_written mode writeTimeout true hasBody
      noExpect accepts
  have noReads : closedConn.handedOver.reads = [] := rfl
  rw [noReads, receive_closed] at attempt
  obtain ⟨reply, released, again⟩ :=
    sendRecvPooled_answering mode writeTimeout hasBody noExpect
  have isWhole : ([] : RequestBody) = wholeBody [] := rfl
  rw [isWhole, forwardRequest_of_repeated attempt again]
  rfl

end Sweety
