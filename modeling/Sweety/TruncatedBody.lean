import Sweety.BodyPaths
import Sweety.CacheTransparency
import Sweety.ChunkedEnd
import Sweety.FastCgiRequest
import Sweety.PipedBody
import Sweety.SingleDelivery

namespace Sweety.TruncatedBody

open HttpText SegmentedReader UpstreamResponse ForwardRequest BodyPaths
  PipedBody

/-!
# Request bodies that break off

When a complete request goes to a backend although the client's body broke off:
which of the four paths lets that happen, for which requests.
-/

/-! ## Complete requests -/

/-- The framing that the head of an HTTP/1 request announces. -/
inductive Framing where
  | none
  | sized (length : Nat)
  | chunked
  deriving DecidableEq

/-- The framing in the head of a request. -/
def announced (request : Request) : Framing :=
  if request.hasBody then
    match request.knownContentLength with
    | some length =>
        .sized length
    | none =>
        .chunked
  else
    .none

/-- The bytes begin with a whole body. -/
def Framing.Completes : Framing → List UInt8 → Prop
  | .none, _ =>
      True
  | .sized length, bytes =>
      length ≤ bytes.length
  | .chunked, bytes =>
      ∃ body : Rfc7230.ChunkedBody, body.bytes <+: bytes

/-- The bytes are the head of the request and a whole body. -/
def CompleteHttp1 (request : Request) (bytes : List UInt8) : Prop :=
  ∃ body,
    bytes = request.head ++ body ∧ (announced request).Completes body

/--
The stream of the body is closed, and the parameters announce the length of what
it holds.
-/
def CompleteFastCgi (bytes : List UInt8) : Prop :=
  ∃ records params rest stdin after,
    FcgiWire.readRecords? bytes = some records ∧
      FcgiWire.readStream? FcgiWire.paramsType records.tail =
        some (FastCgi.paramsContent params, rest) ∧
      ("CONTENT_LENGTH", String.ofList (toDecimal stdin.length)) ∈ params ∧
      FcgiWire.readStream? FcgiWire.stdinType rest = some (stdin, after)

/-- What a backend takes to be a complete request. -/
def Complete (request : Request) : Sent → Prop
  | .http1 bytes =>
      CompleteHttp1 request bytes
  | .http2 stream =>
      stream.endStream = true
  | .fastcgi bytes =>
      CompleteFastCgi bytes

/--
The first connection, if there is one, takes the head, and answers an
expectation: `forward_request` does not repeat the request.
-/
def Settled (request : Request) (backend : Backend) : Prop :=
  ∀ conn,
    backend.first = .ok conn →
    conn.Accepts 2 ∧
      (request.hasBody = true →
        request.hasExpectContinue = true →
        ∃ line after, readTextLine ⟨[], conn.reads⟩ = (.ok line, after))

/--
No backend gets a complete request; unless `repeats`, of the backends that let
`forward_request` make one attempt only.
-/
def NeverComplete
    (call : Call)
    (path : Path)
    (repeats : Bool)
    (body : RequestBody) :
    Prop :=
  ∀ backend,
    (repeats = true ∨ Settled call.request backend) →
    ∀ sent ∈ (call.handle path body backend).sent,
      ¬ Complete call.request sent

/-- When that is so, by path and by what arrives of the body. -/
def Safe
    (call : Call)
    (path : Path)
    (repeats : Bool)
    (arrives : Nat) :
    Prop :=
  match path with
  | .http1 =>
      match announced call.request with
      | .none =>
          False
      | .sized length =>
          arrives < length
      | .chunked =>
          repeats = false
  | .http2 =>
      call.builds = false
  | .grpc =>
      0 < call.maxBody ∧
          (call.maxBody < call.contentLength.getD 0 ∨
            call.maxBody < arrives) ∨
        ∃ length,
          announced call.request = .sized length ∧ arrives < length
  | .fastcgi =>
      0 < call.maxBody ∧ call.maxBody < call.contentLength.getD 0

/-! ## Piping a body that breaks off -/

/-- No more than its chunks is sent. -/
theorem piped_brokenBody
    (useChunked : Bool)
    (chunks : List (List UInt8))
    (text : String)
    (rest : RequestBody) :
    piped useChunked (brokenBody chunks text rest) =
      frames useChunked chunks := by
  have breaksOff :
      chunksOf (brokenBody chunks text rest) = chunks ∧
        comesToEnd (brokenBody chunks text rest) = false := by
    induction chunks with
    | nil =>
        exact ⟨rfl, rfl⟩
    | cons chunk others inductionHypothesis =>
        obtain ⟨areChunks, noEnd⟩ := inductionHypothesis
        exact ⟨congrArg (chunk :: ·) areChunks, noEnd⟩
  obtain ⟨areChunks, noEnd⟩ := breaksOff
  rw [piped, areChunks, noEnd]
  exact List.append_nil _

/-- It fails. -/
theorem pipe_brokenBody
    (useChunked : Bool)
    (chunks : List (List UInt8))
    (text : String)
    (rest : RequestBody)
    (conn : Conn) :
    ∃ error,
      (pipeRequestBody useChunked (brokenBody chunks text rest) conn).1 =
        some error := by
  induction chunks generalizing conn with
  | nil =>
      exact ⟨_, rfl⟩
  | cons chunk others inductionHypothesis =>
      have isBody :
          brokenBody (chunk :: others) text rest =
            .chunk chunk :: brokenBody others text rest :=
        rfl
      rw [isBody]
      cases chunk with
      | nil =>
          exact inductionHypothesis conn
      | cons byte more =>
          cases isWrite :
              conn.writeEach (chunkWrites useChunked (byte :: more)) with
          | mk result after =>
              rw [pipeRequestBody, isWrite]
              cases result with
              | done =>
                  exact inductionHypothesis after
              | failed error =>
                  exact ⟨_, rfl⟩
              | timedOut =>
                  exact ⟨_, rfl⟩

/-! ## One attempt -/

section Attempts

variable
  {mode : ReplyMode}
  {writeTimeout : Nat}
  {request : Request}
  {allowRetry : Bool}
  {conn : Conn}
  {chunks : List (List UInt8)}
  {text : String}
  {rest : RequestBody}

/-- What follows the head is a beginning of what was to follow it. -/
theorem not_complete_of_prefix
    {bytes bound : List UInt8}
    (isPrefix : bytes <+: request.head ++ bound)
    (incomplete :
      ∀ body,
        body <+: bound → ¬ (announced request).Completes body) :
    ¬ CompleteHttp1 request bytes := by
  intro complete
  obtain ⟨body, isBytes, completes⟩ := complete
  rw [isBytes, List.prefix_append_right_inj] at isPrefix
  exact incomplete body isPrefix completes

/-- A method with a body and no known length means chunks. -/
theorem useChunked_of_chunked
    (isChunked : announced request = .chunked) :
    request.useChunked = true := by
  unfold announced at isChunked
  cases hasBody : request.hasBody with
  | false =>
      simp [hasBody] at isChunked
  | true =>
      cases isLength : request.knownContentLength with
      | none =>
          simp [Request.useChunked, hasBody, isLength]
      | some length =>
          simp [hasBody, isLength] at isChunked

theorem useChunked_of_sized
    {length : Nat}
    (isSized : announced request = .sized length) :
    request.useChunked = false := by
  unfold announced at isSized
  cases hasBody : request.hasBody with
  | false =>
      simp [hasBody] at isSized
  | true =>
      cases isLength : request.knownContentLength with
      | none =>
          simp [hasBody, isLength] at isSized
      | some other =>
          simp [Request.useChunked, isLength]

theorem hasBody_of_announced
    (isFramed : announced request ≠ .none) :
    request.hasBody = true := by
  by_contra noBody
  exact isFramed (if_neg noBody)

/-- The chunks that arrive do not make a body, if it is chunked or longer. -/
theorem not_completes_frames
    (incomplete :
      announced request = .chunked ∨
        ∃ length,
          announced request = .sized length ∧
            chunks.flatten.length < length)
    (body : List UInt8)
    (isPrefix : body <+: frames request.useChunked chunks) :
    ¬ (announced request).Completes body := by
  rcases incomplete with isChunked | ⟨length, isSized, less⟩
  · rw [useChunked_of_chunked isChunked, frames_chunked] at isPrefix
    rw [isChunked]
    rintro ⟨whole, isWhole⟩
    exact ChunkedEnd.not_prefix_chunks _ whole (isWhole.trans isPrefix)
  · rw [useChunked_of_sized isSized, frames_plain] at isPrefix
    rw [isSized]
    intro completes
    exact absurd (Nat.le_trans completes isPrefix.length_le)
      (Nat.not_le.mpr less)

/-- An attempt with a body that breaks off does not complete the request. -/
theorem not_complete_attempt
    (incomplete :
      announced request = .chunked ∨
        ∃ length,
          announced request = .sized length ∧
            chunks.flatten.length < length) :
    ¬ CompleteHttp1 request
        (sendRecvPooled mode writeTimeout request
          (brokenBody chunks text rest) allowRetry
          conn.handedOver).2.sent := by
  have isPrefix :=
    @prefix_sent_attempt (brokenBody chunks text rest) _ mode writeTimeout
      request allowRetry
      (prefix_pipeRequestBody_piped request.useChunked _) conn
  rw [piped_brokenBody] at isPrefix
  exact not_complete_of_prefix isPrefix (not_completes_frames incomplete)

/-- A repeated attempt, which has no body, does not complete a longer one. -/
theorem not_complete_repeated
    {length : Nat}
    (isSized : announced request = .sized length)
    (positive : 0 < length) :
    ¬ CompleteHttp1 request
        (sendRecvPooled mode writeTimeout request [] false
          conn.handedOver).2.sent := by
  have isPrefix :=
    prefix_sent_repeated mode writeTimeout request conn
  apply not_complete_of_prefix isPrefix
  intro body isBody
  have isEmpty : encodedBody false [] = [] := rfl
  rw [useChunked_of_sized isSized, isEmpty, List.prefix_nil] at isBody
  rw [isSized, isBody]
  exact Nat.not_le.mpr positive

/-- Once the head is taken, a body that breaks off counts as used. -/
theorem consumed_of_settled
    {error : ForwardError}
    (hasBody : request.hasBody = true)
    (accepts : conn.Accepts 2)
    (isRead :
      request.hasExpectContinue = true →
        ∃ line after, readTextLine ⟨[], conn.reads⟩ = (.ok line, after)) :
    (sendRecvPooled mode writeTimeout request
        (brokenBody chunks text rest) allowRetry conn.handedOver).1 ≠
      .failed error false := by
  obtain ⟨pipeError, isError⟩ :=
    pipe_brokenBody request.useChunked chunks text rest
      (conn.handedOver.wrote [request.head, []])
  rw [sendRecvPooled_of_head_written mode writeTimeout request _
    allowRetry (conn.accepts_handedOver.mpr accepts)]
  unfold sendBody
  dsimp only
  cases expects : request.hasExpectContinue with
  | false =>
      cases isPiped :
          pipeRequestBody request.useChunked (brokenBody chunks text rest)
            (conn.handedOver.wrote [request.head, []]) with
      | mk result after =>
          rw [isPiped] at isError
          dsimp only at isError
          simp [hasBody, isError]
  | true =>
      obtain ⟨line, afterLine, isLine⟩ := isRead expects
      have sameReads :
          (conn.handedOver.wrote [request.head, []]).reads = conn.reads :=
        rfl
      rw [sameReads, isLine, hasBody, Bool.and_self, if_pos rfl]
      dsimp only
      split
      · exact continueRequest_ne_failed_false
      · exact afterStatusLine_ne_failed_false

/-! ### A backend that takes everything -/

/-- A backend that takes what it is sent, and asks to go on. -/
def continuing : Conn :=
  ⟨[], Event.ofBytes (ascii "HTTP/1.1 100 Continue\r\n\r\n"), []⟩

theorem readTextLine_continuing :
    readTextLine ⟨[], continuing.reads⟩ =
      (.ok "HTTP/1.1 100 Continue\r\n".toList, ⟨ascii "\r\n", []⟩) := by
  decide +kernel

/-- It is sent the head, and what is piped of the body. -/
theorem sent_continuing
    {body : RequestBody}
    (hasBody : request.hasBody = true) :
    (sendRecvPooled mode writeTimeout request body allowRetry
        continuing.handedOver).2.sent =
      request.head ++ piped request.useChunked body := by
  have accepts : continuing.handedOver.Accepts 2 := by
    simp [Conn.Accepts, Conn.handedOver, continuing]
  have takes :
      (continuing.handedOver.wrote [request.head, []]).writes = [] := by
    simp [Conn.wrote, Conn.handedOver, continuing]
  have isPiped :
      (pipeRequestBody request.useChunked body
        (continuing.handedOver.wrote [request.head, []])).2.sent =
        request.head ++ piped request.useChunked body := by
    rw [sent_pipeRequestBody_taken request.useChunked body takes]
    simp [Conn.wrote, Conn.handedOver]
  rw [sendRecvPooled_of_head_written mode writeTimeout request body
    allowRetry accepts, sendBody]
  cases expects : request.hasExpectContinue with
  | false =>
      simp only [hasBody, Bool.and_false, Bool.false_eq_true, if_false,
        if_true]
      split
      all_goals
        rename_i isResult
        rw [isResult] at isPiped
        exact isPiped
  | true =>
      have isLine := readTextLine_continuing
      have sameReads :
          (continuing.handedOver.wrote [request.head, []]).reads =
            continuing.reads :=
        rfl
      have isContinue :
          parseStatusCode "HTTP/1.1 100 Continue\r\n".toList = 100 := by
        decide
      have skips :
          skipLine ⟨ascii "\r\n", []⟩ = some ⟨[], []⟩ := by
        decide +kernel
      rw [sameReads, isLine]
      simp only [hasBody, Bool.and_self, if_true, isContinue,
        continueRequest, skips]
      split
      · rename_i isResult
        rw [isResult] at isPiped
        exact isPiped
      · rename_i isResult
        rw [isResult] at isPiped
        split <;> exact isPiped

end Attempts

/-! ## Both attempts -/

section Forwarding

variable
  {mode : ReplyMode}
  {writeTimeout : Nat}
  {request : Request}
  {body : RequestBody}
  {first second : Except ForwardError Conn}
  {conn fresh used : Conn}

/--
A connection that was used is that of the first attempt or of a second one.
-/
theorem cases_of_used
    (isUsed :
      used ∈
        (forwardRequest mode writeTimeout request body first second).2) :
    ∃ conn,
      first = .ok conn ∧
        (used =
            (sendRecvPooled mode writeTimeout request body true
              conn.handedOver).2 ∨
          ∃ (error : ForwardError) (fresh : Conn),
            (sendRecvPooled mode writeTimeout request body true
                conn.handedOver).1 =
                .failed error false ∧
              used =
                (sendRecvPooled mode writeTimeout request [] false
                  fresh.handedOver).2) := by
  cases first with
  | error error =>
      cases isUsed
  | ok conn =>
      refine ⟨conn, rfl, ?_⟩
      unfold forwardRequest at isUsed
      dsimp only at isUsed
      split at isUsed
      · rename_i error after isAttempt
        rw [isAttempt]
        cases second with
        | error other =>
            exact .inl (List.mem_singleton.mp isUsed)
        | ok fresh =>
            rcases List.mem_cons.mp isUsed with isFirst | isSecond
            · exact .inl isFirst
            · exact .inr
                ⟨error, fresh, rfl, List.mem_singleton.mp isSecond⟩
      · rename_i result after _ isAttempt
        rw [isAttempt]
        exact .inl (List.mem_singleton.mp isUsed)

/-- The first connection is used. -/
theorem used_first :
    (sendRecvPooled mode writeTimeout request body true
        conn.handedOver).2 ∈
      (forwardRequest mode writeTimeout request body (.ok conn)
        second).2 := by
  unfold forwardRequest
  dsimp only
  split
  · rename_i isAttempt
    rw [isAttempt]
    cases second with
    | error other =>
        exact List.mem_singleton_self _
    | ok fresh =>
        exact List.mem_cons_self
  · rename_i isAttempt
    rw [isAttempt]
    exact List.mem_singleton_self _

/-- After a failure that counts as unused, the second connection is used. -/
theorem used_second
    {error : ForwardError}
    (isFailed :
      (sendRecvPooled mode writeTimeout request body true
          conn.handedOver).1 =
        .failed error false) :
    (sendRecvPooled mode writeTimeout request [] false
        fresh.handedOver).2 ∈
      (forwardRequest mode writeTimeout request body (.ok conn)
        (.ok fresh)).2 := by
  cases isAttempt :
      sendRecvPooled mode writeTimeout request body true
        conn.handedOver with
  | mk result after =>
      rw [isAttempt] at isFailed
      dsimp only at isFailed
      subst isFailed
      rw [forwardRequest_of_repeated isAttempt (Prod.eta _).symm]
      exact List.mem_cons_of_mem _ (List.mem_singleton_self _)

end Forwarding

/-! ## The four paths -/

/-- Backends that take everything. -/
def taking : Backend where
  first := .ok continuing
  second := .ok continuing
  upstream := .responds 200
  fcgiFirst := .ok FastCgi.answering
  fcgiSecond := .ok FastCgi.answering

theorem settled_taking (request : Request) : Settled request taking := by
  intro conn isConn
  cases isConn
  refine ⟨by simp [Conn.Accepts, continuing], ?_⟩
  intro _ _
  exact ⟨_, _, readTextLine_continuing⟩

section Paths

variable
  {call : Call}
  {repeats : Bool}
  {chunks : List (List UInt8)}
  {text : String}
  {rest : RequestBody}

/-- What was sent on a connection that was used. -/
theorem sent_of_used
    {body : RequestBody}
    {backend : Backend}
    {used : Conn}
    (isUsed :
      used ∈
        (forwardRequest call.mode call.writeTimeout call.request body
          backend.first backend.second).2) :
    Sent.http1 used.sent ∈ (call.http1 body backend).sent :=
  List.mem_map.mpr ⟨used, isUsed, rfl⟩

theorem http1_of_safe
    (safe : Safe call .http1 repeats chunks.flatten.length) :
    NeverComplete call .http1 repeats (brokenBody chunks text rest) := by
  have incomplete :
      announced call.request = .chunked ∨
        ∃ length,
          announced call.request = .sized length ∧
            chunks.flatten.length < length := by
    unfold Safe at safe
    dsimp only at safe
    split at safe
    · exact safe.elim
    · rename_i length isSized
      exact .inr ⟨length, isSized, safe⟩
    · rename_i isChunked
      exact .inl isChunked
  intro backend allowed sent isSent
  obtain ⟨used, isUsed, rfl⟩ := List.mem_map.mp isSent
  obtain ⟨conn, isFirst, isAttempt | ⟨error, fresh, isFailed, isSecond⟩⟩ :=
    cases_of_used isUsed
  · rw [isAttempt]
    exact not_complete_attempt incomplete
  · rw [isSecond]
    rcases incomplete with isChunked | ⟨length, isSized, less⟩
    · -- A chunked request is safe as long as it is not repeated.
      have isOnce : repeats = false := by
        rw [Safe, isChunked] at safe
        exact safe
      rcases allowed with isRepeated | settled
      · rw [isOnce] at isRepeated
        cases isRepeated
      · obtain ⟨accepts, isRead⟩ := settled conn isFirst
        have hasBody :=
          @hasBody_of_announced call.request (by simp [isChunked])
        exact absurd isFailed
          (consumed_of_settled hasBody accepts (isRead hasBody))
    · exact not_complete_repeated isSized (Nat.zero_lt_of_lt less)

/-- A backend that takes everything gets the head at least. -/
theorem complete_of_noBody
    {mode : ReplyMode}
    {writeTimeout : Nat}
    {request : Request}
    {body : RequestBody}
    (isNone : announced request = .none) :
    CompleteHttp1 request
      (sendRecvPooled mode writeTimeout request body true
        continuing.handedOver).2.sent := by
  have accepts : continuing.handedOver.Accepts 2 := by
    simp [Conn.Accepts, Conn.handedOver, continuing]
  have noBody : request.hasBody = false := by
    unfold announced at isNone
    split at isNone
    · split at isNone <;> cases isNone
    · rename_i noBody
      exact Bool.eq_false_iff.mpr noBody
  rw [sendRecvPooled_of_head_written mode writeTimeout request body true
    accepts, sendBody_without_body noBody]
  refine ⟨[], ?_, ?_⟩
  · simp [Conn.wrote, Conn.handedOver]
  · rw [isNone]
    trivial

theorem safe_of_http1
    (never :
      NeverComplete call .http1 repeats (brokenBody chunks text rest)) :
    Safe call .http1 repeats chunks.flatten.length := by
  have firstIncomplete :
      ¬ CompleteHttp1 call.request
          (sendRecvPooled call.mode call.writeTimeout call.request
            (brokenBody chunks text rest) true
            continuing.handedOver).2.sent :=
    never taking (.inr (settled_taking call.request)) _
      (@sent_of_used call _ taking _ used_first)
  have isSent (hasBody : call.request.hasBody = true) :=
    @sent_continuing call.mode call.writeTimeout call.request true
      (brokenBody chunks text rest) hasBody
  rw [piped_brokenBody] at isSent
  unfold Safe
  dsimp only
  split
  · rename_i isNone
    exact firstIncomplete (complete_of_noBody isNone)
  · rename_i length isSized
    by_contra notLess
    apply firstIncomplete
    rw [isSent (hasBody_of_announced (by simp [isSized]))]
    refine ⟨_, rfl, ?_⟩
    rw [isSized, useChunked_of_sized isSized, frames_plain]
    exact Nat.not_lt.mp notLess
  · rename_i isChunked
    by_contra isRepeated
    have isTrue : repeats = true := by
      simpa using isRepeated
    let closed : Conn := ⟨[.failed 0 ⟨.brokenPipe, ""⟩], [], []⟩
    have isFailed :
        (sendRecvPooled call.mode call.writeTimeout call.request
            (brokenBody chunks text rest) true closed.handedOver).1 =
          .failed (.proxy (.writeTimeout "" call.writeTimeout)) false :=
      rfl
    have secondIncomplete :
        ¬ CompleteHttp1 call.request
            (sendRecvPooled call.mode call.writeTimeout call.request [] false
              continuing.handedOver).2.sent :=
      never { taking with first := .ok closed } (.inl isTrue) _
        (@sent_of_used call _ { taking with first := .ok closed } _
          (used_second isFailed))
    apply secondIncomplete
    rw [sent_continuing (hasBody_of_announced (by simp [isChunked]))]
    refine ⟨_, rfl, ?_⟩
    rw [isChunked, useChunked_of_chunked isChunked]
    exact ⟨⟨[], ChunkedRoundTrip.lastLine, [], rfl⟩, List.prefix_rfl⟩

/-! ### HTTP/2 -/

theorem complete_http2
    (builds : call.builds = true) :
    ∃ sent ∈ (call.http2 (brokenBody chunks text rest) taking).sent,
      Complete call.request sent := by
  unfold Call.http2 UpstreamH2.forwardRequestH2
  rw [collect_brokenBody, builds]
  dsimp only [UpstreamH2.send, taking]
  by_cases isNil : [] ++ chunks.flatten = []
  · rw [if_pos isNil]
    exact ⟨_, List.mem_singleton_self _, rfl⟩
  · rw [if_neg isNil]
    exact ⟨_, List.mem_singleton_self _, rfl⟩

theorem http2_iff :
    NeverComplete call .http2 repeats (brokenBody chunks text rest) ↔
      call.builds = false := by
  constructor
  · intro never
    by_contra notFalse
    have builds : call.builds = true := by
      simpa using notFalse
    obtain ⟨sent, isSent, complete⟩ :=
      @complete_http2 call chunks text rest builds
    exact never taking (.inr (settled_taking call.request)) sent isSent
      complete
  · intro fails backend _ sent isSent
    have isNone :
        (call.http2 (brokenBody chunks text rest) backend).sent = [] := by
      unfold Call.http2 UpstreamH2.forwardRequestH2
      rw [collect_brokenBody, fails]
      rfl
    rw [Call.handle, isNone] at isSent
    cases isSent

/-! ### gRPC -/

/-- What was collected is sent as a whole body. -/
theorem complete_collected
    (buffer : List UInt8)
    (fits :
      ∀ length,
        announced call.request = .sized length → length ≤ buffer.length) :
    ∃ sent ∈ (call.http1 [.chunk buffer] taking).sent,
      Complete call.request sent := by
  refine ⟨_, @sent_of_used call _ taking _ used_first, ?_⟩
  change CompleteHttp1 call.request _
  have isBody (useChunked : Bool) :
      piped useChunked [.chunk buffer] =
        encodedBody useChunked [buffer] :=
    (encodedBody_eq_frames [buffer]).symm
  cases isFraming : announced call.request with
  | none =>
      exact complete_of_noBody isFraming
  | sized length =>
      rw [sent_continuing (hasBody_of_announced (by simp [isFraming])),
        isBody]
      refine ⟨_, rfl, ?_⟩
      rw [isFraming, useChunked_of_sized isFraming, encodedBody_eq_frames,
        frames_plain, List.flatten_singleton]
      exact Nat.le_trans (fits length isFraming)
        (List.prefix_append _ _).length_le
  | chunked =>
      rw [sent_continuing (hasBody_of_announced (by simp [isFraming])),
        isBody]
      refine ⟨_, rfl, ?_⟩
      rw [isFraming, useChunked_of_chunked isFraming,
        ChunkedRoundTrip.encodedBody_eq]
      exact ⟨⟨_, ChunkedRoundTrip.lastLine, [], rfl⟩, List.prefix_rfl⟩

/-- A whole body that is shorter than announced does not complete a request. -/
theorem not_complete_collected
    {backend : Backend}
    {buffer : List UInt8}
    {length : Nat}
    (isSized : announced call.request = .sized length)
    (less : buffer.length < length) :
    ∀ sent ∈ (call.http1 [.chunk buffer] backend).sent,
      ¬ Complete call.request sent := by
  intro sent isSent
  obtain ⟨used, isUsed, rfl⟩ := List.mem_map.mp isSent
  change ¬ CompleteHttp1 call.request used.sent
  obtain ⟨conn, _, isAttempt | ⟨error, fresh, _, isSecond⟩⟩ :=
    cases_of_used isUsed
  · rw [isAttempt]
    apply not_complete_of_prefix
      (@prefix_sent_attempt [.chunk buffer] _ call.mode call.writeTimeout
        call.request true (prefix_pipeRequestBody _ [.chunk buffer]) conn)
    intro body isBody completes
    have isBuffer : (chunksOf [.chunk buffer]).flatten = buffer :=
      List.flatten_singleton
    rw [useChunked_of_sized isSized, encodedBody_eq_frames,
      frames_plain, isBuffer] at isBody
    rw [isSized] at completes
    have noEnd : (endWrites false).flatten = [] := rfl
    rw [noEnd, List.append_nil] at isBody
    exact absurd (Nat.le_trans completes isBody.length_le)
      (Nat.not_le.mpr less)
  · rw [isSecond]
    exact not_complete_repeated isSized (Nat.zero_lt_of_lt less)

/-- What the gRPC handler sends, if neither check stops it. -/
theorem sent_grpc
    {backend : Backend}
    (announcedFits :
      ¬ (0 < call.maxBody ∧
        call.maxBody < call.contentLength.getD 0)) :
    (0 < call.maxBody ∧
        call.maxBody < chunks.flatten.length ∧
        (call.grpc (brokenBody chunks text rest) backend).sent = []) ∨
      ((0 < call.maxBody → chunks.flatten.length ≤ call.maxBody) ∧
        (call.grpc (brokenBody chunks text rest) backend).sent =
          (call.http1 [.chunk chunks.flatten] backend).sent) := by
  rw [Call.grpc, if_neg announcedFits]
  have isCollected := collect_brokenBody [] chunks text rest
  rcases collectWithin_cases call.maxBody []
      (brokenBody chunks text rest) with
    ⟨positive, exceeds, isLarge, _⟩ | ⟨within, isSame⟩
  · rw [arrived_brokenBody] at exceeds
    refine .inl ⟨positive, exceeds, ?_⟩
    rw [← Prod.eta (collectWithin _ _ _), isLarge]
  · rw [isSame, isCollected]
    rw [arrived_brokenBody] at within
    refine .inr ⟨?_, rfl⟩
    intro positive
    rcases within positive with fits | isNil
    · exact fits
    · rw [isNil]
      exact Nat.zero_le _

theorem grpc_iff :
    NeverComplete call .grpc repeats (brokenBody chunks text rest) ↔
      Safe call .grpc repeats chunks.flatten.length := by
  by_cases announcedFits :
      0 < call.maxBody ∧ call.maxBody < call.contentLength.getD 0
  · refine iff_of_true ?_ (.inl ⟨announcedFits.1, .inl announcedFits.2⟩)
    intro backend _ sent isSent
    rw [Call.handle, Call.grpc, if_pos announcedFits] at isSent
    cases isSent
  constructor
  · intro never
    rcases @sent_grpc call chunks text rest taking announcedFits with
      ⟨positive, exceeds, _⟩ | ⟨_, isSame⟩
    · exact .inl ⟨positive, .inr exceeds⟩
    · by_contra notSafe
      obtain ⟨sent, isSent, complete⟩ :=
        @complete_collected call chunks.flatten (by
          intro length isSized
          by_contra notFits
          exact notSafe
            (.inr ⟨length, isSized, Nat.lt_of_not_le notFits⟩))
      rw [← isSame] at isSent
      exact never taking (.inr (settled_taking call.request)) sent isSent
        complete
  · intro safe backend _ sent isSent
    change sent ∈ (call.grpc (brokenBody chunks text rest) backend).sent
      at isSent
    rcases @sent_grpc call chunks text rest backend announcedFits with
      ⟨_, _, isNone⟩ | ⟨within, isSame⟩
    · rw [isNone] at isSent
      cases isSent
    · rw [isSame] at isSent
      rcases safe with ⟨positive, announcedMore | arrivesMore⟩ |
          ⟨length, isSized, less⟩
      · exact absurd ⟨positive, announcedMore⟩ announcedFits
      · exact absurd (within positive) (Nat.not_le.mpr arrivesMore)
      · exact not_complete_collected isSized less sent isSent

/-! ### FastCGI -/

/-- The packet of the handler is complete, whatever its body. -/
theorem completeFastCgi_requestPacket (body : List UInt8) :
    CompleteFastCgi
      (FastCgi.requestPacket (call.params body.length) body) := by
  have isParam :
      ("CONTENT_LENGTH", String.ofList (toDecimal body.length)) ∈
        call.params body.length :=
    List.mem_append_right _ List.mem_cons_self
  have notEmpty :
      FastCgi.paramsContent (call.params body.length) ≠ [] := by
    intro isEmpty
    rw [FastCgi.paramsContent_eq_nil_iff] at isEmpty
    rw [isEmpty] at isParam
    cases isParam
  have isStdin :
      ∃ after,
        FcgiWire.readStream? FcgiWire.stdinType
            (FastCgi.recordsOf FcgiWire.stdinType body ++
              [FastCgi.emptyRecord FcgiWire.stdinType]) =
          some (body, after) := by
    by_cases isNil : body = []
    · rw [isNil]
      exact ⟨_, FastCgi.readStream?_recordsOf_nil []⟩
    · exact ⟨_, FastCgi.readStream?_recordsOf isNil []⟩
  obtain ⟨after, isRead⟩ := isStdin
  refine ⟨FastCgi.requestRecords (call.params body.length) body,
    call.params body.length, _, body, after, ?_, ?_, isParam, isRead⟩
  · rw [FastCgi.requestPacket_eq, FcgiWire.readRecords?_flatMap]
  · exact FastCgi.readStream?_recordsOf notEmpty _

/-- The first connection is sent the packet. -/
theorem sent_answering
    (params : List (String × String))
    (body : List UInt8)
    (second : Except IoError Conn) :
    ∃ used ∈
        (FastCgi.reconnectLoop params body (.ok FastCgi.answering)
          second).2,
      used.sent = FastCgi.requestPacket params body := by
  have isSent := FastCgi.delivered_answering params body
  refine ⟨_, ?_, isSent⟩
  cases isAttempt :
      FastCgi.fcgiSendAndReadHeaders params body
        FastCgi.answering.handedOver with
  | mk result after =>
      rw [FastCgi.reconnectLoop, isAttempt]
      cases result with
      | failed error =>
          cases second with
          | error other =>
              exact List.mem_singleton_self _
          | ok fresh =>
              exact List.mem_cons_self
      | ok parsed =>
          exact List.mem_singleton_self _
      | timedOut =>
          exact List.mem_singleton_self _

theorem fastcgi_iff :
    NeverComplete call .fastcgi repeats (brokenBody chunks text rest) ↔
      0 < call.maxBody ∧ call.maxBody < call.contentLength.getD 0 := by
  constructor
  · intro never
    by_contra notSafe
    have isFree :
        ¬ (call.maxBody < call.contentLength.getD 0 ∧
          0 < call.maxBody) :=
      fun both => notSafe both.symm
    obtain ⟨buffer, isBuffer⟩ :
        ∃ buffer,
          call.fastcgiBody (brokenBody chunks text rest) =
            (buffer, true) := by
      unfold Call.fastcgiBody
      split
      · exact ⟨_, collect_brokenBody [] chunks text rest⟩
      · exact ⟨[], rfl⟩
    obtain ⟨used, isUsed, isSent⟩ :=
      sent_answering (call.params buffer.length) buffer
        (.ok FastCgi.answering)
    have isMember :
        Sent.fastcgi used.sent ∈
          (call.handle .fastcgi (brokenBody chunks text rest)
            taking).sent := by
      rw [Call.handle, Call.fastcgi, if_neg isFree, isBuffer]
      exact List.mem_map.mpr ⟨used, isUsed, rfl⟩
    apply never taking (.inr (settled_taking call.request)) _ isMember
    change CompleteFastCgi used.sent
    rw [isSent]
    exact completeFastCgi_requestPacket buffer
  · intro safe backend _ sent isSent
    rw [Call.handle, Call.fastcgi, if_pos safe.symm] at isSent
    cases isSent

end Paths

/--
A body that breaks off never becomes a complete request exactly for the requests
that `Safe` names: of a chunked body over HTTP/1, if no attempt is repeated; of
a body of known length, if less arrives; over HTTP/2 never; over gRPC and
FastCGI, if the request is refused before anything is sent.
-/
theorem neverComplete_iff
    (call : Call)
    (path : Path)
    (repeats : Bool)
    (chunks : List (List UInt8))
    (text : String)
    (rest : RequestBody) :
    NeverComplete call path repeats (brokenBody chunks text rest) ↔
      Safe call path repeats chunks.flatten.length := by
  cases path with
  | http1 =>
      exact ⟨safe_of_http1, http1_of_safe⟩
  | http2 =>
      exact http2_iff
  | grpc =>
      exact grpc_iff
  | fastcgi =>
      exact fastcgi_iff

/-- A call that uploads without a limit. -/
def upload : Call where
  tools := CacheTransparency.asciiTools
  mode := ⟨false, fun _ => true⟩
  writeTimeout := 60
  request := samplePost
  contentLength := none
  maxBody := 0
  builds := true
  paramsBefore := []
  paramsAfter := []

/-- Over HTTP/2, it is a complete request though the client leaves. -/
theorem not_neverComplete_upload :
    ¬ NeverComplete upload .http2 true
        (brokenBody [ascii "id=1"] "connection reset" []) := by
  intro never
  exact Bool.noConfusion (http2_iff.mp never)

end Sweety.TruncatedBody
