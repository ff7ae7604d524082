import Sweety.TruncatedBody

namespace Sweety.BodyLimit

open HttpText UpstreamResponse ForwardRequest BodyPaths PipedBody
  TruncatedBody

/-!
# The limit on request bodies

`client_max_body_size` is compared with the announced length by the router, and
again by two of the handlers; only the gRPC handler looks at the bytes that
arrive, after it has stored them.
-/

/-! ## Keeping within a limit -/

/-- A backend gets a beginning of a request whose body is within the limit. -/
def Within (request : Request) (limit : Nat) : Sent → Prop
  | .http1 bytes =>
      ∃ chunks : List (List UInt8),
        chunks.flatten.length ≤ limit ∧
          bytes <+: request.head ++ encodedBody request.useChunked chunks
  | .http2 stream =>
      stream.data.length ≤ limit
  | .fastcgi bytes =>
      ∃ params, ∃ body : List UInt8,
        body.length ≤ limit ∧ bytes <+: FastCgi.requestPacket params body

/-- The answer is an error response. -/
def IsError : Answer → Prop
  | .response status =>
      400 ≤ status
  | .hang =>
      False

/--
Whatever the backends do: no more of the body is stored or passed on than the
limit, and a longer body is answered by an error.
-/
def LimitHolds
    (call : Call)
    (maxBodyBytes : Nat)
    (path : Path)
    (body : RequestBody) :
    Prop :=
  ∀ backend,
    (call.route maxBodyBytes path body backend).buffered ≤ call.maxBody ∧
      (∀ sent ∈ (call.route maxBodyBytes path body backend).sent,
        Within call.request call.maxBody sent) ∧
      (call.maxBody < (arrived body).length →
        IsError (call.route maxBodyBytes path body backend).answer)

/-- A check that refuses a request for the length it announces. -/
def Refused
    (call : Call)
    (maxBodyBytes : Nat)
    (path : Path) :
    Prop :=
  ∃ length,
    call.contentLength = some length ∧
      (0 < maxBodyBytes ∧ maxBodyBytes < length ∨
        (path = .grpc ∨ path = .fastcgi) ∧ call.maxBody < length)

section Checks

variable
  {call : Call}
  {maxBodyBytes : Nat}
  {path : Path}
  {body : RequestBody}
  {backend : Backend}

/-! ## Requests that are refused -/

theorem route_of_refused
    (positive : 0 < call.maxBody)
    (refused : Refused call maxBodyBytes path) :
    ∃ status,
      400 ≤ status ∧
        call.route maxBodyBytes path body backend =
          ⟨.response status, 0, []⟩ := by
  obtain ⟨length, isLength, isLarge⟩ := refused
  unfold Call.route
  by_cases byRouter :
      0 < maxBodyBytes ∧
        call.contentLength.any (fun length => maxBodyBytes < length)
  · exact ⟨413, by decide, if_pos byRouter⟩
  · rw [if_neg byRouter]
    rcases isLarge with routerLarge | ⟨isPath, isLarge⟩
    · exact absurd ⟨routerLarge.1, by simpa [isLength] using routerLarge.2⟩
        byRouter
    · have announced : call.maxBody < call.contentLength.getD 0 := by
        rw [isLength]
        exact isLarge
      rcases isPath with rfl | rfl
      · exact ⟨400, by decide, if_pos ⟨positive, announced⟩⟩
      · exact ⟨413, by decide, if_pos ⟨announced, positive⟩⟩

theorem limitHolds_of_refused
    (positive : 0 < call.maxBody)
    (refused : Refused call maxBodyBytes path) :
    LimitHolds call maxBodyBytes path body := by
  intro backend
  obtain ⟨status, isError, isRoute⟩ :=
    @route_of_refused call maxBodyBytes path body backend positive refused
  rw [isRoute]
  refine ⟨Nat.zero_le _, ?_, fun _ => isError⟩
  intro sent isSent
  cases isSent

/-- Any other request gets to its handler, and there to its body. -/
theorem route_of_not_refused
    (notRefused : ¬ Refused call maxBodyBytes path) :
    call.route maxBodyBytes path body backend =
        call.handle path body backend ∧
      (path = .grpc ∨ path = .fastcgi →
        ¬ call.maxBody < call.contentLength.getD 0) := by
  constructor
  · apply if_neg
    rintro ⟨positive, isLarge⟩
    cases isLength : call.contentLength with
    | none =>
        rw [isLength] at isLarge
        cases isLarge
    | some length =>
        rw [isLength] at isLarge
        exact notRefused
          ⟨length, isLength, .inl ⟨positive, of_decide_eq_true isLarge⟩⟩
  · intro isPath isLarge
    cases isLength : call.contentLength with
    | none =>
        rw [isLength] at isLarge
        exact Nat.not_lt_zero _ isLarge
    | some length =>
        rw [isLength] at isLarge
        exact notRefused ⟨length, isLength, .inr ⟨isPath, isLarge⟩⟩

end Checks

/-! ## Bodies within the limit -/

section Short

variable
  {call : Call}
  {limit : Nat}
  {body : RequestBody}
  {backend : Backend}

/-- What `forward_request` sends of a body within the limit. -/
theorem within_http1
    (short : (arrived body).length ≤ limit) :
    ∀ sent ∈ (call.http1 body backend).sent,
      Within call.request limit sent := by
  intro sent isSent
  obtain ⟨used, isUsed, rfl⟩ := List.mem_map.mp isSent
  obtain ⟨conn, _, isAttempt | ⟨error, fresh, _, isSecond⟩⟩ :=
    cases_of_used isUsed
  · rw [isAttempt]
    refine ⟨chunksOf body, ?_, ?_⟩
    · rw [flatten_chunksOf]
      exact short
    · exact prefix_sent_attempt call.mode call.writeTimeout call.request
        true (prefix_pipeRequestBody _ body) conn
  · rw [isSecond]
    exact ⟨[], Nat.zero_le _,
      prefix_sent_repeated call.mode call.writeTimeout call.request fresh⟩

theorem length_collect (body : RequestBody) :
    (UpstreamH2.collect [] body).1 = arrived body := by
  rw [collect_eq, List.nil_append]

/-- A stream holds what was collected, or nothing. -/
theorem data_of_stream
    {tools : ResponseTools}
    {builds : Bool}
    {request : Request}
    {upstream : UpstreamH2.Upstream}
    {stream : UpstreamH2.Stream}
    (isStream :
      stream ∈
        (UpstreamH2.forwardRequestH2 tools builds request body
          upstream).2) :
    stream.data = [] ∨ stream.data = arrived body := by
  unfold UpstreamH2.forwardRequestH2 at isStream
  dsimp only at isStream
  rw [length_collect] at isStream
  split at isStream
  · cases isStream
  · split at isStream
    · cases isStream
    · unfold UpstreamH2.send at isStream
      split at isStream
      · cases isStream
      · split at isStream
        · rw [List.mem_singleton.mp isStream]
          exact .inl rfl
        · split at isStream
          · rw [List.mem_singleton.mp isStream]
            exact .inl rfl
          · rw [List.mem_singleton.mp isStream]
            exact .inr rfl

theorem within_http2
    (short : (arrived body).length ≤ limit) :
    ∀ sent ∈ (call.http2 body backend).sent,
      Within call.request limit sent := by
  intro sent isSent
  have isStream :
      ∃ stream ∈
          (UpstreamH2.forwardRequestH2 call.tools call.builds call.request
            body backend.upstream).2,
        Sent.http2 stream = sent :=
    List.mem_map.mp isSent
  obtain ⟨stream, isStream, rfl⟩ := isStream
  change stream.data.length ≤ limit
  rcases data_of_stream isStream with isNil | isData
  · rw [isNil]
    exact Nat.zero_le _
  · rw [isData]
    exact short

/-- An attempt sends a beginning of the packet. -/
theorem prefix_sent_packet
    (params : List (String × String))
    (stdinBody : List UInt8)
    (conn : Conn) :
    (FastCgi.fcgiSendAndReadHeaders params stdinBody
        conn.handedOver).2.sent <+:
      FastCgi.requestPacket params stdinBody := by
  have part :=
    Conn.prefix_sent_writeEach [FastCgi.requestPacket params stdinBody, []]
      conn.handedOver
  have isPacket :
      conn.handedOver.sent ++
          [FastCgi.requestPacket params stdinBody, []].flatten =
        FastCgi.requestPacket params stdinBody := by
    simp [Conn.handedOver]
  rw [isPacket] at part
  unfold FastCgi.fcgiSendAndReadHeaders
  split
  all_goals
    rename_i isWrite
    rw [isWrite] at part
    first
      | exact part
      | split <;> exact part

/-- So does each of the attempts. -/
theorem prefix_used_packet
    {params : List (String × String)}
    {stdinBody : List UInt8}
    {first second : Except IoError Conn}
    {used : Conn}
    (isUsed :
      used ∈
        (FastCgi.reconnectLoop params stdinBody first second).2) :
    used.sent <+: FastCgi.requestPacket params stdinBody := by
  cases first with
  | error error =>
      cases isUsed
  | ok conn =>
      have isFirst := prefix_sent_packet params stdinBody conn
      unfold FastCgi.reconnectLoop at isUsed
      dsimp only at isUsed
      split at isUsed
      · rename_i isAttempt
        rw [isAttempt] at isFirst
        cases second with
        | error other =>
            rw [List.mem_singleton.mp isUsed]
            exact isFirst
        | ok fresh =>
            rcases List.mem_cons.mp isUsed with rfl | isSecond
            · exact isFirst
            · rw [List.mem_singleton.mp isSecond]
              exact prefix_sent_packet params stdinBody fresh
      · rename_i isAttempt
        rw [isAttempt] at isFirst
        rw [List.mem_singleton.mp isUsed]
        exact isFirst

theorem within_fastcgi
    (short : (arrived body).length ≤ limit) :
    (call.fastcgi body backend).buffered ≤ limit ∧
      ∀ sent ∈ (call.fastcgi body backend).sent,
        Within call.request limit sent := by
  have bodyShort : (call.fastcgiBody body).1.length ≤ limit := by
    unfold Call.fastcgiBody
    split
    · rw [length_collect]
      exact short
    · exact Nat.zero_le _
  unfold Call.fastcgi
  split
  · exact ⟨Nat.zero_le _, by simp⟩
  · dsimp only
    split
    · refine ⟨bodyShort, ?_⟩
      intro sent isSent
      obtain ⟨used, isUsed, rfl⟩ := List.mem_map.mp isSent
      exact ⟨_, _, bodyShort, prefix_used_packet isUsed⟩
    · exact ⟨bodyShort, by simp⟩

theorem within_grpc
    (short : (arrived body).length ≤ call.maxBody) :
    (call.grpc body backend).buffered ≤ call.maxBody ∧
      ∀ sent ∈ (call.grpc body backend).sent,
        Within call.request call.maxBody sent := by
  unfold Call.grpc
  split
  · exact ⟨Nat.zero_le _, by simp⟩
  · rcases collectWithin_cases call.maxBody [] body with
      ⟨_, exceeds, _⟩ | ⟨_, isSame⟩
    · exact absurd short (Nat.not_le.mpr exceeds)
    · rw [isSame, length_collect]
      cases (UpstreamH2.collect [] body).2 with
      | false =>
          exact ⟨short, by simp⟩
      | true =>
          refine ⟨short, within_http1 ?_⟩
          change (arrived body ++ []).length ≤ call.maxBody
          rw [List.append_nil]
          exact short

/-- A body within the limit is stored and passed on within the limit. -/
theorem limitHolds_of_short
    {maxBodyBytes : Nat}
    {path : Path}
    (positive : 0 < call.maxBody)
    (short : (arrived body).length ≤ call.maxBody) :
    LimitHolds call maxBodyBytes path body := by
  by_cases refused : Refused call maxBodyBytes path
  · exact limitHolds_of_refused positive refused
  · intro backend
    rw [(@route_of_not_refused call maxBodyBytes path body backend
      refused).1]
    have notLong :
        call.maxBody < (arrived body).length →
          IsError (call.handle path body backend).answer := fun long =>
      absurd short (Nat.not_le.mpr long)
    cases path with
    | http1 =>
        exact ⟨Nat.zero_le _, within_http1 short, notLong⟩
    | http2 =>
        refine ⟨?_, within_http2 short, notLong⟩
        change (UpstreamH2.collect [] body).1.length ≤ call.maxBody
        rw [length_collect]
        exact short
    | grpc =>
        obtain ⟨isStored, isPassed⟩ :=
          @within_grpc call body backend short
        exact ⟨isStored, isPassed, notLong⟩
    | fastcgi =>
        obtain ⟨isStored, isPassed⟩ :=
          @within_fastcgi call call.maxBody body backend short
        exact ⟨isStored, isPassed, notLong⟩

end Short

/-! ## Longer bodies -/

section Long

variable
  {call : Call}
  {body : RequestBody}

/-- What is sent of a longer body is not the beginning of a short one. -/
theorem not_within_of_piped
    {request : Request}
    {limit : Nat}
    (long : limit < (arrived body).length) :
    ¬ Within request limit
        (.http1 (request.head ++ piped request.useChunked body)) := by
  rintro ⟨chunks, short, isPrefix⟩
  rw [List.prefix_append_right_inj] at isPrefix
  have isFrames :
      frames request.useChunked (chunksOf body) <+:
        encodedBody request.useChunked chunks :=
    (List.prefix_append _ _).trans isPrefix
  have fewer : (arrived body).length ≤ chunks.flatten.length := by
    rw [← flatten_chunksOf]
    cases isChunked : request.useChunked with
    | false =>
        rw [isChunked, frames_plain, encodedBody_eq_frames,
          frames_plain] at isFrames
        have noEnd : (endWrites false).flatten = [] := rfl
        rw [noEnd, List.append_nil] at isFrames
        exact isFrames.length_le
    | true =>
        rw [isChunked, frames_chunked, ChunkedRoundTrip.encodedBody_eq,
          encodeUtf8_append] at isFrames
        have noMore := ChunkedEnd.length_data_le rfl isFrames
        have isData (pieces : List (List UInt8)) :
            (ChunkedRoundTrip.sentChunks pieces).flatMap
                Rfc7230.Chunk.data =
              pieces.flatten :=
          ChunkedRoundTrip.chunksData_sentChunks pieces
        rw [isData, isData] at noMore
        exact noMore
  exact absurd (Nat.le_trans fewer short) (Nat.not_le.mpr long)

/-- Backends that take everything and answer. -/
def willing : Backend :=
  { taking with first := .ok answering }

/-- An HTTP/1 node answers a method without a body whatever body comes. -/
theorem answer_http1_willing
    (noBody : call.request.hasBody = false) :
    (call.http1 body willing).answer = .response 204 := by
  have accepts : answering.handedOver.Accepts 2 := by
    simp [Conn.Accepts, Conn.handedOver, answering]
  have received := receive_noContent call.mode false
  have isAttempt :=
    sendRecvPooled_of_head_written call.mode call.writeTimeout call.request
      body true accepts
  rw [sendBody_without_body noBody] at isAttempt
  have sameReads :
      (answering.handedOver.wrote [call.request.head, []]).reads =
        noContent :=
    rfl
  rw [sameReads, received] at isAttempt
  have isOutcome :=
    @forwardRequest_of_settled _ _ _ _ _ _ _ willing.second isAttempt
      (fun _ isFailed => by cases isFailed)
  change
    http1Answer (forwardRequest call.mode call.writeTimeout call.request body
      (.ok answering) willing.second).1 = .response 204
  rw [isOutcome]
  rfl

/-- So does a FastCGI application. -/
theorem answer_fastcgi_willing
    (fits :
      ¬ (call.maxBody < call.contentLength.getD 0 ∧ 0 < call.maxBody))
    (noBody : call.request.hasBody = false) :
    (call.fastcgi body willing).answer = .response 200 := by
  have isRead :
      FastCgi.readHeadersFromStream [] FastCgi.answering.reads =
        (.ok ⟨[], [], true⟩, []) := by
    decide +kernel
  have accepts : FastCgi.answering.handedOver.Accepts 2 := by
    simp [Conn.Accepts, Conn.handedOver, FastCgi.answering]
  have isAttempt (params : List (String × String)) :
      (FastCgi.fcgiSendAndReadHeaders params []
          FastCgi.answering.handedOver).1 =
        .ok ⟨[], [], true⟩ := by
    have written :=
      @Conn.writeEach_of_accepts [FastCgi.requestPacket params [], []] _
        accepts
    have sameReads :
        (FastCgi.answering.handedOver.wrote
            [FastCgi.requestPacket params [], []]).reads =
          FastCgi.answering.reads :=
      rfl
    rw [FastCgi.fcgiSendAndReadHeaders, written]
    dsimp only
    rw [sameReads, isRead]
  rw [Call.fastcgi, if_neg fits, Call.fastcgiBody, noBody]
  have isAnswer :
      (FastCgi.reconnectLoop (call.params 0) [] (.ok FastCgi.answering)
          willing.fcgiSecond).1 =
        .response ⟨[], [], true⟩ := by
    have isOk := isAttempt (call.params 0)
    cases isPair :
        FastCgi.fcgiSendAndReadHeaders (call.params 0) []
          FastCgi.answering.handedOver with
    | mk result after =>
        rw [isPair] at isOk
        dsimp only at isOk
        rw [FastCgi.reconnectLoop, isPair, isOk]
        rfl
  change
    fastcgiAnswer (FastCgi.reconnectLoop (call.params 0) []
      (.ok FastCgi.answering) willing.fcgiSecond).1 = .response 200
  rw [isAnswer]
  exact congrArg Answer.response (by decide)

/-- Some backend shows that a longer body is not kept within the limit. -/
theorem not_limitHolds_of_long
    {maxBodyBytes : Nat}
    {path : Path}
    (notRefused : ¬ Refused call maxBodyBytes path)
    (long : call.maxBody < (arrived body).length) :
    ¬ LimitHolds call maxBodyBytes path body := by
  intro holds
  have isHandle (backend : Backend) :=
    @route_of_not_refused call maxBodyBytes path body backend notRefused
  have stored (backend : Backend) :
      (call.handle path body backend).buffered ≤ call.maxBody := by
    rw [← (isHandle backend).1]
    exact (holds backend).1
  have answered (backend : Backend) :
      IsError (call.handle path body backend).answer := by
    rw [← (isHandle backend).1]
    exact (holds backend).2.2 long
  have noResponse {status : Nat} (small : status < 400) :
      ¬ IsError (.response status) :=
    Nat.not_le.mpr small
  cases path with
  | http1 =>
      cases hasBody : call.request.hasBody with
      | true =>
          have within := (holds taking).2.1
          rw [(isHandle taking).1] at within
          have isWithin :=
            within _ (@sent_of_used call body taking _ used_first)
          rw [sent_continuing hasBody] at isWithin
          exact not_within_of_piped long isWithin
      | false =>
          have isError := answered willing
          rw [Call.handle, answer_http1_willing hasBody] at isError
          exact noResponse (by decide) isError
  | http2 =>
      have isStored : (UpstreamH2.collect [] body).1.length ≤ _ :=
        stored taking
      rw [length_collect] at isStored
      exact absurd isStored (Nat.not_le.mpr long)
  | grpc =>
      have isStored : (call.grpc body taking).buffered ≤ _ := stored taking
      have fits := (isHandle taking).2 (.inl rfl)
      rw [Call.grpc, if_neg (fun both => fits both.2)] at isStored
      rcases collectWithin_cases call.maxBody [] body with
        ⟨_, _, isLarge, exceeds⟩ | ⟨_, isSame⟩
      · rw [← Prod.eta (collectWithin _ _ _), isLarge] at isStored
        exact absurd isStored (Nat.not_le.mpr exceeds)
      · rw [isSame, length_collect] at isStored
        cases isEnd : (UpstreamH2.collect [] body).2 with
        | false =>
            rw [isEnd] at isStored
            exact absurd isStored (Nat.not_le.mpr long)
        | true =>
            rw [isEnd] at isStored
            exact absurd isStored (Nat.not_le.mpr long)
  | fastcgi =>
      have fits := (isHandle taking).2 (.inr rfl)
      have isFree :
          ¬ (call.maxBody < call.contentLength.getD 0 ∧
            0 < call.maxBody) :=
        fun both => fits both.1
      cases hasBody : call.request.hasBody with
      | true =>
          have isStored : (call.fastcgi body taking).buffered ≤ _ :=
            stored taking
          rw [Call.fastcgi, if_neg isFree, Call.fastcgiBody, if_pos hasBody,
            ← Prod.eta (UpstreamH2.collect [] body), length_collect]
            at isStored
          cases isEnd : (UpstreamH2.collect [] body).2 with
          | false =>
              rw [isEnd] at isStored
              exact absurd isStored (Nat.not_le.mpr long)
          | true =>
              rw [isEnd] at isStored
              exact absurd isStored (Nat.not_le.mpr long)
      | false =>
          have isError := answered willing
          rw [Call.handle, answer_fastcgi_willing isFree hasBody] at isError
          exact noResponse (by decide) isError

end Long

/--
The limit binds a request exactly if a check refuses it for the length it
announces or no more than the limit arrives.
-/
theorem limitHolds_iff
    (call : Call)
    (maxBodyBytes : Nat)
    (path : Path)
    (body : RequestBody)
    (positive : 0 < call.maxBody) :
    LimitHolds call maxBodyBytes path body ↔
      Refused call maxBodyBytes path ∨
        (arrived body).length ≤ call.maxBody := by
  constructor
  · intro holds
    by_contra neither
    obtain ⟨notRefused, isLong⟩ := not_or.mp neither
    exact not_limitHolds_of_long notRefused (Nat.lt_of_not_le isLong) holds
  · rintro (refused | short)
    · exact limitHolds_of_refused positive refused
    · exact limitHolds_of_short positive short

/-- A request that announces more than a limit of four bytes. -/
def largeUpload : Call :=
  { upload with contentLength := some 9, maxBody := 4 }

theorem limitHolds_largeUpload :
    0 < largeUpload.maxBody ∧
      LimitHolds largeUpload 4 .http1 [.chunk (ascii "too large")] :=
  ⟨by decide,
    (limitHolds_iff largeUpload 4 .http1 _ (by decide)).mpr
      (.inl ⟨9, rfl, .inl ⟨by decide, by decide⟩⟩)⟩

/-- The same in chunks, with no length announced. -/
theorem not_limitHolds_chunked :
    ¬ LimitHolds { largeUpload with contentLength := none } 4 .fastcgi
        [.chunk (ascii "too large")] := by
  apply not_limitHolds_of_long
  · rintro ⟨length, isLength, _⟩
    cases isLength
  · decide

end Sweety.BodyLimit
