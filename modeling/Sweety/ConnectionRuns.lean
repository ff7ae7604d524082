import Sweety.H1Connection

namespace Sweety.H1

/-!
# Runs of a connection

What holds of every run of an HTTP/1 connection: two runs that read the same
bytes answer the same requests, a connection that is to be closed waits for no
other request, and when the handler of the body panics.
-/

open HttpText

variable
  {env : Env}
  {labels : List Label}
  {final : Connection}

/-! ## Two runs -/

/-- One more request behind those before it. -/
theorem takeRequests_succ
    {stream rest : List UInt8}
    {count : Nat}
    {requests : List Request} :
    takeRequests env stream (count + 1) = some (requests, rest) ↔
      ∃ earlier middle request,
        takeRequests env stream count = some (earlier, middle) ∧
          nextRequest env middle = some (request, rest) ∧
            earlier ++ [request] = requests := by
  simp only [takeRequests, Option.bind_eq_bind, Option.bind_eq_some_iff,
    Option.pure_def, Option.some.injEq, Prod.mk.injEq, Prod.exists]
  constructor
  · rintro ⟨earlier, middle, areTaken, request, left, isNext, rfl, rfl⟩
    exact ⟨earlier, middle, request, areTaken, isNext, rfl⟩
  · rintro ⟨earlier, middle, request, areTaken, isNext, rfl⟩
    exact ⟨earlier, middle, areTaken, request, rest, isNext, rfl, rfl⟩

theorem length_of_takeRequests
    {stream rest : List UInt8}
    {count : Nat}
    {requests : List Request}
    (areTaken : takeRequests env stream count = some (requests, rest)) :
    requests.length = count := by
  induction count generalizing requests rest with
  | zero =>
      obtain ⟨rfl, rfl⟩ := Prod.mk.inj (Option.some.inj areTaken)
      rfl
  | succ count inductionHypothesis =>
      obtain ⟨earlier, middle, request, areEarlier, -, rfl⟩ :=
        takeRequests_succ.mp areTaken
      simp [inductionHypothesis areEarlier]

/-- The requests of a stream do not depend on how many are taken. -/
theorem takeRequests_take
    {stream rest : List UInt8}
    {count fewer : Nat}
    {requests : List Request}
    (areTaken : takeRequests env stream count = some (requests, rest))
    (areFewer : fewer ≤ count) :
    ∃ left, takeRequests env stream fewer =
      some (requests.take fewer, left) := by
  induction count generalizing requests rest with
  | zero =>
      obtain rfl : fewer = 0 := Nat.le_zero.mp areFewer
      exact ⟨stream, rfl⟩
  | succ count inductionHypothesis =>
      rcases Nat.le_succ_iff.mp areFewer with areFewer | rfl
      · obtain ⟨earlier, middle, request, areEarlier, -, rfl⟩ :=
          takeRequests_succ.mp areTaken
        have isLength := length_of_takeRequests areEarlier
        rw [List.take_append_of_le_length (isLength ▸ areFewer)]
        exact inductionHypothesis areEarlier areFewer
      · refine ⟨rest, ?_⟩
        rw [areTaken, List.take_of_length_le
          (Nat.le_of_eq (length_of_takeRequests areTaken))]

/-- Those that have answered fewer requests of a stream are behind. -/
theorem prefix_of_takeRequests
    {stream rest left : List UInt8}
    {first second : List Request}
    (areFirst :
      takeRequests env stream first.length = some (first, rest))
    (areSecond :
      takeRequests env stream second.length = some (second, left))
    (areFewer : first.length ≤ second.length) :
    first <+: second := by
  obtain ⟨_, areTaken⟩ := takeRequests_take areSecond areFewer
  simp only [areFirst, Option.some.injEq, Prod.mk.injEq] at areTaken
  exact areTaken.1 ▸ List.take_prefix first.length second

/--
Two connections, one of which has read at least what the other has: one has
answered the requests that the other has answered, and maybe more.
-/
theorem done_of_runs
    (readsHeads : env.ReadsHeads)
    {others : List Label}
    {other : Connection}
    (isRun : StepRun.run? (Connection.step env) {} labels = some final)
    (isOther : StepRun.run? (Connection.step env) {} others = some other)
    (hasSeen : final.seen <+: other.seen) :
    final.done <+: other.done ∨ other.done <+: final.done := by
  obtain ⟨more, isMore⟩ := hasSeen
  obtain ⟨rest, areDone⟩ := isOnStream_of_run readsHeads isRun
  obtain ⟨left, areOthers⟩ := isOnStream_of_run readsHeads isOther
  have first := areDone.answered more
  have second := areOthers.answered []
  rw [isMore] at first
  rw [List.append_nil] at second
  rcases Nat.le_total final.done.length other.done.length with
    areFewer | areFewer
  · exact .inl (prefix_of_takeRequests first second areFewer)
  · exact .inr (prefix_of_takeRequests second first areFewer)

theorem done_of_runs_post :
    postTaken.done <+: postTwice.done ∨ postTwice.done <+: postTaken.done :=
  done_of_runs (readsHeads_only postBytes postHead) run_postTaken run_post
    ⟨asciiBytes "i" ++ postBytes, by decide +kernel⟩

/-! ## The last request -/

/-- The handler of the body changes the buffer, the decoder and what is fed. -/
theorem Connection.keeps_of_feedBody
    {connection later : Connection}
    {serving served : Serving}
    {isDropped : Bool}
    (isFed : connection.feedBody serving isDropped = some (later, served)) :
    later = { connection with buf := later.buf } ∧
      served = { serving with decoder := served.decoder, fed := served.fed } := by
  simp only [Connection.feedBody, Option.bind_eq_bind,
    Option.bind_eq_some_iff, Option.pure_def, Option.some.injEq,
    Prod.mk.injEq, Prod.exists] at isFed
  obtain ⟨fed, found, left, -, rfl, rfl⟩ := isFed
  exact ⟨rfl, rfl⟩

/-- The request that is served stays the same. -/
def Serving.IsSame (serving served : Serving) : Prop :=
  served.raw = serving.raw ∧ served.hasBody = serving.hasBody ∧
    (serving.hasBody = false → served.isWaiting = serving.isWaiting)

/-- What a step does while a request is served. -/
theorem Connection.stepServing_cases
    {connection next : Connection}
    {label : Label}
    {serving : Serving}
    (isServing : connection.phase = .serving serving)
    (isStep : connection.stepServing serving label = some next) :
    (∃ served, next.phase = .serving served ∧ serving.IsSame served ∧
        next.ctx = connection.ctx) ∨
      (∃ closes, next.phase = .parsing ∧
        next.ctx.close = (connection.ctx.close || closes) ∧
          next.done = connection.done ++ [⟨serving.raw, serving.fed⟩]) ∨
      (next.phase = .panicked ∧ label = .handlerPolled ∧
        serving.isWaiting = true ∧ serving.hasBody = false) ∨
      next.phase = .closed := by
  cases label with
  | read segment =>
      contradiction
  | parse =>
      contradiction
  | fail =>
      contradiction
  | handlerPolled =>
      simp only [Connection.stepServing] at isStep
      split_ifs at isStep with panics
      · obtain rfl := Option.some.inj isStep
        simp only [Bool.and_eq_true, Bool.not_eq_true'] at panics
        exact .inr (.inr (.inl ⟨rfl, rfl, panics⟩))
      · obtain rfl := Option.some.inj isStep
        exact .inl ⟨serving, isServing, ⟨rfl, rfl, fun _ => rfl⟩, rfl⟩
  | bodyPolled isDropped =>
      simp only [Connection.stepServing, Option.ite_none_right_eq_some,
        Option.some.injEq, Bool.and_eq_true] at isStep
      obtain ⟨⟨-, hasBody⟩, rfl⟩ := isStep
      refine .inl ⟨_, rfl, ⟨rfl, rfl, fun noBody => ?_⟩, rfl⟩
      simp [hasBody] at noBody
  | feed isDropped =>
      simp only [Connection.stepServing, Option.ite_none_left_eq_some,
        Option.bind_eq_bind, Option.bind_eq_some_iff, Option.pure_def,
        Option.some.injEq, Prod.exists] at isStep
      obtain ⟨-, later, served, isFed, rfl⟩ := isStep
      obtain ⟨isLater, isServed⟩ := Connection.keeps_of_feedBody isFed
      have isCtx : later.ctx = connection.ctx := by
        rw [isLater]
      refine .inl ⟨served, rfl, ?_, isCtx⟩
      rw [isServed]
      exact ⟨rfl, rfl, fun _ => rfl⟩
  | readBody segment =>
      simp only [Connection.stepServing, Option.ite_none_left_eq_some,
        Option.bind_eq_bind, Option.bind_eq_some_iff, Option.pure_def,
        Option.some.injEq, Prod.exists] at isStep
      obtain ⟨-, later, served, isFed, -, rfl⟩ := isStep
      obtain ⟨isLater, isServed⟩ := Connection.keeps_of_feedBody isFed
      have isCtx : later.ctx = connection.ctx := by
        rw [isLater]
      refine .inl ⟨served, rfl, ?_, isCtx⟩
      rw [isServed]
      exact ⟨rfl, rfl, fun _ => rfl⟩
  | respond closes =>
      simp only [Connection.stepServing] at isStep
      split_ifs at isStep with isEnded
      · obtain rfl := Option.some.inj isStep
        exact .inr (.inl ⟨closes, rfl, rfl, rfl⟩)
      · obtain rfl := Option.some.inj isStep
        exact .inr (.inr (.inr rfl))

/-- The connection is to be closed, as the head of a request says. -/
def RawHead.closes (raw : RawHead) : Bool :=
  (closeTokens raw.headers).getLast?.getD (!raw.isVersion11)

/-- The request that was answered last leaves the connection open. -/
def Connection.EndsOpen (connection : Connection) : Prop :=
  ∀ request ∈ connection.done.getLast?, request.raw.closes = false

/-- A connection knows whether it is to be closed. -/
def Connection.KnowsClosing (connection : Connection) : Prop :=
  match connection.phase with
  | .idle =>
      connection.ctx.close = false ∧ connection.EndsOpen
  | .parsing =>
      connection.ctx.close = false → connection.EndsOpen
  | .serving serving =>
      connection.ctx.close = serving.raw.closes
  | .closed | .panicked =>
      True

theorem Connection.KnowsClosing.takeHead
    {connection : Connection}
    (knows : connection.KnowsClosing)
    (isParsing : connection.phase = .parsing) :
    (connection.takeHead env).KnowsClosing := by
  simp only [KnowsClosing, isParsing] at knows
  unfold Connection.takeHead
  split
  next raw len isParsed =>
    split_ifs with isValid
    · split
      next ctx decoder isDecoded =>
        exact (decodeParsed_framing connection.ctx raw decoder).2 ctx isDecoded
      next =>
        trivial
    · trivial
  next =>
    split_ifs with isFull isClosed
    · trivial
    · trivial
    · have isOpen : connection.ctx.close = false := by
        simpa using isClosed
      exact ⟨isOpen, knows isOpen⟩
  next =>
    trivial

/-- Each step keeps what the connection knows. -/
theorem Connection.KnowsClosing.step
    {connection next : Connection}
    {label : Label}
    (knows : connection.KnowsClosing)
    (isStep : connection.step env label = some next) :
    next.KnowsClosing := by
  unfold Connection.step at isStep
  split at isStep
  next =>
    obtain rfl := Option.some.inj isStep
    trivial
  next segment isIdle =>
    obtain rfl := Option.some.inj isStep
    simp only [KnowsClosing, isIdle] at knows
    exact fun _ => knows.2
  next isParsing =>
    obtain rfl := Option.some.inj isStep
    exact knows.takeHead isParsing
  next serving isServing _ =>
    simp only [KnowsClosing, isServing] at knows
    rcases Connection.stepServing_cases isServing isStep with
      ⟨served, isPhase, isSame, isCtx⟩ | ⟨closes, isPhase, isClose, isDone⟩ |
        ⟨isPhase, -⟩ | isPhase
    · simp only [KnowsClosing, isPhase]
      rw [isCtx, isSame.1, knows]
    · simp only [KnowsClosing, isPhase]
      intro isOpen request isLast
      simp only [isDone, List.getLast?_append_cons, List.getLast?_singleton,
        Option.mem_some_iff] at isLast
      subst isLast
      simp only [isClose, Bool.or_eq_false_iff] at isOpen
      exact knows ▸ isOpen.1
    · simp only [KnowsClosing, isPhase]
    · simp only [KnowsClosing, isPhase]
  next =>
    contradiction

/--
A connection waits for another request only if neither the request that it
answered last nor the response to it closes.
-/
theorem endsOpen_of_run
    (isRun : StepRun.run? (Connection.step env) {} labels = some final)
    (isIdle : final.phase = .idle) :
    final.ctx.close = false ∧ final.EndsOpen := by
  have start : ({} : Connection).KnowsClosing :=
    ⟨rfl, nofun⟩
  have knows : final.KnowsClosing :=
    StepRun.invariant_of_run Connection.KnowsClosing.step start isRun
  simpa only [Connection.KnowsClosing, isIdle] using knows

/-- A request without a body. -/
def getHead : RawHead where
  method := "GET".toList
  path := "/".toList
  isVersion11 := true
  headers := []

def getBytes : List UInt8 :=
  asciiBytes "GET / HTTP/1.1\r\n\r\n"

/-- The request was answered, and the connection waits for another. -/
def getIdle : Connection where
  seen := getBytes
  done := [⟨getHead, []⟩]

theorem run_get :
    StepRun.run? (Connection.step (Env.only getBytes getHead)) {}
        [.read getBytes, .parse, .respond false, .parse] =
      some getIdle := by
  decide +kernel

theorem endsOpen_of_run_get :
    getIdle.ctx.close = false ∧ getIdle.EndsOpen :=
  endsOpen_of_run run_get rfl

/-! ## `Expect` without a body -/

/-- The request has an `Expect` header. -/
def RawHead.expects (raw : RawHead) : Bool :=
  raw.headers.any (·.isNamed "expect")

theorem expect_of_decodeParsed
    {state final : ContextState}
    {raw : RawHead}
    {coding : TransferCoding}
    (isDecoded : decodeParsed state raw = .ok (final, coding)) :
    final.expect = raw.expects := by
  obtain ⟨codings, -, -, rfl⟩ := writeHeaders_eq_ok_iff.mp isDecoded
  have isFresh : (raw.start state).1.expect = false := by
    unfold RawHead.start
    split_ifs <;> rfl
  rw [foldl_stateBehind, isFresh, Bool.false_or]
  rfl

/-- A request without a body is waited for as long as it expects a body. -/
def Connection.WaitsForNone (connection : Connection) : Prop :=
  ∀ serving, connection.phase = .serving serving →
    (serving.hasBody = false ↔ serving.raw.decoder? = some .eof) ∧
      (serving.hasBody = false → serving.isWaiting = serving.raw.expects)

theorem Connection.WaitsForNone.step
    {connection next : Connection}
    {label : Label}
    (waits : connection.WaitsForNone)
    (isStep : connection.step env label = some next) :
    next.WaitsForNone := by
  unfold Connection.step at isStep
  split at isStep
  next =>
    obtain rfl := Option.some.inj isStep
    exact nofun
  next =>
    obtain rfl := Option.some.inj isStep
    exact nofun
  next isParsing =>
    obtain rfl := Option.some.inj isStep
    unfold Connection.takeHead
    split
    next raw len isParsed =>
      split_ifs with isValid
      · split
        next ctx decoder isDecoded =>
          rintro serving ⟨⟩
          have isDecoder := decoder?_of_decodeParsed isDecoded
          have isExpect := expect_of_decodeParsed isDecoded
          simp [isDecoder, isExpect]
        next =>
          exact nofun
      · exact nofun
    next =>
      split_ifs
      · exact nofun
      · exact nofun
      · exact nofun
    next =>
      exact nofun
  next serving isServing _ =>
    obtain ⟨isBody, isWaiting⟩ := waits serving isServing
    rcases Connection.stepServing_cases isServing isStep with
      ⟨served, isPhase, ⟨isRaw, isSame, stays⟩, -⟩ | ⟨closes, isPhase, -⟩ |
        ⟨isPhase, -⟩ | isPhase
    · intro other isOther
      obtain rfl := Phase.serving.inj (isPhase.symm.trans isOther)
      rw [isRaw, isSame]
      exact ⟨isBody, fun noBody => (stays noBody).trans (isWaiting noBody)⟩
    · simp [WaitsForNone, isPhase]
    · simp [WaitsForNone, isPhase]
    · simp [WaitsForNone, isPhase]
  next =>
    contradiction

/--
The handler of the body panics if and only if the request has an `Expect` header
and no body, and the handler runs because the service has not answered yet.
-/
theorem panics_of_run
    {next : Connection}
    {label : Label}
    {serving : Serving}
    (isRun : StepRun.run? (Connection.step env) {} labels = some final)
    (isServing : final.phase = .serving serving)
    (isStep : final.step env label = some next) :
    next.phase = .panicked ↔
      label = .handlerPolled ∧ serving.raw.expects = true ∧
        serving.raw.decoder? = some .eof := by
  have start : ({} : Connection).WaitsForNone :=
    nofun
  have waits : final.WaitsForNone :=
    StepRun.invariant_of_run Connection.WaitsForNone.step start isRun
  obtain ⟨isBody, isWaiting⟩ := waits serving isServing
  constructor
  · intro panics
    unfold Connection.step at isStep
    split at isStep
    next =>
      obtain rfl := Option.some.inj isStep
      contradiction
    next isIdle =>
      exact absurd (isServing.symm.trans isIdle) nofun
    next isParsing =>
      exact absurd (isServing.symm.trans isParsing) nofun
    next other isOther _ =>
      obtain rfl := Phase.serving.inj (isServing.symm.trans isOther)
      rcases Connection.stepServing_cases isServing isStep with
        ⟨served, isPhase, -⟩ | ⟨closes, isPhase, -⟩ |
          ⟨-, isPolled, isWaits, noBody⟩ | isPhase
      · exact absurd (isPhase.symm.trans panics) nofun
      · exact absurd (isPhase.symm.trans panics) nofun
      · exact ⟨isPolled, (isWaiting noBody).symm.trans isWaits,
          isBody.mp noBody⟩
      · exact absurd (isPhase.symm.trans panics) nofun
    next =>
      contradiction
  · rintro ⟨rfl, expects, isEof⟩
    have noBody := isBody.mpr isEof
    have isWaits := (isWaiting noBody).trans expects
    simp only [Connection.step, isServing, Connection.stepServing, isWaits,
      noBody, Bool.not_false, Bool.and_self, if_true,
      Option.some.injEq] at isStep
    rw [← isStep]

/-- A request that expects a body, and announces none. -/
def expectHead : RawHead where
  method := "GET".toList
  path := "/".toList
  isVersion11 := true
  headers := [⟨"expect".toList, asciiBytes "100-continue"⟩]

def expectBytes : List UInt8 :=
  asciiBytes "GET / HTTP/1.1\r\nexpect: 100-continue\r\n\r\n"

/-- The request is taken. -/
def expectTaken : Connection where
  seen := expectBytes
  ctx := { expect := true }
  phase := .serving
    { raw := expectHead
      hasBody := false
      isWaiting := true
      decoder := .eof
      fed := [] }

theorem run_expect :
    StepRun.run? (Connection.step (Env.only expectBytes expectHead)) {}
        [.read expectBytes, .parse] =
      some expectTaken := by
  decide +kernel

theorem panics_of_run_expect :
    ({ expectTaken with phase := .panicked } : Connection).phase = .panicked ↔
      Label.handlerPolled = .handlerPolled ∧
        expectHead.expects = true ∧ expectHead.decoder? = some .eof :=
  panics_of_run run_expect rfl
    (show expectTaken.step (Env.only expectBytes expectHead) .handlerPolled =
      some { expectTaken with phase := .panicked } by rfl)

end Sweety.H1
