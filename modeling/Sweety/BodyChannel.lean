import Mathlib.Algebra.GroupWithZero.Nat
import Mathlib.Algebra.BigOperators.Group.List.Basic
import Sweety.StepRun

namespace Sweety.BodyChannel

/-!
# The channel of a request body

Model of the channel between the dispatcher of the HTTP/1 server and the body
of a request: the sender feeds data, the end or an error, and waits while too
much is buffered; the body takes what is there and else goes to sleep.  Each
side registers a waker and is woken by the other.  The channel is used by one
thread, so each call is one step, and the calls of both sides come in any order.
-/

/-- `MAX_BUFFER_SIZE`. -/
def maxBufferSize : Nat := 32768

/-- What the sender sends, and what the body receives. -/
inductive Event where
  | data (bytes : List UInt8)
  | eof
  /-- An `io::Error`, by its kind. -/
  | error (kind : String)
  deriving Repr, DecidableEq

/-- The bytes of some events, piece by piece. -/
def pieces : List Event → List (List UInt8)
  | [] =>
      []
  | .data bytes :: events =>
      bytes :: pieces events
  | _ :: events =>
      pieces events

/-- `Inner`; of a waker it counts whether there is one. -/
structure Inner where
  eof : Bool := false
  len : Nat := 0
  err : Option String := none
  items : List (List UInt8) := []
  task : Bool := false
  ioTask : Bool := false
  deriving Repr, DecidableEq

/-- A channel, its two sides, and what went through it. -/
structure Channel where
  inner : Inner := {}
  hasSender : Bool := true
  hasBody : Bool := true
  /-- The last poll of the body was pending, and nothing has woken it since. -/
  bodyAsleep : Bool := false
  /-- The same for `ready` and `wait_for_poll`. -/
  senderAsleep : Bool := false
  sent : List Event := []
  received : List Event := []
  deriving Repr, DecidableEq

inductive Call where
  | feedData (bytes : List UInt8)
  | feedEof
  | feedError (kind : String)
  | ready
  | waitForPoll
  | dropSender
  | pollNext
  | dropBody
  deriving Repr, DecidableEq

/-- What feeding an event changes, but for the waker. -/
def Inner.put (inner : Inner) : Event → Inner
  | .data bytes =>
      { inner with
        len := inner.len + bytes.length
        items := inner.items ++ [bytes] }
  | .eof =>
      { inner with eof := true }
  | .error kind =>
      { inner with err := some kind }

@[simp] theorem Inner.task_put (inner : Inner) (event : Event) :
    (inner.put event).task = inner.task := by
  cases event <;> rfl

@[simp] theorem Inner.ioTask_put (inner : Inner) (event : Event) :
    (inner.put event).ioTask = inner.ioTask := by
  cases event <;> rfl

/-- `backpressure`. -/
def Inner.backpressure (inner : Inner) : Bool :=
  decide (maxBufferSize ≤ inner.len)

namespace Channel

/-- `wake`. -/
def wake (channel : Channel) : Channel :=
  if channel.inner.task then
    { channel with
      inner := { channel.inner with task := false }
      bodyAsleep := false }
  else
    channel

/-- `wake_io`. -/
def wakeIo (channel : Channel) : Channel :=
  if channel.inner.ioTask then
    { channel with
      inner := { channel.inner with ioTask := false }
      senderAsleep := false }
  else
    channel

/-- `feed_data`, `feed_eof` and `feed_error` of `Inner`. -/
def feed (channel : Channel) (event : Event) : Channel :=
  { channel with
    inner := channel.inner.put event
    sent := channel.sent ++ [event] }.wake

/-- A feeding call of the sender: a body that was dropped gets nothing. -/
def feedIf (channel : Channel) (event : Event) : Channel :=
  if channel.hasBody then
    channel.feed event
  else
    channel

/-- `ready_with`. -/
def readyWith (channel : Channel) (func : Inner → Bool) : Channel :=
  if channel.hasBody && !func channel.inner then
    { channel with
      inner := { channel.inner with ioTask := true }
      senderAsleep := true }
  else
    { channel with senderAsleep := false }

/-- `poll_next_unpin`. -/
def pollNext (channel : Channel) : Channel :=
  match channel.inner.items with
  | data :: items =>
      { channel with
        inner := { channel.inner with
          len := channel.inner.len - data.length
          items := items }
        bodyAsleep := false
        received := channel.received ++ [.data data] }
  | [] =>
      match channel.inner.err with
      | some kind =>
          { channel with
            inner := { channel.inner with err := none }
            bodyAsleep := false
            received := channel.received ++ [.error kind] }
      | none =>
          if channel.inner.eof then
            { channel with
              bodyAsleep := false
              received := channel.received ++ [.eof] }
          else
            { channel with
              inner := { channel.inner with task := true }
              bodyAsleep := true }.wakeIo

/-- A call of either side, as long as the side is there. -/
def step (channel : Channel) : Call → Option Channel
  | .feedData bytes =>
      if channel.hasSender then some (channel.feedIf (.data bytes)) else none
  | .feedEof =>
      if channel.hasSender then some (channel.feedIf .eof) else none
  | .feedError kind =>
      if channel.hasSender then some (channel.feedIf (.error kind)) else none
  | .ready =>
      if channel.hasSender then
        some (channel.readyWith fun inner => !inner.backpressure)
      else
        none
  | .waitForPoll =>
      if channel.hasSender then
        some (channel.readyWith Inner.task)
      else
        none
  | .dropSender =>
      if channel.hasSender then
        let closed :=
          if channel.inner.eof then
            channel
          else
            channel.feedIf (.error "UnexpectedEof")
        some { closed with
          hasSender := false
          senderAsleep := false }
      else
        none
  | .pollNext =>
      if channel.hasBody then some channel.pollNext else none
  | .dropBody =>
      if channel.hasBody then
        some { channel with
          hasBody := false
          bodyAsleep := false }
      else
        none

end Channel

/-! ## What the body receives -/

/-- What was sent before the end. -/
def beforeEof (events : List Event) : List Event :=
  events.takeWhile (· ≠ .eof)

/-- What is received was sent, in its order, and what was not is buffered. -/
structure Channel.Sound (channel : Channel) : Prop where
  order :
    pieces channel.received ++ channel.inner.items = pieces channel.sent
  len : channel.inner.len = (channel.inner.items.map List.length).sum
  eof : channel.inner.eof = true ↔ .eof ∈ channel.sent
  err : ∀ kind, channel.inner.err = some kind → .error kind ∈ channel.sent
  errors : ∀ kind, .error kind ∈ channel.received → .error kind ∈ channel.sent
  /-- A body that was told the end has all that was sent before it. -/
  whole :
    .eof ∈ channel.received →
      .eof ∈ channel.sent ∧
        pieces (beforeEof channel.sent) <+: pieces channel.received

theorem pieces_append (first second : List Event) :
    pieces (first ++ second) = pieces first ++ pieces second := by
  induction first with
  | nil =>
      rfl
  | cons event first inductionHypothesis =>
      cases event with
      | data bytes =>
          exact congrArg (bytes :: ·) inductionHypothesis
      | eof =>
          exact inductionHypothesis
      | error kind =>
          exact inductionHypothesis

/-- The end, once sent, is not moved. -/
theorem beforeEof_append
    {events : List Event}
    (isEnded : .eof ∈ events)
    (more : List Event) :
    beforeEof (events ++ more) = beforeEof events := by
  induction events with
  | nil =>
      contradiction
  | cons event events inductionHypothesis =>
      by_cases isEof : event = .eof
      · simp [beforeEof, isEof]
      · have isLater : .eof ∈ events :=
          (List.mem_cons.mp isEnded).resolve_left fun same => isEof same.symm
        have isSame := inductionHypothesis isLater
        simp only [beforeEof] at isSame ⊢
        rw [List.cons_append, List.takeWhile_cons, List.takeWhile_cons, isSame]

/-- What was sent before the end was sent. -/
theorem pieces_beforeEof (events : List Event) :
    pieces (beforeEof events) <+: pieces events := by
  refine ⟨pieces (events.dropWhile (· ≠ .eof)), ?_⟩
  rw [← pieces_append, beforeEof, List.takeWhile_append_dropWhile]

namespace Channel

variable {channel next : Channel}

/-- Two channels that differ in wakers, tasks and sides only. -/
structure SameData (channel next : Channel) : Prop where
  sent : next.sent = channel.sent
  received : next.received = channel.received
  items : next.inner.items = channel.inner.items
  len : next.inner.len = channel.inner.len
  eof : next.inner.eof = channel.inner.eof
  err : next.inner.err = channel.inner.err

theorem Sound.of_sameData
    (sound : channel.Sound)
    (same : channel.SameData next) :
    next.Sound where
  order := by
    rw [same.sent, same.received, same.items]
    exact sound.order
  len := by
    rw [same.len, same.items]
    exact sound.len
  eof := by
    rw [same.eof, same.sent]
    exact sound.eof
  err := by
    rw [same.err, same.sent]
    exact sound.err
  errors := by
    rw [same.received, same.sent]
    exact sound.errors
  whole := by
    rw [same.received, same.sent]
    exact sound.whole

theorem sameData_wake (channel : Channel) : channel.SameData channel.wake := by
  unfold wake
  split_ifs <;> exact ⟨rfl, rfl, rfl, rfl, rfl, rfl⟩

theorem sameData_wakeIo (channel : Channel) :
    channel.SameData channel.wakeIo := by
  unfold wakeIo
  split_ifs <;> exact ⟨rfl, rfl, rfl, rfl, rfl, rfl⟩

theorem sameData_readyWith (channel : Channel) (func : Inner → Bool) :
    channel.SameData (channel.readyWith func) := by
  unfold readyWith
  split_ifs <;> exact ⟨rfl, rfl, rfl, rfl, rfl, rfl⟩

/-- What was said of the events that were sent stays true of more. -/
theorem whole_append
    (sound : channel.Sound)
    (event : Event) :
    .eof ∈ channel.received →
      .eof ∈ channel.sent ++ [event] ∧
        pieces (beforeEof (channel.sent ++ [event])) <+:
          pieces channel.received := by
  intro isReceived
  obtain ⟨isSent, isWhole⟩ := sound.whole isReceived
  rw [beforeEof_append isSent]
  exact ⟨List.mem_append_left _ isSent, isWhole⟩

theorem Sound.feed
    (sound : channel.Sound)
    (event : Event) :
    (channel.feed event).Sound := by
  refine Sound.of_sameData ?_ (sameData_wake _)
  have isWhole := whole_append sound event
  have areErrors : ∀ kind, .error kind ∈ channel.received →
      .error kind ∈ channel.sent ++ [event] :=
    fun kind isReceived =>
      List.mem_append_left _ (sound.errors kind isReceived)
  have isErr : ∀ kind, channel.inner.err = some kind →
      .error kind ∈ channel.sent ++ [event] :=
    fun kind hasErr => List.mem_append_left _ (sound.err kind hasErr)
  cases event with
  | data bytes =>
      refine ⟨?_, ?_, ?_, isErr, areErrors, isWhole⟩
      · dsimp only [Inner.put]
        rw [← List.append_assoc, sound.order, pieces_append]
        rfl
      · simp [Inner.put, sound.len]
      · simp [Inner.put, sound.eof]
  | eof =>
      refine ⟨?_, sound.len, ?_, isErr, areErrors, isWhole⟩
      · dsimp only [Inner.put]
        rw [sound.order, pieces_append]
        exact (List.append_nil _).symm
      · simp [Inner.put]
  | error kind =>
      refine ⟨?_, sound.len, ?_, ?_, areErrors, isWhole⟩
      · dsimp only [Inner.put]
        rw [sound.order, pieces_append]
        exact (List.append_nil _).symm
      · simp [Inner.put, sound.eof]
      · simp only [Inner.put, Option.some.injEq, List.mem_append, List.mem_singleton,
          Event.error.injEq]
        exact fun other isKind => .inr isKind.symm

theorem Sound.feedIf
    (sound : channel.Sound)
    (event : Event) :
    (channel.feedIf event).Sound := by
  unfold Channel.feedIf
  split_ifs
  · exact sound.feed event
  · exact sound

theorem Sound.pollNext (sound : channel.Sound) : channel.pollNext.Sound := by
  unfold Channel.pollNext
  split
  next data items isItems =>
    have isOrder := sound.order
    have isLen := sound.len
    rw [isItems] at isOrder isLen
    refine ⟨?_, ?_, sound.eof, sound.err, ?_, ?_⟩
    · rw [pieces_append, List.append_assoc]
      exact isOrder
    · dsimp only
      rw [isLen]
      simp
    · simpa using sound.errors
    · simp only [List.mem_append, List.mem_singleton, reduceCtorEq, or_false]
      intro isReceived
      obtain ⟨isSent, isWhole⟩ := sound.whole isReceived
      rw [pieces_append]
      exact ⟨isSent, isWhole.trans (List.prefix_append _ _)⟩
  next isEmpty =>
    have isOrder := sound.order
    rw [isEmpty, List.append_nil] at isOrder
    split
    next kind hasErr =>
      refine ⟨?_, sound.len, sound.eof, nofun, ?_, ?_⟩
      · rw [pieces_append, isEmpty]
        simpa [pieces] using isOrder
      · simp only [List.mem_append, List.mem_singleton, Event.error.injEq]
        rintro other (isReceived | rfl)
        · exact sound.errors other isReceived
        · exact sound.err other hasErr
      · simp only [List.mem_append, List.mem_singleton, reduceCtorEq, or_false]
        intro isReceived
        rw [pieces_append]
        exact ⟨(sound.whole isReceived).1,
          (sound.whole isReceived).2.trans (List.prefix_append _ _)⟩
    next =>
      split_ifs with isEof
      · have isAll :
            pieces (channel.received ++ [.eof]) = pieces channel.sent := by
          rw [pieces_append, ← isOrder]
          exact List.append_nil _
        refine ⟨?_, sound.len, sound.eof, sound.err, ?_, fun _ => ?_⟩
        · rw [isAll, isEmpty, List.append_nil]
        · simpa using sound.errors
        · rw [isAll]
          exact ⟨sound.eof.mp isEof, pieces_beforeEof channel.sent⟩
      · refine Sound.of_sameData ?_ (sameData_wakeIo _)
        exact sound.of_sameData ⟨rfl, rfl, rfl, rfl, rfl, rfl⟩

theorem Sound.step
    {call : Call}
    (sound : channel.Sound)
    (isStep : channel.step call = some next) :
    next.Sound := by
  cases call with
  | feedData bytes =>
      simp only [Channel.step, Option.ite_none_right_eq_some,
        Option.some.injEq] at isStep
      exact isStep.2 ▸ sound.feedIf (.data bytes)
  | feedEof =>
      simp only [Channel.step, Option.ite_none_right_eq_some,
        Option.some.injEq] at isStep
      exact isStep.2 ▸ sound.feedIf .eof
  | feedError kind =>
      simp only [Channel.step, Option.ite_none_right_eq_some,
        Option.some.injEq] at isStep
      exact isStep.2 ▸ sound.feedIf (.error kind)
  | ready =>
      simp only [Channel.step, Option.ite_none_right_eq_some,
        Option.some.injEq] at isStep
      exact isStep.2 ▸ sound.of_sameData (sameData_readyWith channel _)
  | waitForPoll =>
      simp only [Channel.step, Option.ite_none_right_eq_some,
        Option.some.injEq] at isStep
      exact isStep.2 ▸ sound.of_sameData (sameData_readyWith channel _)
  | dropSender =>
      simp only [Channel.step, Option.ite_none_right_eq_some,
        Option.some.injEq] at isStep
      obtain ⟨-, rfl⟩ := isStep
      have isClosed :
          (if channel.inner.eof then channel
            else channel.feedIf (.error "UnexpectedEof")).Sound := by
        split_ifs
        · exact sound
        · exact sound.feedIf (.error "UnexpectedEof")
      exact isClosed.of_sameData ⟨rfl, rfl, rfl, rfl, rfl, rfl⟩
  | pollNext =>
      simp only [Channel.step, Option.ite_none_right_eq_some,
        Option.some.injEq] at isStep
      exact isStep.2 ▸ sound.pollNext
  | dropBody =>
      simp only [Channel.step, Option.ite_none_right_eq_some,
        Option.some.injEq] at isStep
      obtain ⟨-, rfl⟩ := isStep
      exact sound.of_sameData ⟨rfl, rfl, rfl, rfl, rfl, rfl⟩

end Channel

variable
  {calls : List Call}
  {final : Channel}

theorem sound_start : ({} : Channel).Sound := by
  constructor <;> simp [pieces]

/--
However the calls of both sides come, the body receives the data in the order
in which it was sent, none lost or twice; the account of what is buffered is
right; it gets no error that was not sent; and it is told of the end only once
it has all the data from before the end.
-/
theorem sound_of_run
    (isRun : StepRun.run? Channel.step {} calls = some final) :
    final.Sound :=
  StepRun.invariant_of_run Channel.Sound.step sound_start isRun

/-- A body of two pieces, received while it is sent, and a sender that waits. -/
theorem sound_of_run_two :
    ({ inner := { eof := true }
       hasSender := false
       sent := [.data [1], .data [2], .eof]
       received := [.data [1], .data [2], .eof] } : Channel).Sound :=
  sound_of_run (show StepRun.run? Channel.step {}
    [.pollNext, .feedData [1], .ready, .pollNext, .feedData [2], .feedEof, .pollNext,
      .dropSender, .pollNext] = some _ by decide)

/-! ## Who sleeps, and who wakes -/

/-- A side that sleeps has nothing to do, and the other can wake it. -/
structure Channel.Awake (channel : Channel) : Prop where
  body :
    channel.bodyAsleep = true →
      channel.inner.task = true ∧ channel.inner.items = [] ∧
        channel.inner.err = none ∧ channel.inner.eof = false
  sender : channel.senderAsleep = true → channel.inner.ioTask = true
  apart :
    channel.hasBody = true →
      ¬(channel.bodyAsleep = true ∧ channel.senderAsleep = true)
  gone : channel.hasBody = false → channel.bodyAsleep = false
  dropped :
    channel.hasSender = false → channel.hasBody = true →
      channel.inner.eof = true ∨ channel.inner.err ≠ none ∨
        ∃ kind, .error kind ∈ channel.received

namespace Channel

variable {channel next : Channel}

/-- Whoever feeds the body wakes it. -/
theorem Awake.feed
    (awake : channel.Awake)
    (event : Event) :
    (channel.feed event).Awake ∧ (channel.feed event).bodyAsleep = false := by
  have notAsleep : (channel.feed event).bodyAsleep = false := by
    unfold Channel.feed wake
    split_ifs with hasTask
    · rfl
    · by_contra isAsleep
      rw [Inner.task_put] at hasTask
      exact hasTask (awake.body (by simpa using isAsleep)).1
  have isSame :
      (channel.feed event).inner.ioTask = channel.inner.ioTask ∧
        (channel.feed event).senderAsleep = channel.senderAsleep ∧
          (channel.feed event).hasSender = channel.hasSender ∧
            (channel.feed event).hasBody = channel.hasBody ∧
              (channel.feed event).received = channel.received := by
    unfold Channel.feed wake
    split_ifs <;> simp
  obtain ⟨isIoTask, isSender, hasSender, hasBody, isReceived⟩ := isSame
  have isEnd :
      (channel.inner.eof = true → (channel.feed event).inner.eof = true) ∧
        (channel.inner.err ≠ none → (channel.feed event).inner.err ≠ none) := by
    unfold Channel.feed wake
    cases event <;> split_ifs <;> simp [Inner.put]
  refine ⟨⟨?_, ?_, ?_, fun _ => notAsleep, ?_⟩, notAsleep⟩
  · simp [notAsleep]
  · rw [isSender, isIoTask]
    exact awake.sender
  · simp [notAsleep]
  · rw [hasSender, hasBody, isReceived]
    intro noSender stillBody
    rcases awake.dropped noSender stillBody with isEof | hasErr | isTold
    · exact .inl (isEnd.1 isEof)
    · exact .inr (.inl (isEnd.2 hasErr))
    · exact .inr (.inr isTold)

theorem Awake.feedIf
    (awake : channel.Awake)
    (event : Event) :
    (channel.feedIf event).Awake := by
  unfold Channel.feedIf
  split_ifs
  · exact (awake.feed event).1
  · exact awake

/-- A sender that goes to sleep leaves something to the body. -/
theorem Awake.readyWith
    (awake : channel.Awake)
    {func : Inner → Bool}
    (isReady : channel.bodyAsleep = true → func channel.inner = true) :
    (channel.readyWith func).Awake := by
  unfold Channel.readyWith
  split_ifs with isPending
  · simp only [Bool.and_eq_true, Bool.not_eq_true'] at isPending
    refine ⟨awake.body, fun _ => rfl, ?_, awake.gone, awake.dropped⟩
    rintro - ⟨isAsleep, -⟩
    rw [isReady isAsleep] at isPending
    exact absurd isPending.2 nofun
  · exact ⟨awake.body, nofun, by simp, awake.gone, awake.dropped⟩

/-- A body that goes to sleep wakes the sender. -/
theorem Awake.pollNext
    (awake : channel.Awake)
    (hasBody : channel.hasBody = true) :
    channel.pollNext.Awake := by
  have notGone : channel.hasBody = false → False := by
    simp [hasBody]
  unfold Channel.pollNext
  split
  next data items isItems =>
    refine ⟨nofun, awake.sender, by simp, fun _ => rfl, ?_⟩
    intro noSender _
    rcases awake.dropped noSender hasBody with isEof | hasErr | ⟨kind, isTold⟩
    · exact .inl isEof
    · exact .inr (.inl hasErr)
    · exact .inr (.inr ⟨kind, List.mem_append_left _ isTold⟩)
  next isEmpty =>
    split
    next kind hasErr =>
      refine ⟨nofun, awake.sender, by simp, fun _ => rfl, fun _ _ => ?_⟩
      exact .inr (.inr ⟨kind, by simp⟩)
    next noErr =>
      split_ifs with isEof
      · exact ⟨nofun, awake.sender, by simp, fun _ => rfl,
          fun _ _ => .inl isEof⟩
      · have isNow : channel.inner.eof = false := by
          simpa using isEof
        unfold wakeIo
        dsimp only
        split_ifs with hasIoTask
        · exact ⟨fun _ => ⟨rfl, isEmpty, noErr, isNow⟩, nofun, by simp,
            fun noBody => (notGone noBody).elim, awake.dropped⟩
        · refine ⟨fun _ => ⟨rfl, isEmpty, noErr, isNow⟩, awake.sender, ?_,
            fun noBody => (notGone noBody).elim, awake.dropped⟩
          rintro - ⟨-, isAsleep⟩
          exact hasIoTask (awake.sender isAsleep)

/-- A sender that is dropped leaves an end or an error. -/
theorem Awake.dropSender
    (awake : channel.Awake)
    (isStep : channel.step .dropSender = some next) :
    next.Awake := by
  simp only [Channel.step, Option.ite_none_right_eq_some,
    Option.some.injEq] at isStep
  obtain ⟨-, rfl⟩ := isStep
  cases isEof : channel.inner.eof with
  | true =>
      exact ⟨awake.body, nofun, by simp, awake.gone, fun _ _ => .inl isEof⟩
  | false =>
      simp only [Bool.false_eq_true, if_false]
      cases hasBody : channel.hasBody with
      | true =>
          obtain ⟨isFed, notAsleep⟩ := awake.feed (.error "UnexpectedEof")
          have hasErr :
              (channel.feed (.error "UnexpectedEof")).inner.err ≠ none := by
            unfold Channel.feed wake
            split_ifs <;> simp [Inner.put]
          rw [Channel.feedIf, if_pos hasBody]
          exact ⟨isFed.body, nofun, by simp, isFed.gone,
            fun _ _ => .inr (.inl hasErr)⟩
      | false =>
          rw [Channel.feedIf, if_neg (by simp [hasBody])]
          refine ⟨awake.body, nofun, by simp, awake.gone, fun _ stillBody => ?_⟩
          rw [hasBody] at stillBody
          contradiction

theorem Awake.step
    {call : Call}
    (sound : channel.Sound)
    (awake : channel.Awake)
    (isStep : channel.step call = some next) :
    next.Awake := by
  cases call with
  | feedData bytes =>
      simp only [Channel.step, Option.ite_none_right_eq_some,
        Option.some.injEq] at isStep
      exact isStep.2 ▸ awake.feedIf (.data bytes)
  | feedEof =>
      simp only [Channel.step, Option.ite_none_right_eq_some,
        Option.some.injEq] at isStep
      exact isStep.2 ▸ awake.feedIf .eof
  | feedError kind =>
      simp only [Channel.step, Option.ite_none_right_eq_some,
        Option.some.injEq] at isStep
      exact isStep.2 ▸ awake.feedIf (.error kind)
  | ready =>
      simp only [Channel.step, Option.ite_none_right_eq_some,
        Option.some.injEq] at isStep
      refine isStep.2 ▸ awake.readyWith fun isAsleep => ?_
      have isEmpty := (awake.body isAsleep).2.1
      have noLen := sound.len
      rw [isEmpty] at noLen
      simp [Inner.backpressure, noLen, maxBufferSize]
  | waitForPoll =>
      simp only [Channel.step, Option.ite_none_right_eq_some,
        Option.some.injEq] at isStep
      exact isStep.2 ▸ awake.readyWith fun isAsleep => (awake.body isAsleep).1
  | dropSender =>
      exact awake.dropSender isStep
  | pollNext =>
      simp only [Channel.step, Option.ite_none_right_eq_some,
        Option.some.injEq] at isStep
      exact isStep.2 ▸ awake.pollNext isStep.1
  | dropBody =>
      simp only [Channel.step, Option.ite_none_right_eq_some,
        Option.some.injEq] at isStep
      obtain ⟨-, rfl⟩ := isStep
      exact ⟨nofun, awake.sender, nofun, fun _ => rfl, fun _ => nofun⟩

end Channel

/-- What every call keeps. -/
def Channel.Kept (channel : Channel) : Prop :=
  channel.Sound ∧ channel.Awake

/--
However the calls come, no wake-up is lost: a body that sleeps has nothing to
receive, its sender is awake, and is there unless the body was told of an error.
-/
theorem awake_of_run
    (isRun : StepRun.run? Channel.step {} calls = some final)
    (isAsleep : final.bodyAsleep = true) :
    final.inner.items = [] ∧ final.inner.err = none ∧
      final.inner.eof = false ∧ final.senderAsleep = false ∧
        (final.hasSender = true ∨
          ∃ kind, .error kind ∈ final.received) := by
  have preserved : ∀ {before call after},
      Channel.Kept before →
      Channel.step before call = some after →
      Channel.Kept after :=
    fun ⟨sound, awake⟩ isStep => ⟨sound.step isStep, awake.step sound isStep⟩
  have start : ({} : Channel).Kept :=
    ⟨sound_start, nofun, nofun, by simp, nofun, nofun⟩
  obtain ⟨-, awake⟩ := StepRun.invariant_of_run preserved start isRun
  obtain ⟨-, isEmpty, noErr, noEof⟩ := awake.body isAsleep
  have hasBody : final.hasBody = true := by
    by_contra noBody
    have notAsleep := awake.gone (by simpa using noBody)
    rw [isAsleep] at notAsleep
    contradiction
  refine ⟨isEmpty, noErr, noEof, ?_, ?_⟩
  · by_contra senderAsleep
    exact awake.apart hasBody ⟨isAsleep, by simpa using senderAsleep⟩
  · by_contra neither
    obtain ⟨noSender, notTold⟩ := not_or.mp neither
    rcases awake.dropped (by simpa using noSender) hasBody with
      isEof | hasErr | isTold
    · rw [noEof] at isEof
      contradiction
    · exact hasErr noErr
    · exact notTold isTold

/-- The sender waited for the body, which has polled and sleeps in its turn. -/
def polledChannel : Channel where
  inner := { task := true }
  bodyAsleep := true

theorem awake_of_run_polled :
    polledChannel.inner.items = [] ∧ polledChannel.inner.err = none ∧
      polledChannel.inner.eof = false ∧ polledChannel.senderAsleep = false ∧
        (polledChannel.hasSender = true ∨
          ∃ kind, .error kind ∈ polledChannel.received) :=
  awake_of_run
    (show StepRun.run? Channel.step {} [.waitForPoll, .pollNext] =
      some polledChannel by decide) rfl

end Sweety.BodyChannel
