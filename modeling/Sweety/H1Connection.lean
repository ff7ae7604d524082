import Sweety.CodingCuts
import Sweety.RequestFraming
import Sweety.StepRun

namespace Sweety.H1

/-!
# A connection of the HTTP/1 server

Model of `Dispatcher::run` of the HTTP core: a connection reads, takes heads off
its read buffer, calls the service for each and feeds it the body meanwhile,
and writes the response.  The environment chooses what each read brings, when
the handler of the body runs, what the service does with the body and when it
answers.  The parser of the heads is a third-party package and a parameter, and
so is what counts as a method and a path.
-/

/-- What the parser of heads returns. -/
inductive Parsed where
  | complete (raw : RawHead) (len : Nat)
  | incomplete
  | error
  deriving DecidableEq

/-- A request that was answered: its head, and what was fed of its body. -/
structure Request where
  raw : RawHead
  fed : List FedItem
  deriving DecidableEq

/-- A request that is being served. -/
structure Serving where
  raw : RawHead
  /-- The body of the request is a channel, and not `None`. -/
  hasBody : Bool
  /-- The handler waits for the service to poll the body. -/
  isWaiting : Bool
  decoder : TransferCoding
  fed : List FedItem
  deriving DecidableEq

/-- Where the dispatcher is. -/
inductive Phase where
  /-- At the read of `_run`. -/
  | idle
  /-- In front of `decode_head`. -/
  | parsing
  | serving (serving : Serving)
  | closed
  | panicked
  deriving DecidableEq

/-- A connection, with all that it has read and answered. -/
structure Connection where
  seen : List UInt8 := []
  buf : List UInt8 := []
  ctx : ContextState := {}
  phase : Phase := .idle
  done : List Request := []
  deriving DecidableEq

/-- What happens at a connection. -/
inductive Label where
  | read (segment : List UInt8)
  | parse
  /-- The handler of the body runs for the first time. -/
  | handlerPolled
  /-- The service polls, or drops, the body that the handler waits for. -/
  | bodyPolled (isDropped : Bool)
  /-- The handler runs; `isDropped` if the service has dropped the body. -/
  | feed (isDropped : Bool)
  | readBody (segment : List UInt8)
  /-- The response was written; `closes` if its headers close. -/
  | respond (closes : Bool)
  /-- A timeout, or an error of the socket or of the service. -/
  | fail
  deriving DecidableEq

/-- The parser, what is valid in a head, and the limit of the read buffer. -/
structure Env where
  parse : List UInt8 → Parsed
  isValid : RawHead → Bool
  readBufLimit : Nat

namespace Connection

variable (env : Env)

/-- `decode_head`, and what the loop of `_run` makes of it. -/
def takeHead (connection : Connection) : Connection :=
  match env.parse connection.buf with
  | .complete raw len =>
      if env.isValid raw then
        match decodeParsed connection.ctx raw with
        | .ok (ctx, decoder) =>
            { connection with
              buf := connection.buf.drop len
              ctx := ctx
              phase := .serving
                { raw := raw
                  hasBody := decoder ≠ .eof
                  isWaiting := ctx.expect
                  decoder := decoder
                  fed := [] } }
        | .error _ =>
            { connection with phase := .closed }
      else
        { connection with phase := .closed }
  | .incomplete =>
      if env.readBufLimit ≤ connection.buf.length then
        { connection with phase := .closed }
      else if connection.ctx.close then
        { connection with phase := .closed }
      else
        { connection with phase := .idle }
  | .error =>
      { connection with phase := .closed }

/-- `ready`, with the result of `tx.ready()`. -/
def feedBody
    (connection : Connection)
    (serving : Serving)
    (isDropped : Bool) :
    Option (Connection × Serving) := do
  let (fed, next, rest) ← H1.feed serving.decoder connection.buf
  return ({ connection with buf := rest },
    { serving with
      decoder := if isDropped && next != .eof then .corrupted else next
      fed := serving.fed ++ fed.flatMap Fed.items })

/-- A step while a request is served. -/
def stepServing (connection : Connection) (serving : Serving) :
    Label → Option Connection
  | .handlerPolled =>
      if serving.isWaiting && !serving.hasBody then
        -- `try_inner_infallible` of a body that is `None`
        some { connection with phase := .panicked }
      else
        some connection
  | .bodyPolled isDropped =>
      if serving.isWaiting && serving.hasBody then
        some { connection with
          phase := .serving
            { serving with
              isWaiting := false
              decoder := if isDropped then .corrupted else serving.decoder } }
      else
        none
  | .feed isDropped =>
      if serving.isWaiting then
        none
      else do
        let (later, served) ← connection.feedBody serving isDropped
        return { later with phase := .serving served }
  | .readBody segment =>
      if serving.isWaiting then
        none
      else do
        let (later, served) ← connection.feedBody serving false
        if served.decoder = .eof ∨ served.decoder = .corrupted then
          none
        else
          return { later with
            seen := later.seen ++ segment
            buf := later.buf ++ segment
            phase := .serving served }
  | .respond closes =>
      if serving.decoder = .eof then
        some { connection with
          ctx := { connection.ctx with
            close := connection.ctx.close || closes }
          phase := .parsing
          done := connection.done ++ [⟨serving.raw, serving.fed⟩] }
      else
        some { connection with phase := .closed }
  | _ =>
      none

/-- A step of a connection. -/
def step (connection : Connection) (label : Label) : Option Connection :=
  match connection.phase, label with
  | _, .fail =>
      some { connection with phase := .closed }
  | .idle, .read segment =>
      some { connection with
        seen := connection.seen ++ segment
        buf := connection.buf ++ segment
        phase := .parsing }
  | .parsing, .parse =>
      some (connection.takeHead env)
  | .serving serving, label =>
      connection.stepServing serving label
  | _, _ =>
      none

end Connection

/-! ## The requests of a stream -/

/-- The decoder of a request. -/
def RawHead.decoder? (raw : RawHead) : Option TransferCoding :=
  match decodeParsed {} raw with
  | .ok (_, decoder) =>
      some decoder
  | .error _ =>
      none

/-- The first request of a stream, with a body that ends, and what follows. -/
def nextRequest (env : Env) (stream : List UInt8) :
    Option (Request × List UInt8) :=
  match env.parse stream with
  | .complete raw len =>
      match raw.decoder? with
      | some decoder =>
          let body := TransferCoding.byteMachine.run decoder (stream.drop len)
          if env.isValid raw ∧ body.state = .eof then
            some (⟨raw, body.out⟩, body.rest)
          else
            none
      | none =>
          none
  | _ =>
      none

/-- So many requests at the beginning of a stream, and what follows them. -/
def takeRequests (env : Env) (stream : List UInt8) :
    Nat → Option (List Request × List UInt8)
  | 0 =>
      some ([], stream)
  | count + 1 => do
      let (requests, rest) ← takeRequests env stream count
      let (request, later) ← nextRequest env rest
      return (requests ++ [request], later)

/-! ## What a connection has answered -/

/-- The decoder of a request waits for bytes, or there is no body. -/
theorem awaiting_of_decodeParsed
    {state final : ContextState}
    {raw : RawHead}
    {coding : TransferCoding}
    (isDecoded : decodeParsed state raw = .ok (final, coding)) :
    coding.Awaiting := by
  obtain ⟨codings, areAnnounced, frames⟩ :=
    (decodeParsed_framing state raw coding).1.mp ⟨final, isDecoded⟩
  have ofMem : coding ∈ raw.announced ++ bearing codings →
      coding.Awaiting := by
    intro isCoding
    rcases List.mem_append.mp isCoding with isMem | isMem
    · unfold RawHead.announced at isMem
      split_ifs at isMem
      · obtain rfl := List.mem_singleton.mp isMem
        exact ⟨trivial, rfl⟩
      · contradiction
    · obtain ⟨isMem, isBearing⟩ := List.mem_filter.mp isMem
      rcases isAnnounced_of_announcedAll? areAnnounced coding isMem with
        rfl | rfl | ⟨len, rfl⟩
      · exact ⟨trivial, rfl⟩
      · exact ⟨trivial, rfl⟩
      · cases len with
        | zero =>
            contradiction
        | succ len =>
            exact ⟨trivial, rfl⟩
  rcases frames with ⟨-, rfl⟩ | isSingle | ⟨rfl, -, -⟩
  · exact ⟨trivial, rfl⟩
  · exact ofMem (isSingle ▸ List.mem_singleton_self coding)
  · exact ⟨trivial, rfl⟩

/-- The decoder of a request does not depend on the requests before it. -/
theorem decoder?_of_decodeParsed
    {state final : ContextState}
    {raw : RawHead}
    {coding : TransferCoding}
    (isDecoded : decodeParsed state raw = .ok (final, coding)) :
    raw.decoder? = some coding := by
  have isFraming := (decodeParsed_framing state raw coding).1.mp
    ⟨final, isDecoded⟩
  obtain ⟨fresh, isFresh⟩ := (decodeParsed_framing {} raw coding).1.mpr isFraming
  rw [RawHead.decoder?, isFresh]

/--
What the parser of heads is relied on for: a head is within the buffer, and
what follows it does not change it.
-/
structure Env.ReadsHeads (env : Env) : Prop where
  within : ∀ {buf raw len}, env.parse buf = .complete raw len →
    len ≤ buf.length
  stable : ∀ {buf raw len}, env.parse buf = .complete raw len →
    ∀ more, env.parse (buf ++ more) = .complete raw len

variable {env : Env}

/-- A request under way: its head, and what was decoded of its body. -/
structure Serving.IsAt
    (env : Env)
    (rest buf : List UInt8)
    (serving : Serving)
    (len : Nat)
    (start : TransferCoding) :
    Prop where
  head : env.parse rest = .complete serving.raw len
  isValid : env.isValid serving.raw = true
  decoder : serving.raw.decoder? = some start
  within : len ≤ rest.length
  awaiting : serving.decoder.Awaiting
  body : serving.decoder = .corrupted ∨
    TransferCoding.byteMachine.run start (rest.drop len) =
      (TransferCoding.byteMachine.run serving.decoder buf).after serving.fed

/-- The requests that were answered are those of the stream. -/
structure Connection.Follows
    (env : Env)
    (connection : Connection)
    (rest : List UInt8) :
    Prop where
  answered : ∀ more,
    takeRequests env (connection.seen ++ more) connection.done.length =
      some (connection.done, rest ++ more)
  phase :
    match connection.phase with
    | .idle | .parsing =>
        rest = connection.buf
    | .serving serving =>
        ∃ len start, serving.IsAt env rest connection.buf len start
    | .closed | .panicked =>
        True

section Steps

variable
  (readsHeads : env.ReadsHeads)
  {connection next : Connection}
  {rest : List UInt8}

open TransferCoding (byteMachine)

include readsHeads in
/-- More bytes behind a request under way. -/
theorem Serving.IsAt.append
    {serving : Serving}
    {buf : List UInt8}
    {len : Nat}
    {start : TransferCoding}
    (isAt : serving.IsAt env rest buf len start)
    (more : List UInt8) :
    serving.IsAt env (rest ++ more) (buf ++ more) len start where
  head := readsHeads.stable isAt.head more
  isValid := isAt.isValid
  decoder := isAt.decoder
  within := by
    rw [List.length_append]
    exact Nat.le_add_right_of_le isAt.within
  awaiting := isAt.awaiting
  body := by
    rcases isAt.body with isCorrupted | isBody
    · exact .inl isCorrupted
    · right
      rw [List.drop_append_of_le_length isAt.within,
        ItemMachine.run_append, isBody, ItemMachine.run_append]
      simp

/-- The handler feeds what the bytes of the buffer make. -/
theorem Connection.feedBody_eq
    {serving : Serving}
    (isAwaiting : serving.decoder.Awaiting)
    (connection : Connection)
    (isDropped : Bool) :
    connection.feedBody serving isDropped =
      let made := byteMachine.run serving.decoder connection.buf
      some ({ connection with buf := made.rest },
        { serving with
          decoder :=
            if isDropped && made.state != .eof then .corrupted else made.state
          fed := serving.fed ++ made.out }) := by
  obtain ⟨fed, final, left, isFed, -, isBytewise⟩ :=
    feed_eq isAwaiting.1 connection.buf
  rw [isAwaiting.bytewise_eq] at isBytewise
  simp [Connection.feedBody, isFed, isBytewise]

/-- The handler of the body decodes what the buffer holds. -/
theorem Serving.IsAt.feedBody
    {serving served : Serving}
    {later : Connection}
    {isDropped : Bool}
    {len : Nat}
    {start : TransferCoding}
    (isAt : serving.IsAt env rest connection.buf len start)
    (isFed : connection.feedBody serving isDropped = some (later, served)) :
    later = { connection with buf := later.buf } ∧
      served.IsAt env rest later.buf len start := by
  obtain ⟨fed, final, left, isFeed, -, -⟩ :=
    feed_eq isAt.awaiting.1 connection.buf
  obtain ⟨isAwaiting, isBytewise⟩ := awaiting_of_feed isAt.awaiting.1 isFeed
  rw [isAt.awaiting.bytewise_eq] at isBytewise
  simp only [Connection.feedBody_eq isAt.awaiting, isBytewise,
    Option.some.injEq, Prod.mk.injEq] at isFed
  obtain ⟨rfl, rfl⟩ := isFed
  refine ⟨rfl, isAt.head, isAt.isValid, isAt.decoder, isAt.within, ?_, ?_⟩
  · dsimp only
    split_ifs
    · exact ⟨trivial, rfl⟩
    · exact isAwaiting
  · dsimp only
    split_ifs with drops
    · exact .inl rfl
    · rcases isAt.body with isCorrupted | isBody
      · left
        rw [isCorrupted, ItemMachine.run_of_stopped rfl] at isBytewise
        exact (congrArg ItemMachine.Outcome.state isBytewise).symm
      · right
        have isSettled : byteMachine.run _ _ = ⟨[], _, _⟩ :=
          ItemMachine.run_run serving.decoder connection.buf
        rw [isBytewise] at isSettled
        rw [isBody, isBytewise, isSettled]
        simp [ItemMachine.Outcome.after]

/-- A request whose body has ended is the next of the stream. -/
theorem Serving.IsAt.nextRequest
    {serving : Serving}
    {buf : List UInt8}
    {len : Nat}
    {start : TransferCoding}
    (isAt : serving.IsAt env rest buf len start)
    (isEnded : serving.decoder = .eof) :
    H1.nextRequest env rest = some (⟨serving.raw, serving.fed⟩, buf) := by
  have isBody :
      byteMachine.run start (rest.drop len) = ⟨serving.fed, .eof, buf⟩ := by
    rcases isAt.body with isCorrupted | isBody
    · rw [isEnded] at isCorrupted
      contradiction
    · rw [isBody, isEnded, ItemMachine.run_of_stopped rfl]
      simp [ItemMachine.Outcome.after]
  simp [H1.nextRequest, isAt.head, isAt.decoder, isAt.isValid, isBody]

/-- In front of a head: nothing, or a request begins. -/
theorem Connection.Follows.takeHead
    (readsHeads : env.ReadsHeads)
    {connection : Connection}
    {rest : List UInt8}
    (follows : connection.Follows env rest)
    (isParsing : connection.phase = .parsing) :
    (connection.takeHead env).Follows env rest := by
  obtain ⟨answered, phase⟩ := follows
  rw [isParsing] at phase
  obtain rfl : rest = connection.buf := phase
  unfold Connection.takeHead
  split
  next raw len isParsed =>
    split_ifs with isValid
    · split
      next ctx decoder isDecoded =>
        refine ⟨answered, len, decoder, isParsed, isValid,
          decoder?_of_decodeParsed isDecoded, readsHeads.within isParsed,
          awaiting_of_decodeParsed isDecoded, .inr ?_⟩
        rfl
      next =>
        exact ⟨answered, trivial⟩
    · exact ⟨answered, trivial⟩
  next =>
    split_ifs
    · exact ⟨answered, trivial⟩
    · exact ⟨answered, trivial⟩
    · exact ⟨answered, rfl⟩
  next =>
    exact ⟨answered, trivial⟩

include readsHeads in
/-- Steps while a request is served go on with the requests of the stream. -/
theorem Connection.Follows.stepServing
    {label : Label}
    {serving : Serving}
    (follows : connection.Follows env rest)
    (isServing : connection.phase = .serving serving)
    (isStep : connection.stepServing serving label = some next) :
    ∃ rest, next.Follows env rest := by
  have isAt := follows.phase
  rw [isServing] at isAt
  obtain ⟨len, start, isAt⟩ := isAt
  cases label with
  | read segment =>
      contradiction
  | parse =>
      contradiction
  | fail =>
      contradiction
  | handlerPolled =>
      simp only [Connection.stepServing] at isStep
      split_ifs at isStep
      · obtain rfl := Option.some.inj isStep
        exact ⟨rest, follows.answered, trivial⟩
      · obtain rfl := Option.some.inj isStep
        exact ⟨rest, follows⟩
  | bodyPolled isDropped =>
      simp only [Connection.stepServing, Option.ite_none_right_eq_some,
        Option.some.injEq] at isStep
      obtain ⟨-, rfl⟩ := isStep
      refine ⟨rest, follows.answered, len, start, ?_⟩
      cases isDropped with
      | true =>
          exact { isAt with
            awaiting := ⟨trivial, rfl⟩
            body := .inl rfl }
      | false =>
          exact { isAt with }
  | feed isDropped =>
      simp only [Connection.stepServing, Option.ite_none_left_eq_some,
        Option.bind_eq_bind, Option.bind_eq_some_iff, Option.pure_def,
        Option.some.injEq, Prod.exists] at isStep
      obtain ⟨-, later, served, isFed, rfl⟩ := isStep
      obtain ⟨isSame, isAt⟩ := isAt.feedBody isFed
      refine ⟨rest, ?_, len, start, isAt⟩
      rw [isSame]
      exact follows.answered
  | readBody segment =>
      simp only [Connection.stepServing, Option.ite_none_left_eq_some,
        Option.bind_eq_bind, Option.bind_eq_some_iff, Option.pure_def,
        Option.some.injEq, Prod.exists] at isStep
      obtain ⟨-, later, served, isFed, -, rfl⟩ := isStep
      obtain ⟨isSame, isAt⟩ := isAt.feedBody isFed
      refine ⟨rest ++ segment, fun more => ?_, len, start,
        isAt.append readsHeads segment⟩
      rw [isSame]
      dsimp only
      rw [List.append_assoc, List.append_assoc]
      exact follows.answered (segment ++ more)
  | respond closes =>
      simp only [Connection.stepServing] at isStep
      split_ifs at isStep with isEnded
      · obtain rfl := Option.some.inj isStep
        refine ⟨connection.buf, fun more => ?_, rfl⟩
        have isNext := (isAt.append readsHeads more).nextRequest isEnded
        simp [takeRequests, follows.answered more, isNext]
      · obtain rfl := Option.some.inj isStep
        exact ⟨rest, follows.answered, trivial⟩

include readsHeads in
/-- Each step goes on with the requests of the stream. -/
theorem Connection.Follows.step
    {label : Label}
    (follows : connection.Follows env rest)
    (isStep : connection.step env label = some next) :
    ∃ rest, next.Follows env rest := by
  unfold Connection.step at isStep
  split at isStep
  next =>
    obtain rfl := Option.some.inj isStep
    exact ⟨rest, follows.answered, trivial⟩
  next segment isIdle =>
    obtain rfl := Option.some.inj isStep
    obtain ⟨answered, phase⟩ := follows
    rw [isIdle] at phase
    obtain rfl : rest = connection.buf := phase
    refine ⟨connection.buf ++ segment, fun more => ?_, rfl⟩
    rw [List.append_assoc, List.append_assoc]
    exact answered (segment ++ more)
  next isParsing =>
    obtain rfl := Option.some.inj isStep
    exact ⟨rest, follows.takeHead readsHeads isParsing⟩
  next serving isServing _ =>
    exact follows.stepServing readsHeads isServing isStep
  next =>
    contradiction

end Steps

variable
  {labels : List Label}
  {final : Connection}

/-- The requests that were answered are those at the beginning of a stream. -/
def Connection.IsOnStream (env : Env) (connection : Connection) : Prop :=
  ∃ rest, connection.Follows env rest

theorem isOnStream_start (env : Env) : ({} : Connection).IsOnStream env :=
  ⟨[], fun _ => rfl, rfl⟩

/-- The invariant holds at the end of a run. -/
theorem isOnStream_of_run
    (readsHeads : env.ReadsHeads)
    (isRun : StepRun.run? (Connection.step env) {} labels = some final) :
    final.IsOnStream env := by
  have preserved : ∀ {before label after},
      Connection.IsOnStream env before →
      Connection.step env before label = some after →
      Connection.IsOnStream env after :=
    fun ⟨_, follows⟩ isStep => follows.step readsHeads isStep
  exact StepRun.invariant_of_run preserved (isOnStream_start env) isRun

/--
The requests that a connection has answered are the first requests of the bytes
it has read, each with its own body, whatever else it has read, however the
bytes were cut, and whatever the service did with the bodies.
-/
theorem answered_of_run
    (readsHeads : env.ReadsHeads)
    (isRun : StepRun.run? (Connection.step env) {} labels = some final) :
    ∃ rest, ∀ more,
      takeRequests env (final.seen ++ more) final.done.length =
        some (final.done, rest ++ more) := by
  obtain ⟨rest, follows⟩ := isOnStream_of_run readsHeads isRun
  exact ⟨rest, follows.answered⟩

/-- A parser that knows one head, for a client that sends no other. -/
def parseOnly (head : List UInt8) (raw : RawHead) (buf : List UInt8) : Parsed :=
  if head.isPrefixOf buf then
    .complete raw head.length
  else if buf.isPrefixOf head then
    .incomplete
  else
    .error

/-- A server that is asked with one head only. -/
def Env.only (head : List UInt8) (raw : RawHead) : Env where
  parse := parseOnly head raw
  isValid _ := true
  readBufLimit := 1024

theorem readsHeads_only (head : List UInt8) (raw : RawHead) :
    (Env.only head raw).ReadsHeads := by
  have isComplete : ∀ {buf found len},
      parseOnly head raw buf = .complete found len →
        head <+: buf ∧ found = raw ∧ len = head.length := by
    intro buf found len isParsed
    unfold parseOnly at isParsed
    split_ifs at isParsed with isHead
    simp only [Parsed.complete.injEq] at isParsed
    exact ⟨List.isPrefixOf_iff_prefix.mp isHead, isParsed.1.symm,
      isParsed.2.symm⟩
  constructor
  · intro buf found len isParsed
    obtain ⟨isHead, -, rfl⟩ := isComplete isParsed
    exact isHead.length_le
  · intro buf found len isParsed more
    obtain ⟨isHead, rfl, rfl⟩ := isComplete isParsed
    have isLonger : head <+: buf ++ more :=
      isHead.trans (List.prefix_append buf more)
    exact if_pos (List.isPrefixOf_iff_prefix.mpr isLonger)

/-- A request with a body of two bytes, as its head says. -/
def postHead : RawHead where
  method := "POST".toList
  path := "/".toList
  isVersion11 := true
  headers := [⟨"content-length".toList, asciiBytes "2"⟩]

def postBytes : List UInt8 :=
  asciiBytes "POST / HTTP/1.1\r\ncontent-length: 2\r\n\r\n"

/-- The request while it is served. -/
def postServing (decoder : TransferCoding) (fed : List FedItem) : Phase :=
  .serving
    { raw := postHead
      hasBody := true
      isWaiting := false
      decoder := decoder
      fed := fed }

/-- The request is taken, and one byte of its body is there. -/
def postTaken : Connection where
  seen := postBytes ++ asciiBytes "h"
  buf := asciiBytes "h"
  phase := postServing (.length 2) []

/-- The rest of the body is there, and another request right behind it. -/
def postRead : Connection where
  seen := postBytes ++ asciiBytes "hi" ++ postBytes
  buf := asciiBytes "i" ++ postBytes
  phase := postServing (.length 1) [.byte 104]

/-- The body has been fed. -/
def postFed : Connection where
  seen := postBytes ++ asciiBytes "hi" ++ postBytes
  buf := postBytes
  phase := postServing .eof [.byte 104, .byte 105, .eof]

/-- The other request is taken. -/
def postTwice : Connection where
  seen := postBytes ++ asciiBytes "hi" ++ postBytes
  buf := []
  phase := postServing (.length 2) []
  done := [⟨postHead, [.byte 104, .byte 105, .eof]⟩]

/-- A body that is cut, and another request right behind it. -/
def postLabels : List Label :=
  [.read (postBytes ++ asciiBytes "h"), .parse,
    .readBody (asciiBytes "i" ++ postBytes), .feed false, .respond false, .parse]

theorem run_postTaken :
    StepRun.run? (Connection.step (Env.only postBytes postHead)) {}
        [.read (postBytes ++ asciiBytes "h"), .parse] =
      some postTaken := by
  decide +kernel

theorem run_post :
    StepRun.run? (Connection.step (Env.only postBytes postHead)) {}
        postLabels =
      some postTwice := by
  have isRead :
      postTaken.step (Env.only postBytes postHead)
          (.readBody (asciiBytes "i" ++ postBytes)) =
        some postRead := by
    simp only [Connection.step, Connection.stepServing, postTaken, postServing]
    rw [Connection.feedBody_eq]
    · decide +kernel
    · exact ⟨trivial, rfl⟩
  have isFed :
      postRead.step (Env.only postBytes postHead) (.feed false) =
        some postFed := by
    simp only [Connection.step, Connection.stepServing, postRead, postServing]
    rw [Connection.feedBody_eq]
    · decide +kernel
    · exact ⟨trivial, rfl⟩
  have isTwice :
      StepRun.run? (Connection.step (Env.only postBytes postHead)) postFed
          [.respond false, .parse] =
        some postTwice := by
    decide +kernel
  calc
    StepRun.run? (Connection.step (Env.only postBytes postHead)) {} postLabels
      = StepRun.run? (Connection.step (Env.only postBytes postHead)) postTaken
          [.readBody (asciiBytes "i" ++ postBytes), .feed false, .respond false,
            .parse] :=
        StepRun.run?_append run_postTaken _
    _ = StepRun.run? (Connection.step (Env.only postBytes postHead)) postFed
          [.respond false, .parse] := by
        simp only [StepRun.run?, isRead, isFed]
    _ = some postTwice :=
        isTwice

theorem answered_of_run_post :
    ∃ rest, ∀ more,
      takeRequests (Env.only postBytes postHead) (postTwice.seen ++ more)
          postTwice.done.length =
        some (postTwice.done, rest ++ more) :=
  answered_of_run (readsHeads_only postBytes postHead) run_post

end Sweety.H1
