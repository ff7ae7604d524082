import Sweety.StepRun

namespace Sweety.ConnectionTimers

open StepRun

/-!
# The timers of a connection

Model of `KeepAlive` in `util/timer.rs`, of `Timer` in `h1/dispatcher.rs` and of
the waits of `Dispatcher::_run`, with instants as numbers.  An update of the
timer sets its deadline only; what the runtime wakes at stays, until it is
reached and found to be too early.  The instants that deadlines are counted from
come from a clock of low resolution.
-/

/-! ## The lazy timer -/

/-- `KeepAlive`: the instant of its `Sleep`, and the deadline. -/
structure KeepAlive where
  timer : Nat
  deadline : Nat
  deriving Repr, DecidableEq

namespace KeepAlive

/-- `update`. -/
def update (keepAlive : KeepAlive) (deadline : Nat) : KeepAlive :=
  { keepAlive with deadline := deadline }

/-- `reset`. -/
def reset (keepAlive : KeepAlive) : KeepAlive :=
  { keepAlive with timer := keepAlive.deadline }

/-- `is_expired`. -/
def isExpired (keepAlive : KeepAlive) : Bool :=
  keepAlive.deadline ≤ keepAlive.timer

/-- The poll of a timer that has been reset: its `Sleep` is at its deadline. -/
def pollReset (keepAlive : KeepAlive) (now : Nat) : Bool × KeepAlive :=
  (keepAlive.reset.timer ≤ now, keepAlive.reset)

/-- `poll`: whether the timer is ready. -/
def poll (keepAlive : KeepAlive) (now : Nat) : Bool × KeepAlive :=
  if keepAlive.timer ≤ now then
    if keepAlive.isExpired then
      (true, keepAlive)
    else
      keepAlive.pollReset now
  else
    (false, keepAlive)

variable
  {keepAlive : KeepAlive}
  {now : Nat}

/-- A timer is ready when both its `Sleep` and its deadline have passed. -/
theorem poll_fst :
    (keepAlive.poll now).1 =
      decide (max keepAlive.timer keepAlive.deadline ≤ now) := by
  unfold poll isExpired pollReset reset
  by_cases isFired : keepAlive.timer ≤ now
  · by_cases isLater : keepAlive.deadline ≤ keepAlive.timer
    · simp [isFired, isLater]
    · simp only [isFired, isLater, if_true, decide_false,
        Bool.false_eq_true, if_false, Nat.max_le, true_and]
  · simp only [isFired, if_false, Nat.max_le, false_and, decide_false]

/-- What a poll leaves of a timer. -/
theorem poll_snd :
    (keepAlive.poll now).2 =
      { keepAlive with
        timer :=
          if keepAlive.timer ≤ now ∧ keepAlive.timer < keepAlive.deadline then
            keepAlive.deadline
          else
            keepAlive.timer } := by
  unfold poll isExpired pollReset reset
  by_cases isFired : keepAlive.timer ≤ now
  · by_cases isLater : keepAlive.deadline ≤ keepAlive.timer
    · simp [isFired, isLater, Nat.not_lt.mpr isLater]
    · simp [isFired, isLater, Nat.not_le.mp isLater]
  · simp [isFired]

end KeepAlive

/-! ## The timer of an HTTP/1 connection -/

/-- `TimerState`. -/
inductive TimerState where
  | idle
  | wait
  | throttle
  deriving Repr, DecidableEq

/-- `Timer`. -/
structure Timer where
  timer : KeepAlive
  state : TimerState
  kaDur : Nat
  reqDur : Nat
  deriving Repr, DecidableEq

/-- The errors of `map_to_err`. -/
inductive Expiry where
  | keepAliveExpire
  | requestTimeout
  deriving Repr, DecidableEq

namespace Timer

/-- `Timer::update`. -/
def update (timer : Timer) (now : Nat) : Timer :=
  match timer.state with
  | .idle =>
      { timer with
        state := .wait
        timer := timer.timer.update (now + timer.kaDur) }
  | .wait =>
      { timer with
        state := .throttle
        timer := timer.timer.update (now + timer.reqDur) }
  | .throttle =>
      timer

/-- `reset_state`. -/
def resetState (timer : Timer) : Timer :=
  { timer with state := .idle }

/-- `map_to_err`; `none` is `unreachable!`. -/
def mapToErr (timer : Timer) : Option Expiry :=
  match timer.state with
  | .wait =>
      some .keepAliveExpire
  | .throttle =>
      some .requestTimeout
  | .idle =>
      none

end Timer

/-- Where the dispatcher is. -/
inductive Phase where
  /-- Outside of a read. -/
  | working
  | reading
  | expired (expiry : Option Expiry)
  deriving Repr, DecidableEq

/-- A connection, with the instants that its deadlines were counted from. -/
structure Connection where
  now : Nat
  phase : Phase
  timer : Timer
  /-- What the clock said at the last wait for a request. -/
  idleAt : Nat
  /-- What the clock said when the last request was found incomplete. -/
  headAt : Nat
  /-- When the read that is under way, or the last one, began. -/
  since : Nat
  deriving Repr, DecidableEq

/-- What happens to a connection. -/
inductive Label where
  /--
  `_run` begins to read, at what the clock says; when the read returns at once,
  whether a head is complete then.
  -/
  | read (date : Nat) (arrived : Option Bool)
  /-- Time goes by; the runtime polls the timer at the instant of its `Sleep`. -/
  | pass (later : Nat)
  /-- The read returns; whether a head is complete now. -/
  | arrive (complete : Bool)
  deriving Repr, DecidableEq

namespace Connection

/-- The timer is polled during a read. -/
def poll (connection : Connection) : Connection :=
  let (isReady, timer) := connection.timer.timer.poll connection.now
  let polled := { connection.timer with timer := timer }
  if isReady then
    { connection with timer := polled, phase := .expired polled.mapToErr }
  else
    { connection with timer := polled }

/-- `_run` up to where its read is pending. -/
def startRead (connection : Connection) (date : Nat) : Connection :=
  { connection with
    phase := .reading
    timer := connection.timer.update date
    since := connection.now
    idleAt :=
      if connection.timer.state = .idle then date else connection.idleAt
    headAt :=
      if connection.timer.state = .wait then date else connection.headAt }

/-- The read returns, and the timer is not polled. -/
def arrive (connection : Connection) (complete : Bool) : Connection :=
  { connection with
    phase := .working
    timer :=
      if complete then connection.timer.resetState else connection.timer }

def step (connection : Connection) : Label → Option Connection
  | .read date arrived =>
      -- The clock is behind, and never goes back.
      if connection.phase = .working ∧ date ≤ connection.now ∧
          max connection.idleAt connection.headAt ≤ date then
        match arrived with
        | none =>
            some (connection.startRead date).poll
        | some complete =>
            some ((connection.startRead date).arrive complete)
      else
        none
  | .pass later =>
      if connection.now < later then
        match connection.phase with
        | .working =>
            some { connection with now := later }
        | .reading =>
            if later < connection.timer.timer.timer then
              some { connection with now := later }
            else if later = connection.timer.timer.timer then
              some { connection with now := later }.poll
            else
              none
        | .expired _ =>
            none
      else
        none
  | .arrive complete =>
      if connection.phase = .reading then
        some (connection.arrive complete)
      else
        none

end Connection

/-- A new connection, with the `Sleep` of the timer that accepted it. -/
def Connection.new (armed kaDur reqDur now : Nat) : Connection where
  now := now
  phase := .working
  timer := ⟨⟨armed, armed⟩, .idle, kaDur, reqDur⟩
  idleAt := 0
  headAt := 0
  since := now

/-! ## What is wanted -/

/-- The last instant at which a timer may fire, if it has not been reset since. -/
def Connection.limit (armed kaDur reqDur : Nat) (connection : Connection) :
    Nat :=
  max armed
    (max (connection.idleAt + max kaDur reqDur)
      (connection.headAt + reqDur))

/-- What the state of the timer stands for, and the deadline of the state. -/
def Connection.Awaits
    (kaDur reqDur : Nat)
    (connection : Connection)
    (deadline : Nat) :
    Option Expiry → Prop
  | some .keepAliveExpire =>
      connection.timer.state = .wait ∧ deadline = connection.idleAt + kaDur
  | some .requestTimeout =>
      connection.timer.state = .throttle ∧
        deadline = connection.headAt + reqDur
  | none =>
      False

/--
A connection has been given up when what it waited for is overdue, and not later
than its timer could be late.
-/
def Connection.GivenUp
    (armed kaDur reqDur : Nat)
    (connection : Connection)
    (expiry : Option Expiry) :
    Prop :=
  ∃ deadline,
    connection.Awaits kaDur reqDur deadline expiry ∧
      deadline ≤ connection.now ∧
      connection.now ≤
        max connection.since (connection.limit armed kaDur reqDur)

/-- The deadlines are what they stand for, and none is far off. -/
structure Sound (armed kaDur reqDur : Nat) (connection : Connection) :
    Prop where
  isKaDur : connection.timer.kaDur = kaDur
  isReqDur : connection.timer.reqDur = reqDur
  sleep :
    connection.timer.timer.timer ≤ connection.limit armed kaDur reqDur
  deadline :
    connection.timer.timer.deadline ≤ connection.limit armed kaDur reqDur
  awaits :
    connection.timer.state ≠ .idle →
    connection.Awaits kaDur reqDur connection.timer.timer.deadline
      connection.timer.mapToErr
  reading : connection.phase = .reading → connection.timer.state ≠ .idle
  givenUp :
    ∀ expiry,
      connection.phase = .expired expiry →
      connection.GivenUp armed kaDur reqDur expiry

/-- What holds between any two steps. -/
structure Steady (armed kaDur reqDur : Nat) (connection : Connection) :
    Prop extends Sound armed kaDur reqDur connection where
  /-- The `Sleep` of a read that is pending is still to come. -/
  pending :
    connection.phase = .reading →
    connection.now < connection.timer.timer.timer

section Steps

variable
  {armed kaDur reqDur : Nat}
  {connection : Connection}

theorem sound_new (start : Nat) :
    Sound armed kaDur reqDur (.new armed kaDur reqDur start) where
  isKaDur := rfl
  isReqDur := rfl
  sleep := Nat.le_max_left _ _
  deadline := Nat.le_max_left _ _
  awaits := fun notIdle => absurd rfl notIdle
  reading := nofun
  givenUp := nofun

/-- The deadline of a wait is what its state stands for. -/
theorem Sound.startRead
    {date : Nat}
    (sound : Sound armed kaDur reqDur connection)
    (isLater : max connection.idleAt connection.headAt ≤ date) :
    Sound armed kaDur reqDur (connection.startRead date) := by
  have isKa := sound.isKaDur
  have isReq := sound.isReqDur
  have sleep := sound.sleep
  have deadline := sound.deadline
  have awaits := sound.awaits
  simp only [Connection.limit] at sleep deadline
  cases isState : connection.timer.state with
  | idle =>
      refine ⟨?_, ?_, ?_, ?_, ?_, ?_, nofun⟩ <;>
        simp only [Connection.startRead, Timer.update, isState, if_true,
          Connection.limit, KeepAlive.update, Connection.Awaits,
          Timer.mapToErr, reduceCtorEq, if_false, isKa, isReq, ne_eq,
          not_false_eq_true, implies_true, and_self]
      · omega
      · omega
  | wait =>
      refine ⟨?_, ?_, ?_, ?_, ?_, ?_, nofun⟩ <;>
        simp only [Connection.startRead, Timer.update, isState, if_true,
          Connection.limit, KeepAlive.update, Connection.Awaits,
          Timer.mapToErr, reduceCtorEq, if_false, isKa, isReq, ne_eq,
          not_false_eq_true, implies_true, and_self]
      · omega
      · omega
  | throttle =>
      have stays := awaits (by simp [isState])
      refine ⟨?_, ?_, ?_, ?_, ?_, ?_, nofun⟩ <;>
        simp only [Connection.startRead, Timer.update, isState,
          Connection.limit, reduceCtorEq, if_false, isKa, isReq, ne_eq,
          not_false_eq_true, implies_true]
      · exact sleep
      · exact deadline
      · simpa [Connection.Awaits, Timer.mapToErr, isState] using stays

/-- What a poll does to a connection. -/
theorem poll_eq :
    connection.poll =
      { connection with
        timer :=
          { connection.timer with
            timer := (connection.timer.timer.poll connection.now).2 }
        phase :=
          if max connection.timer.timer.timer
              connection.timer.timer.deadline ≤ connection.now then
            .expired connection.timer.mapToErr
          else
            connection.phase } := by
  unfold Connection.poll
  have isReady := @KeepAlive.poll_fst connection.timer.timer connection.now
  cases isPoll : connection.timer.timer.poll connection.now with
  | mk isReadyNow polled =>
      rw [isPoll] at isReady
      cases isReadyNow with
      | true =>
          rw [if_pos (of_decide_eq_true isReady.symm)]
          rfl
      | false =>
          rw [if_neg (of_decide_eq_false isReady.symm)]
          rfl

/-- A poll gives a connection up if and only if it is overdue. -/
theorem Sound.poll
    (sound : Sound armed kaDur reqDur connection)
    (isReading : connection.phase = .reading)
    (inTime :
      connection.now ≤
        max connection.since (connection.limit armed kaDur reqDur)) :
    Steady armed kaDur reqDur connection.poll := by
  have notIdle := sound.reading isReading
  have awaits := sound.awaits notIdle
  have sleep := sound.sleep
  have deadline := sound.deadline
  rw [poll_eq, KeepAlive.poll_snd]
  refine ⟨⟨sound.isKaDur, sound.isReqDur, ?_, deadline, fun _ => awaits,
    fun _ => notIdle, ?_⟩, ?_⟩
  · dsimp only
    split
    · exact deadline
    · exact sleep
  · intro expiry isExpired
    dsimp only at isExpired
    split at isExpired
    · next overdue =>
        cases isExpired
        exact ⟨_, awaits, (Nat.max_le.mp overdue).2, inTime⟩
    · rw [isReading] at isExpired
      cases isExpired
  · intro isStill
    dsimp only at isStill ⊢
    split at isStill
    · cases isStill
    · next notOverdue =>
        split <;> omega

/-- A read that returns leaves nothing that could expire. -/
theorem Sound.arrive
    (sound : Sound armed kaDur reqDur connection)
    (complete : Bool) :
    Steady armed kaDur reqDur (connection.arrive complete) := by
  cases complete with
  | true =>
      exact ⟨⟨sound.isKaDur, sound.isReqDur, sound.sleep, sound.deadline,
        fun notIdle => absurd rfl notIdle, nofun, nofun⟩, nofun⟩
  | false =>
      exact ⟨⟨sound.isKaDur, sound.isReqDur, sound.sleep, sound.deadline,
        sound.awaits, nofun, nofun⟩, nofun⟩

/-- Time goes by. -/
theorem Sound.pass
    {later : Nat}
    (sound : Sound armed kaDur reqDur connection)
    (notExpired : ∀ expiry, connection.phase ≠ .expired expiry) :
    Sound armed kaDur reqDur { connection with now := later } :=
  ⟨sound.isKaDur, sound.isReqDur, sound.sleep, sound.deadline, sound.awaits,
    sound.reading, fun expiry isExpired => absurd isExpired (notExpired expiry)⟩

theorem Steady.step
    {label : Label}
    {after : Connection}
    (steady : Steady armed kaDur reqDur connection)
    (taken : connection.step label = some after) :
    Steady armed kaDur reqDur after := by
  have sound := steady.toSound
  cases label with
  | read date arrived =>
      simp only [Connection.step] at taken
      split at taken
      · next mayRead =>
          have started := sound.startRead mayRead.2.2
          cases arrived with
          | none =>
              cases taken
              exact started.poll rfl (Nat.le_max_left _ _)
          | some complete =>
              cases taken
              exact started.arrive complete
      · cases taken
  | pass later =>
      simp only [Connection.step] at taken
      split at taken
      · split at taken
        · next isWorking =>
            cases taken
            exact ⟨sound.pass (by simp [isWorking]), by simp [isWorking]⟩
        · next isReading =>
            have passes : Sound armed kaDur reqDur
                { connection with now := later } :=
              sound.pass (by simp [isReading])
            split at taken
            · next isBefore =>
                cases taken
                exact ⟨passes, fun _ => isBefore⟩
            · split at taken
              · next isSleep =>
                  cases taken
                  refine passes.poll isReading ?_
                  have sleep := passes.sleep
                  exact Nat.le_trans (isSleep ▸ sleep) (Nat.le_max_right _ _)
              · cases taken
        · cases taken
      · cases taken
  | arrive complete =>
      simp only [Connection.step] at taken
      split at taken
      · cases taken
        exact sound.arrive complete
      · cases taken

end Steps

/-! ## Whole runs -/

section Runs

variable
  {armed kaDur reqDur start : Nat}
  {labels : List Label}
  {final : Connection}

/--
In every run a connection is given up with the right error, and never before
what it waited for is overdue by the clock; and a read that is pending does not
go on for longer than the durations, counted from the last wait for a request,
or than the timer that accepted the connection.
-/
theorem timeouts_of_run
    (accepted :
      run? Connection.step (.new armed kaDur reqDur start) labels =
        some final) :
    (∀ expiry,
      final.phase = .expired expiry →
      final.GivenUp armed kaDur reqDur expiry) ∧
    (final.phase = .reading →
      final.now < final.limit armed kaDur reqDur) := by
  have steady : Steady armed kaDur reqDur final :=
    invariant_of_run Steady.step ⟨sound_new start, nofun⟩ accepted
  refine ⟨steady.givenUp, ?_⟩
  intro isReading
  exact Nat.lt_of_lt_of_le (steady.pending isReading) steady.sleep

end Runs

/--
A client that sends half a head ten instants after the last request: with 75 for
the next request and 10 for a head.
-/
def slowHead : List Label :=
  [.read 0 none, .pass 3, .pass 10, .arrive false, .read 10 none, .pass 75]

/-- The connection is given up at 75, and not at 20. -/
def givenUpLate : Connection where
  now := 75
  phase := .expired (some .requestTimeout)
  timer := ⟨⟨75, 20⟩, .throttle, 75, 10⟩
  idleAt := 0
  headAt := 10
  since := 10

/-- The time for a head is short, and yet that for a request is what counts. -/
theorem timeouts_of_run_slowHead :
    (∀ expiry,
      givenUpLate.phase = .expired expiry →
      givenUpLate.GivenUp 3 75 10 expiry) ∧
    (givenUpLate.phase = .reading →
      givenUpLate.now < givenUpLate.limit 3 75 10) :=
  @timeouts_of_run 3 75 10 0 slowHead givenUpLate (by decide)

end Sweety.ConnectionTimers
