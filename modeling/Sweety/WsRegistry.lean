import Mathlib.Logic.Function.Basic
import Sweety.CountedTasks
import Sweety.StepRun

namespace Sweety.WsRegistry

open CountedTasks

/-!
# How many WebSocket connections are counted

Model of `WsRegistry::inc_if_under` and `handle_sweety` in
`handler/websocket.rs` over the atomic accesses of any number of handlers.
`dec` is called nowhere: neither after a handshake that fails nor when a
connection is closed.

What is done under the write lock is one step.
-/

/-- `http_ws::HandshakeError`, as far as the handler tells errors apart. -/
inductive HandshakeError where
  | getMethodRequired
  | other
  deriving Repr, DecidableEq

/-- What the handler reads of a request and of its location. -/
structure Request where
  authority : Option String
  host : Option String
  maxConnections : Option Nat
  /-- What `http_ws::handshake` says. -/
  handshake : Except HandshakeError Unit

/-- `site_name`. -/
def Request.key (request : Request) : String :=
  (request.authority <|> request.host).getD "_default"

/-- `max_conn`; 0 is no limit. -/
def Request.maxConn (request : Request) : Nat :=
  request.maxConnections.getD 10000

/-- Where a handler is, or what has become of its connection. -/
inductive Phase where
  | arrived
  /-- The counter of the site is there: at the load of the loop. -/
  | atCounter
  /-- Before `compare_exchange_weak`. -/
  | loaded (cur : Nat)
  /-- The site has no counter: before the write lock. -/
  | unknown
  /-- Before `http_ws::handshake`; `counted` if there is a limit. -/
  | admitted (counted : Bool)
  /-- The response with the status 101 has been returned. -/
  | established (counted : Bool)
  | answered (status : Nat)
  | closed
  | gone
  deriving Repr, DecidableEq

/-- What makes a handler or its connection move. -/
inductive Event where
  | proceed
  /-- `compare_exchange_weak` fails without a reason. -/
  | fail
  /-- The future is dropped at an `await`. -/
  | drop
  /-- The connection ends. -/
  | close
  deriving Repr, DecidableEq

/-- `sites`. -/
abbrev Counters :=
  String → Option Nat

/-- `WsRegistry::count`. -/
def countOf (counters : Counters) (key : String) : Nat :=
  (counters key).getD 0

/-- `fetch_add(1)` on a counter, which is inserted if it is not there. -/
def increase (counters : Counters) (key : String) : Counters :=
  Function.update counters key (some (countOf counters key + 1))

structure Handler where
  request : Request
  phase : Phase

/-- The counters, and all handlers so far. -/
structure State where
  counters : Counters
  handlers : List Handler

inductive Label where
  | arrive (request : Request)
  | move (index : Nat) (event : Event)

/-- One move of a handler. -/
def Handler.next
    (counters : Counters)
    (handler : Handler) :
    Event → Option (Counters × Phase)
  | .proceed =>
      match handler.phase with
      | .arrived =>
          if handler.request.maxConn = 0 then
            some (counters, .admitted false)
          else
            match counters handler.request.key with
            | some _ =>
                some (counters, .atCounter)
            | none =>
                some (counters, .unknown)
      | .atCounter =>
          if handler.request.maxConn ≤
              countOf counters handler.request.key then
            some (counters, .answered 503)
          else
            some (counters, .loaded (countOf counters handler.request.key))
      | .loaded cur =>
          if countOf counters handler.request.key = cur then
            some (increase counters handler.request.key, .admitted true)
          else
            some (counters, .atCounter)
      | .unknown =>
          if handler.request.maxConn ≤
              countOf counters handler.request.key then
            some
              (Function.update counters handler.request.key
                (some (countOf counters handler.request.key)),
                .answered 503)
          else
            some (increase counters handler.request.key, .admitted true)
      | .admitted counted =>
          match handler.request.handshake with
          | .error .getMethodRequired =>
              some (counters, .answered 405)
          | .error .other =>
              some (counters, .answered 400)
          | .ok () =>
              some (counters, .established counted)
      | _ =>
          none
  | .fail =>
      match handler.phase with
      | .loaded _ =>
          some (counters, .atCounter)
      | _ =>
          none
  | .drop =>
      match handler.phase with
      | .arrived | .unknown =>
          some (counters, .gone)
      | _ =>
          none
  | .close =>
      match handler.phase with
      | .established _ =>
          some (counters, .closed)
      | _ =>
          none

def step (state : State) : Label → Option State
  | .arrive request =>
      some
        { state with
          handlers := state.handlers ++ [⟨request, .arrived⟩] }
  | .move index event =>
      match state.handlers[index]? with
      | none =>
          none
      | some handler =>
          (handler.next state.counters event).map fun moved =>
            ⟨moved.1,
              state.handlers.set index { handler with phase := moved.2 }⟩

/-- `WsRegistry::new`. -/
def initial : State where
  counters := fun _ => none
  handlers := []

/-! ## What is wanted -/

/-- Admitted under its key, and not over yet. -/
def Phase.isLive : Phase → Bool
  | .admitted counted | .established counted =>
      counted
  | _ =>
      false

def Handler.liveUnder (key : String) (handler : Handler) : Bool :=
  handler.request.key == key && handler.phase.isLive

/-- The counts are true and within the limits. -/
structure Accounts (state : State) : Prop where
  counts :
    ∀ key,
      countOf state.counters key =
        count (Handler.liveUnder key) state.handlers
  bounded :
    ∀ key limit,
      (∀ handler ∈ state.handlers,
        handler.request.key = key → handler.request.maxConn ≤ limit) →
      countOf state.counters key ≤ limit

/--
The handshake of a request that has been counted fails, or its connection ends.
-/
def Handler.ends (handler : Handler) : Event → Bool
  | .proceed =>
      match handler.phase, handler.request.handshake with
      | .admitted true, .error _ =>
          true
      | _, _ =>
          false
  | .close =>
      handler.phase == .established true
  | .fail | .drop =>
      false

/--
The step ends no connection that has been counted, before it is open or after.
-/
def EndsNone (before : State) (label : Label) (_ : State) : Prop :=
  ∀ index event handler,
    label = .move index event →
    before.handlers[index]? = some handler →
    handler.ends event = false

/-! ## One move -/

section Counters

variable {counters : Counters} {key other : String}

theorem countOf_increase :
    countOf (increase counters key) other =
      countOf counters other + (if key = other then 1 else 0) := by
  unfold countOf increase
  by_cases same : other = key
  · subst same
    rw [Function.update_self, if_pos rfl]
    rfl
  · rw [Function.update_of_ne same, if_neg (Ne.symm same)]
    rfl

/-- A counter that is inserted with what it counts anyway. -/
theorem countOf_insert :
    countOf (Function.update counters key (some (countOf counters key)))
        other =
      countOf counters other := by
  unfold countOf
  by_cases same : other = key
  · subst same
    rw [Function.update_self]
    rfl
  · rw [Function.update_of_ne same]

end Counters

/-- What a move does to the counters and to the life of a connection. -/
inductive Moves
    (counters : Counters)
    (handler : Handler)
    (after : Counters)
    (next : Phase) :
    Event → Prop where
  | stays
      {event : Event}
      (same : next.isLive = handler.phase.isLive)
      (unchanged : ∀ key, countOf after key = countOf counters key)
      (notEnd : handler.ends event = false) :
      Moves counters handler after next event
  | admits
      {event : Event}
      (notLive : handler.phase.isLive = false)
      (isAdmitted : next = .admitted true)
      (isAfter : after = increase counters handler.request.key)
      (fits :
        countOf counters handler.request.key < handler.request.maxConn)
      (notEnd : handler.ends event = false) :
      Moves counters handler after next event
  | leaves
      {event : Event}
      (isLive : handler.phase.isLive = true)
      (notLive : next.isLive = false)
      (unchanged : after = counters)
      (isEnd : handler.ends event = true) :
      Moves counters handler after next event

/-- What was loaded is under the limit. -/
def Handler.LoadedFits (handler : Handler) : Prop :=
  ∀ cur, handler.phase = .loaded cur → cur < handler.request.maxConn

section OneMove

variable
  {counters after : Counters}
  {handler : Handler}
  {next : Phase}
  {event : Event}

theorem ends_of_not_admitted
    (notAdmitted : handler.phase ≠ .admitted true) :
    handler.ends .proceed = false := by
  simp only [Handler.ends]
  split
  · rename_i isAdmitted _
    exact absurd isAdmitted notAdmitted
  · rfl

theorem moves_of_proceed
    (fits : handler.LoadedFits)
    (isNext : handler.next counters .proceed = some (after, next)) :
    Moves counters handler after next .proceed := by
  cases isPhase : handler.phase with
  | arrived =>
      have notEnd : handler.ends .proceed = false :=
        ends_of_not_admitted (by simp [isPhase])
      simp only [Handler.next, isPhase] at isNext
      split at isNext
      · cases isNext
        exact .stays (by simp [isPhase, Phase.isLive]) (fun _ => rfl) notEnd
      · split at isNext
        · cases isNext
          exact .stays (by simp [isPhase, Phase.isLive]) (fun _ => rfl) notEnd
        · cases isNext
          exact .stays (by simp [isPhase, Phase.isLive]) (fun _ => rfl) notEnd
  | atCounter =>
      have notEnd : handler.ends .proceed = false :=
        ends_of_not_admitted (by simp [isPhase])
      simp only [Handler.next, isPhase] at isNext
      split at isNext
      · cases isNext
        exact .stays (by simp [isPhase, Phase.isLive]) (fun _ => rfl) notEnd
      · cases isNext
        exact .stays (by simp [isPhase, Phase.isLive]) (fun _ => rfl) notEnd
  | loaded cur =>
      have notEnd : handler.ends .proceed = false :=
        ends_of_not_admitted (by simp [isPhase])
      simp only [Handler.next, isPhase] at isNext
      split at isNext
      · rename_i isCur
        cases isNext
        refine .admits (by simp [isPhase, Phase.isLive]) rfl rfl ?_ notEnd
        rw [isCur]
        exact fits cur isPhase
      · cases isNext
        exact .stays (by simp [isPhase, Phase.isLive]) (fun _ => rfl) notEnd
  | unknown =>
      have notEnd : handler.ends .proceed = false :=
        ends_of_not_admitted (by simp [isPhase])
      simp only [Handler.next, isPhase] at isNext
      split at isNext
      · cases isNext
        refine .stays (by simp [isPhase, Phase.isLive]) ?_ notEnd
        intro key
        exact countOf_insert
      · rename_i under
        cases isNext
        exact
          .admits (by simp [isPhase, Phase.isLive]) rfl rfl
            (Nat.lt_of_not_le under) notEnd
  | admitted counted =>
      simp only [Handler.next, isPhase] at isNext
      cases isHandshake : handler.request.handshake with
      | ok done =>
          rw [isHandshake] at isNext
          cases isNext
          refine .stays (by simp [isPhase, Phase.isLive]) (fun _ => rfl) ?_
          simp [Handler.ends, isPhase, isHandshake]
      | error error =>
          have isFailure :
              after = counters ∧ ∃ status, next = .answered status := by
            rw [isHandshake] at isNext
            cases error with
            | getMethodRequired =>
                cases isNext
                exact ⟨rfl, 405, rfl⟩
            | other =>
                cases isNext
                exact ⟨rfl, 400, rfl⟩
          obtain ⟨rfl, status, rfl⟩ := isFailure
          cases counted with
          | false =>
              refine .stays (by simp [isPhase, Phase.isLive]) (fun _ => rfl) ?_
              simp [Handler.ends, isPhase]
          | true =>
              refine .leaves (by simp [isPhase, Phase.isLive]) rfl rfl ?_
              simp [Handler.ends, isPhase, isHandshake]
  | established _ | answered _ | closed | gone =>
      simp [Handler.next, isPhase] at isNext

theorem moves_of_next
    (fits : handler.LoadedFits)
    (isNext : handler.next counters event = some (after, next)) :
    Moves counters handler after next event := by
  cases event with
  | proceed =>
      exact moves_of_proceed fits isNext
  | fail =>
      cases isPhase : handler.phase with
      | loaded cur =>
          simp only [Handler.next, isPhase] at isNext
          cases isNext
          exact .stays (by simp [isPhase, Phase.isLive]) (fun _ => rfl) rfl
      | _ =>
          simp [Handler.next, isPhase] at isNext
  | drop =>
      cases isPhase : handler.phase with
      | arrived | unknown =>
          simp only [Handler.next, isPhase] at isNext
          cases isNext
          exact .stays (by simp [isPhase, Phase.isLive]) (fun _ => rfl) rfl
      | _ =>
          simp [Handler.next, isPhase] at isNext
  | close =>
      cases isPhase : handler.phase with
      | established counted =>
          simp only [Handler.next, isPhase] at isNext
          cases isNext
          cases counted with
          | false =>
              refine .stays (by simp [isPhase, Phase.isLive]) (fun _ => rfl) ?_
              simp [Handler.ends, isPhase]
          | true =>
              refine .leaves (by simp [isPhase, Phase.isLive]) rfl rfl ?_
              simp [Handler.ends, isPhase]
      | _ =>
          simp [Handler.next, isPhase] at isNext

/-- What is loaded next is under the limit. -/
theorem loadedFits_of_next
    (isNext : handler.next counters event = some (after, next)) :
    ({ handler with phase := next } : Handler).LoadedFits := by
  intro cur isLoaded
  change next = .loaded cur at isLoaded
  subst isLoaded
  cases isPhase : handler.phase with
  | atCounter =>
      cases event with
      | proceed =>
          simp only [Handler.next, isPhase] at isNext
          split at isNext
          · cases isNext
          · rename_i under
            cases isNext
            exact Nat.lt_of_not_le under
      | fail | drop | close =>
          simp [Handler.next, isPhase] at isNext
  | arrived =>
      cases event with
      | proceed =>
          simp only [Handler.next, isPhase] at isNext
          split at isNext
          · cases isNext
          · split at isNext
            · cases isNext
            · cases isNext
      | fail | drop | close =>
          simp [Handler.next, isPhase] at isNext
  | loaded _ | unknown =>
      cases event with
      | proceed =>
          simp only [Handler.next, isPhase] at isNext
          split at isNext
          · cases isNext
          · cases isNext
      | fail | drop | close =>
          simp [Handler.next, isPhase] at isNext
  | admitted _ =>
      cases event with
      | proceed =>
          simp only [Handler.next, isPhase] at isNext
          split at isNext
          · cases isNext
          · cases isNext
          · cases isNext
      | fail | drop | close =>
          simp [Handler.next, isPhase] at isNext
  | established _ | answered _ | closed | gone =>
      cases event with
      | proceed | fail | drop | close =>
          simp [Handler.next, isPhase] at isNext

end OneMove

/-! ## The counts after a step -/

/-- What holds in every run that ends nothing. -/
structure Kept (state : State) : Prop extends Accounts state where
  loadedFits : ∀ handler ∈ state.handlers, handler.LoadedFits

theorem kept_initial : Kept initial where
  counts _ := rfl
  bounded _ _ _ := Nat.zero_le _
  loadedFits := nofun

section Runs

variable
  {state after : State}
  {label : Label}

theorem Kept.arrive
    (kept : Kept state)
    (request : Request) :
    Kept
      { state with
        handlers := state.handlers ++ [⟨request, .arrived⟩] } where
  counts key := by
    have notLive :
        Handler.liveUnder key ⟨request, .arrived⟩ = false :=
      Bool.and_false _
    rw [count_start, share_of_not notLive]
    exact kept.counts key
  bounded key limit allWithin := by
    apply kept.bounded key limit
    intro handler member
    exact allWithin handler (List.mem_append_left _ member)
  loadedFits := by
    intro handler member
    rcases List.mem_append.mp member with wasThere | isNew
    · exact kept.loadedFits handler wasThere
    · rw [List.mem_singleton.mp isNew]
      nofun

/-- A handler that has moved reads the same request. -/
theorem exists_before_of_mem_set
    {index : Nat}
    {handler later : Handler}
    (next : Phase)
    (isHandler : state.handlers[index]? = some handler)
    (member : later ∈ state.handlers) :
    ∃ now ∈ state.handlers.set index { handler with phase := next },
      now.request = later.request := by
  obtain ⟨position, isLater⟩ := List.getElem?_of_mem member
  by_cases same : index = position
  · subst same
    cases isHandler.symm.trans isLater
    refine ⟨{ handler with phase := next }, ?_, rfl⟩
    obtain ⟨inBounds, -⟩ := List.getElem?_eq_some_iff.mp isHandler
    exact List.mem_set inBounds _
  · refine ⟨later, ?_, rfl⟩
    apply List.mem_of_getElem? (i := position)
    rw [List.getElem?_set_ne same]
    exact isLater

theorem loadedFits_set
    (kept : Kept state)
    {index : Nat}
    {moved : Handler}
    (fits : moved.LoadedFits) :
    ∀ handler ∈ state.handlers.set index moved, handler.LoadedFits := by
  intro handler member
  rcases List.mem_or_eq_of_mem_set member with wasThere | isMoved
  · exact kept.loadedFits handler wasThere
  · rw [isMoved]
    exact fits

/-- The share of a handler by its key and its phase. -/
theorem share_liveUnder (key : String) (handler : Handler) :
    share (Handler.liveUnder key) handler =
      if handler.request.key = key then
        handler.phase.isLive.toNat
      else
        0 := by
  unfold share Handler.liveUnder
  by_cases isKey : handler.request.key = key
  · rw [if_pos isKey, beq_iff_eq.mpr isKey, Bool.true_and]
  · rw [if_neg isKey, beq_eq_false_iff_ne.mpr isKey]
    rfl

/-- A move that ends nothing. -/
theorem Kept.move
    (kept : Kept state)
    {index : Nat}
    {handler : Handler}
    {event : Event}
    {counters : Counters}
    {next : Phase}
    (isHandler : state.handlers[index]? = some handler)
    (moves : Moves state.counters handler counters next event)
    (fits : ({ handler with phase := next } : Handler).LoadedFits)
    (notEnd : handler.ends event = false) :
    Kept
      ⟨counters,
        state.handlers.set index { handler with phase := next }⟩ := by
  have within :
      ∀ key limit,
        (∀ later ∈ state.handlers.set index { handler with phase := next },
          later.request.key = key → later.request.maxConn ≤ limit) →
        ∀ earlier ∈ state.handlers,
          earlier.request.key = key →
          earlier.request.maxConn ≤ limit := by
    intro key limit allWithin earlier member isKey
    obtain ⟨now, isNow, sameRequest⟩ :=
      exists_before_of_mem_set next isHandler member
    rw [← sameRequest] at isKey ⊢
    exact allWithin now isNow isKey
  have moved (key : String) :=
    count_move (Handler.liveUnder key) isHandler { handler with phase := next }
  cases moves with
  | stays same unchanged _ =>
      refine ⟨⟨?_, ?_⟩, loadedFits_set kept fits⟩
      · intro key
        have counted := moved key
        rw [share_liveUnder, share_liveUnder, same] at counted
        rw [unchanged, kept.counts]
        exact (Nat.add_right_cancel counted).symm
      · intro key limit allWithin
        rw [unchanged]
        exact kept.bounded key limit (within key limit allWithin)
  | admits notLive isAdmitted isAfter under _ =>
      subst isAdmitted isAfter
      refine ⟨⟨?_, ?_⟩, loadedFits_set kept fits⟩
      · intro key
        have counted := moved key
        rw [share_liveUnder, share_liveUnder, notLive] at counted
        rw [countOf_increase, kept.counts]
        by_cases isKey : handler.request.key = key
        · rw [if_pos isKey] at counted ⊢
          rw [if_pos isKey] at counted
          exact counted.symm
        · rw [if_neg isKey] at counted ⊢
          rw [if_neg isKey] at counted
          exact counted.symm
      · intro key limit allWithin
        rw [countOf_increase]
        by_cases isKey : handler.request.key = key
        · have member := List.mem_of_getElem? isHandler
          have isLimit := within key limit allWithin handler member isKey
          rw [if_pos isKey]
          rw [isKey] at under
          exact Nat.le_trans under isLimit
        · rw [if_neg isKey]
          exact kept.bounded key limit (within key limit allWithin)
  | leaves _ _ _ isEnd =>
      rw [notEnd] at isEnd
      cases isEnd

/-- After a move that ends a connection its counter says one too much. -/
theorem not_accounts_of_leaves
    (kept : Kept state)
    {index : Nat}
    {handler : Handler}
    {next : Phase}
    (isHandler : state.handlers[index]? = some handler)
    (isLive : handler.phase.isLive = true)
    (notLive : next.isLive = false) :
    ¬ Accounts
      ⟨state.counters,
        state.handlers.set index { handler with phase := next }⟩ := by
  intro accounts
  have before := kept.counts handler.request.key
  have after := accounts.counts handler.request.key
  have moved :=
    count_move (Handler.liveUnder handler.request.key) isHandler
      { handler with phase := next }
  rw [share_liveUnder, share_liveUnder, if_pos rfl, if_pos rfl, isLive,
    notLive, ← before, ← after] at moved
  exact absurd moved (Nat.succ_ne_self _)

/-- What a step that is a move does. -/
theorem move_of_step
    {index : Nat}
    {event : Event}
    (taken : step state (.move index event) = some after) :
    ∃ handler counters next,
      state.handlers[index]? = some handler ∧
        handler.next state.counters event = some (counters, next) ∧
        after =
          ⟨counters,
            state.handlers.set index { handler with phase := next }⟩ := by
  unfold step at taken
  dsimp only at taken
  cases isHandler : state.handlers[index]? with
  | none =>
      rw [isHandler] at taken
      cases taken
  | some handler =>
      rw [isHandler] at taken
      obtain ⟨⟨counters, next⟩, isNext, rfl⟩ :=
        Option.map_eq_some_iff.mp taken
      exact ⟨handler, counters, next, rfl, isNext, rfl⟩

theorem Kept.step
    (kept : Kept state)
    (taken : step state label = some after)
    (endsNone : EndsNone state label after) :
    Kept after := by
  cases label with
  | arrive request =>
      cases taken
      exact kept.arrive request
  | move index event =>
      obtain ⟨handler, counters, next, isHandler, isNext, rfl⟩ :=
        move_of_step taken
      have fits := kept.loadedFits handler (List.mem_of_getElem? isHandler)
      exact
        kept.move isHandler (moves_of_next fits isNext)
          (loadedFits_of_next isNext)
          (endsNone index event handler rfl isHandler)

theorem endsNone_of_accounts
    (kept : Kept state)
    (taken : step state label = some after)
    (accounts : Accounts after) :
    EndsNone state label after := by
  rintro index event handler rfl isHandler
  obtain ⟨mover, counters, next, isMover, isNext, rfl⟩ := move_of_step taken
  cases isMover.symm.trans isHandler
  have fits := kept.loadedFits handler (List.mem_of_getElem? isHandler)
  cases moves_of_next fits isNext with
  | stays _ _ notEnd =>
      exact notEnd
  | admits _ _ _ _ notEnd =>
      exact notEnd
  | leaves isLive notLive unchanged _ =>
      subst unchanged
      exact
        absurd accounts
          (not_accounts_of_leaves kept isHandler isLive notLive)

/--
In every run the counts are true and within the limits after each step exactly
if no connection that has been counted ever ends.
-/
theorem accounts_iff (labels : List Label) :
    StepRun.Along step (fun _ _ after => Accounts after) initial labels ↔
      StepRun.Along step EndsNone initial labels := by
  apply StepRun.along_congr_of_guarded
    (fun kept taken endsNone => Kept.step kept taken endsNone)
    (fun kept taken => ?_) kept_initial
  constructor
  · exact endsNone_of_accounts kept taken
  · intro endsNone
    exact (Kept.step kept taken endsNone).toAccounts

end Runs

/-- A request that upgrades its connection, where one connection is allowed. -/
def sampleRequest : Request :=
  ⟨some "a", none, some 1, .ok ()⟩

/-- The only connection is closed, and still counted. -/
theorem not_accounts_closed :
    ¬ StepRun.Along step (fun _ _ after => Accounts after) initial
      [.arrive sampleRequest, .move 0 .proceed, .move 0 .proceed,
        .move 0 .proceed, .move 0 .close] := by
  intro along
  obtain ⟨-, along⟩ := along _ rfl
  obtain ⟨-, along⟩ := along _ rfl
  obtain ⟨-, along⟩ := along _ rfl
  obtain ⟨-, along⟩ := along _ rfl
  obtain ⟨accounts, -⟩ := along _ rfl
  exact absurd (accounts.counts "a") (by decide)

end Sweety.WsRegistry
