import Mathlib.Logic.Function.Basic
import Sweety.StepRun

namespace Sweety.H2Pool

/-!
# The connections to an HTTP/2 upstream

Model of `H2NodePool::get_sender` in `handler/reverse_proxy/upstream_h2.rs`.
The lock is held for a whole call, so the calls come one after the other;
connections die at any time, also while a call waits for one of them.  A
connection that is dead answers `ready()` with an error for ever, and one that
is not dead answers at last.
-/

/-- The connections of a pool, which holds one at least. -/
structure H2NodePool where
  maxConns : Nat
  maxConns_pos : 0 < maxConns
  conns : List Nat

/-- `H2NodePool::new`. -/
def H2NodePool.new (maxConns : Nat) : H2NodePool where
  maxConns := max maxConns 1
  maxConns_pos := Nat.lt_of_lt_of_le Nat.one_pos (Nat.le_max_right _ _)
  conns := []

/-- Why a call fails. -/
inductive Failure where
  | newConn (text : String)
  | ready
  | noConns
  deriving Repr, DecidableEq

/--
A call: the connections it has still to ask, and what `new_conn` would give.
-/
structure Call where
  left : List Nat
  newConn : Except String Unit

/--
A pool, its call, the connections that have died, and how many there have been.
-/
structure State where
  pool : H2NodePool
  call : Option Call
  dead : Nat → Bool
  opened : Nat

inductive Label where
  /-- `get_sender` gets the lock. -/
  | call (newConn : Except String Unit)
  /-- `ready()` of the next connection answers, or the loop is over. -/
  | proceed
  /-- The future of the call is dropped while it waits. -/
  | drop
  | die (conn : Nat)

def State.initial (maxConns : Nat) : State where
  pool := H2NodePool.new maxConns
  call := none
  dead := fun _ => false
  opened := 0

/-- `conn.sender.clone().ready()`. -/
def ready (dead : Nat → Bool) (conn : Nat) : Except Failure Nat :=
  if dead conn then
    .error .ready
  else
    .ok conn

/-- What follows the loop of `get_sender`, and the pool after it. -/
def afterLoop
    (state : State)
    (newConn : Except String Unit) :
    Except Failure Nat × State :=
  if state.pool.conns.length < state.pool.maxConns then
    match newConn with
    | .error text =>
        (.error (.newConn text), { state with call := none })
    | .ok () =>
        (.ok state.opened,
          { state with
            pool :=
              { state.pool with
                conns := state.pool.conns ++ [state.opened] }
            call := none
            opened := state.opened + 1 })
  else
    match state.pool.conns with
    | [] =>
        (.error .noConns, { state with call := none })
    | first :: _ =>
        (ready state.dead first, { state with call := none })

/--
What a step returns to the caller, if it ends the call, and the state after it.
-/
def advance (state : State) :
    Label → Option (Option (Except Failure Nat) × State)
  | .call newConn =>
      match state.call with
      | none =>
          some (none, { state with call := some ⟨state.pool.conns, newConn⟩ })
      | some _ =>
          none
  | .proceed =>
      match state.call with
      | none =>
          none
      | some ⟨[], newConn⟩ =>
          let (result, after) := afterLoop state newConn
          some (some result, after)
      | some ⟨conn :: left, newConn⟩ =>
          match ready state.dead conn with
          | .ok sender =>
              some (some (.ok sender), { state with call := none })
          | .error _ =>
              some (none, { state with call := some ⟨left, newConn⟩ })
  | .drop =>
      some (none, { state with call := none })
  | .die conn =>
      if conn < state.opened then
        some
          (none, { state with dead := Function.update state.dead conn true })
      else
        none

def step (state : State) (label : Label) : Option State :=
  (advance state label).map Prod.snd

/-! ## What is wanted -/

/--
There are never more connections than allowed, and a call that could open one
returns a sender.
-/
def Recovers (before : State) (label : Label) (after : State) : Prop :=
  after.pool.conns.length ≤ after.pool.maxConns ∧
    ∀ result call,
      advance before label = some (some result, after) →
      before.call = some call →
      call.newConn = .ok () →
      ∃ sender, result = .ok sender

/-- The pool is full, and every connection in it is dead. -/
def Exhausted (state : State) : Prop :=
  state.pool.maxConns ≤ state.pool.conns.length ∧
    ∀ conn ∈ state.pool.conns, state.dead conn = true

/--
A call that could open a connection does not come to the end of its loop with a
full pool of dead connections.
-/
def FindsRoom (before : State) (label : Label) (_ : State) : Prop :=
  match label, before.call with
  | .proceed, some ⟨[], .ok ()⟩ =>
      ¬ Exhausted before
  | _, _ =>
      True

/-! ## What holds in every run -/

/-- The pool keeps its bound, and a call goes on past dead connections only. -/
structure Kept (state : State) : Prop where
  bounded : state.pool.conns.length ≤ state.pool.maxConns
  passed :
    ∀ call,
      state.call = some call →
      ∃ asked,
        state.pool.conns = asked ++ call.left ∧
          ∀ conn ∈ asked, state.dead conn = true

theorem kept_initial (maxConns : Nat) : Kept (State.initial maxConns) := by
  constructor
  · exact Nat.zero_le _
  · intro call isCall
    cases isCall

section Steps

variable
  {state after : State}
  {label : Label}

/-- A call that is over leaves no call. -/
theorem Kept.endCall (kept : Kept state) :
    Kept { state with call := none } :=
  ⟨kept.bounded, nofun⟩

theorem Kept.afterLoop
    (kept : Kept state)
    (newConn : Except String Unit) :
    Kept (afterLoop state newConn).2 := by
  unfold H2Pool.afterLoop
  split
  · rename_i hasRoom
    cases newConn with
    | error text =>
        exact kept.endCall
    | ok done =>
        constructor
        · change (state.pool.conns ++ [state.opened]).length ≤ _
          rw [List.length_append, List.length_singleton]
          exact hasRoom
        · nofun
  · split
    · exact kept.endCall
    · exact kept.endCall

theorem ready_cases (dead : Nat → Bool) (conn : Nat) :
    (dead conn = true ∧ ready dead conn = .error .ready) ∨
      (dead conn = false ∧ ready dead conn = .ok conn) := by
  cases isDead : dead conn with
  | true =>
      left
      simp [ready, isDead]
  | false =>
      right
      simp [ready, isDead]

/-- What a step can do to the state. -/
inductive Moves (state : State) : State → Prop where
  | called (newConn : Except String Unit) :
      Moves state { state with call := some ⟨state.pool.conns, newConn⟩ }
  | passed
      {conn : Nat}
      {left : List Nat}
      {newConn : Except String Unit}
      (isCall : state.call = some ⟨conn :: left, newConn⟩)
      (isDead : state.dead conn = true) :
      Moves state { state with call := some ⟨left, newConn⟩ }
  | looped (newConn : Except String Unit) :
      Moves state (afterLoop state newConn).2
  | ended :
      Moves state { state with call := none }
  | died (conn : Nat) :
      Moves state { state with dead := Function.update state.dead conn true }

theorem moves_of_step (taken : step state label = some after) :
    Moves state after := by
  obtain ⟨⟨result, last⟩, isStep, rfl⟩ := Option.map_eq_some_iff.mp taken
  cases label with
  | call newConn =>
      cases isCall : state.call with
      | some _ =>
          simp [advance, isCall] at isStep
      | none =>
          simp only [advance, isCall, Option.some.injEq,
            Prod.mk.injEq] at isStep
          obtain ⟨-, rfl⟩ := isStep
          exact .called newConn
  | proceed =>
      cases isCall : state.call with
      | none =>
          simp [advance, isCall] at isStep
      | some call =>
          obtain ⟨left, newConn⟩ := call
          cases left with
          | nil =>
              simp only [advance, isCall, Option.some.injEq,
                Prod.mk.injEq] at isStep
              obtain ⟨-, rfl⟩ := isStep
              exact .looped newConn
          | cons conn left =>
              rcases ready_cases state.dead conn with
                  ⟨isDead, isReady⟩ | ⟨-, isReady⟩
              · simp only [advance, isCall, isReady, Option.some.injEq,
                  Prod.mk.injEq] at isStep
                obtain ⟨-, rfl⟩ := isStep
                exact .passed isCall isDead
              · simp only [advance, isCall, isReady, Option.some.injEq,
                  Prod.mk.injEq] at isStep
                obtain ⟨-, rfl⟩ := isStep
                exact .ended
  | drop =>
      cases isStep
      exact .ended
  | die conn =>
      by_cases isOpen : conn < state.opened
      · simp only [advance, if_pos isOpen, Option.some.injEq,
          Prod.mk.injEq] at isStep
        obtain ⟨-, rfl⟩ := isStep
        exact .died conn
      · simp [advance, isOpen] at isStep

/-- A dead connection is dead for ever. -/
theorem dead_update
    {dead : Nat → Bool}
    {other : Nat}
    (isDead : dead other = true)
    (conn : Nat) :
    Function.update dead conn true other = true := by
  by_cases same : other = conn
  · subst same
    exact Function.update_self _ _ _
  · exact (Function.update_of_ne same _ _).trans isDead

/-- One step. -/
theorem Kept.step
    (kept : Kept state)
    (taken : step state label = some after) :
    Kept after := by
  cases moves_of_step taken with
  | called newConn =>
      refine ⟨kept.bounded, ?_⟩
      intro call isNew
      cases isNew
      exact ⟨[], rfl, nofun⟩
  | @passed conn left newConn isCall isDead =>
      obtain ⟨asked, isAsked, allDead⟩ := kept.passed _ isCall
      refine ⟨kept.bounded, ?_⟩
      intro later isLater
      cases isLater
      refine ⟨asked ++ [conn], ?_, ?_⟩
      · rw [List.append_assoc]
        exact isAsked
      · intro other member
        rcases List.mem_append.mp member with wasAsked | isNow
        · exact allDead other wasAsked
        · rw [List.mem_singleton.mp isNow]
          exact isDead
  | looped newConn =>
      exact kept.afterLoop newConn
  | ended =>
      exact kept.endCall
  | died conn =>
      refine ⟨kept.bounded, ?_⟩
      intro call isCall
      obtain ⟨asked, isAsked, allDead⟩ := kept.passed call isCall
      refine ⟨asked, isAsked, ?_⟩
      intro other member
      exact dead_update (allDead other member) conn

/-- What a call that could open a connection returns after its loop. -/
theorem afterLoop_ok_iff
    (allDead : ∀ conn ∈ state.pool.conns, state.dead conn = true) :
    (∃ sender, (afterLoop state (.ok ())).1 = .ok sender) ↔
      ¬ Exhausted state := by
  by_cases hasRoom : state.pool.conns.length < state.pool.maxConns
  · have isOpened : (afterLoop state (.ok ())).1 = .ok state.opened := by
      rw [afterLoop, if_pos hasRoom]
    constructor
    · rintro - ⟨isFull, -⟩
      exact absurd hasRoom (Nat.not_lt.mpr isFull)
    · intro _
      exact ⟨state.opened, isOpened⟩
  · have isFull := Nat.not_lt.mp hasRoom
    have isFailure :
        ∃ failure, (afterLoop state (.ok ())).1 = .error failure := by
      rw [afterLoop, if_neg hasRoom]
      cases isConns : state.pool.conns with
      | nil =>
          exact ⟨.noConns, rfl⟩
      | cons first rest =>
          have isDead : state.dead first = true := by
            apply allDead
            rw [isConns]
            exact List.mem_cons_self
          refine ⟨.ready, ?_⟩
          change ready state.dead first = .error .ready
          rw [ready, if_pos isDead]
    constructor
    · rintro ⟨sender, isSender⟩
      obtain ⟨failure, failed⟩ := isFailure
      rw [failed] at isSender
      cases isSender
    · intro notExhausted
      exact absurd ⟨isFull, allDead⟩ notExhausted

/-- A step that does not end a loop returns a sender or nothing. -/
theorem recovers_iff_findsRoom
    (kept : Kept state)
    (taken : step state label = some after) :
    Recovers state label after ↔ FindsRoom state label after := by
  have bounded := (kept.step taken).bounded
  cases label with
  | call newConn =>
      constructor
      · intro _
        trivial
      · intro _
        refine ⟨bounded, ?_⟩
        intro result call isResult isCall _
        simp [advance, isCall] at isResult
  | drop =>
      constructor
      · intro _
        trivial
      · intro _
        refine ⟨bounded, ?_⟩
        intro result call isResult _ _
        cases isResult
  | die conn =>
      constructor
      · intro _
        trivial
      · intro _
        refine ⟨bounded, ?_⟩
        intro result call isResult _ _
        by_cases isOpen : conn < state.opened
        · simp [advance, isOpen] at isResult
        · simp [advance, isOpen] at isResult
  | proceed =>
      cases isCall : state.call with
      | none =>
          simp [step, advance, isCall] at taken
      | some call =>
          obtain ⟨left, newConn⟩ := call
          cases left with
          | cons conn left =>
              constructor
              · intro _
                simp [FindsRoom, isCall]
              · intro _
                refine ⟨bounded, ?_⟩
                intro result other isResult _ _
                rcases ready_cases state.dead conn with
                    ⟨-, isReady⟩ | ⟨-, isReady⟩
                · simp [advance, isCall, isReady] at isResult
                · simp only [advance, isCall, isReady, Option.some.injEq,
                    Prod.mk.injEq] at isResult
                  exact ⟨conn, isResult.1.symm⟩
          | nil =>
              obtain ⟨asked, isAsked, askedDead⟩ := kept.passed _ isCall
              have allDead :
                  ∀ conn ∈ state.pool.conns, state.dead conn = true := by
                intro conn member
                rw [isAsked, List.append_nil] at member
                exact askedDead conn member
              have isStep :
                  advance state .proceed =
                    some
                      (some (afterLoop state newConn).1,
                        (afterLoop state newConn).2) := by
                simp only [advance, isCall]
              have isAfter : (afterLoop state newConn).2 = after := by
                rw [step, isStep] at taken
                exact Option.some.inj taken
              cases newConn with
              | error text =>
                  constructor
                  · intro _
                    simp [FindsRoom, isCall]
                  · intro _
                    refine ⟨bounded, ?_⟩
                    intro result call _ isSame couldOpen
                    cases isCall.symm.trans isSame
                    cases couldOpen
              | ok done =>
                  have isRoom :
                      FindsRoom state .proceed after ↔ ¬ Exhausted state := by
                    simp only [FindsRoom, isCall]
                  rw [isRoom, ← afterLoop_ok_iff allDead]
                  constructor
                  · intro recovers
                    apply recovers.2 _ _ _ isCall rfl
                    rw [isStep, isAfter]
                  · rintro ⟨sender, isSender⟩
                    refine ⟨bounded, ?_⟩
                    intro result call isResult _ _
                    rw [isStep] at isResult
                    cases isResult
                    exact ⟨sender, isSender⟩

/--
In every run the pool keeps its bound and recovers at each step exactly if no
call that could open a connection comes to its end with a full pool of dead
ones.
-/
theorem recovers_along_iff
    (maxConns : Nat)
    (labels : List Label) :
    StepRun.Along step Recovers (State.initial maxConns) labels ↔
      StepRun.Along step FindsRoom (State.initial maxConns) labels :=
  StepRun.along_congr_of_guarded
    (fun kept taken _ => kept.step taken)
    (fun kept taken => recovers_iff_findsRoom kept taken)
    (kept_initial maxConns)

/-- A pool that is exhausted stays so, whatever is done. -/
theorem Exhausted.step
    (exhausted : Exhausted state)
    (taken : step state label = some after) :
    Exhausted after := by
  obtain ⟨isFull, allDead⟩ := exhausted
  cases moves_of_step taken with
  | called newConn =>
      exact ⟨isFull, allDead⟩
  | passed isCall isDead =>
      exact ⟨isFull, allDead⟩
  | looped newConn =>
      unfold afterLoop
      rw [if_neg (Nat.not_lt.mpr isFull)]
      split
      · exact ⟨isFull, allDead⟩
      · exact ⟨isFull, allDead⟩
  | ended =>
      exact ⟨isFull, allDead⟩
  | died conn =>
      refine ⟨isFull, ?_⟩
      intro other member
      exact dead_update (allDead other member) conn

end Steps

/-- The only connection dies, and the next call finds no room for another. -/
theorem not_recovers_oneConn :
    ¬ StepRun.Along step Recovers (State.initial 1)
      [.call (.ok ()), .proceed, .die 0, .call (.ok ()), .proceed,
        .proceed] := by
  intro along
  obtain ⟨-, along⟩ := along _ rfl
  obtain ⟨-, along⟩ := along _ rfl
  obtain ⟨-, along⟩ := along _ rfl
  obtain ⟨-, along⟩ := along _ rfl
  obtain ⟨-, along⟩ := along _ rfl
  obtain ⟨recovers, -⟩ := along _ rfl
  obtain ⟨sender, isSender⟩ := recovers.2 _ _ rfl rfl rfl
  cases isSender

end Sweety.H2Pool
