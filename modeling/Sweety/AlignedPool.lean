import Mathlib.Data.List.Forall2
import Sweety.ConnPool
import Sweety.ConnectionReuse
import Sweety.StepRun

namespace Sweety.AlignedPool

open ForwardRequest UpstreamResponse SegmentedReader Rfc7230 StepRun

/-!
# Connections that are in step with their responses

The requests of one worker and its pool of connections.  A request takes a
connection in one step and finishes in another; other requests take connections
and hand them back in between.  A connection in the pool is aligned if all that
was read on it is one response to each of the requests it has served.
-/

/-- A connection with its history. -/
structure Pooled where
  conn : Conn
  /-- What there was to read on it when it was opened. -/
  opened : List (Event IoError)
  /-- The methods of the requests it was handed back after. -/
  methods : List String
  deriving Repr, DecidableEq

namespace Pooled

/-- A new connection. -/
def new (conn : Conn) : Pooled where
  conn := conn
  opened := conn.reads
  methods := []

/-- What is handed back: the connection without the buffer of its reader. -/
def served
    (method : String)
    (after : Conn)
    (released : Reader)
    (pooled : Pooled) :
    Pooled where
  conn := { after with reads := released.reads }
  opened := pooled.opened
  methods := pooled.methods ++ [method]

/-- All that was read is one response to each request, in order. -/
def Aligned (pooled : Pooled) : Prop :=
  ∃ answers,
    List.Forall₂ IsResponse pooled.methods answers ∧
      pooled.opened.flatMap Event.bytes =
        answers.flatten ++ pooled.conn.reads.flatMap Event.bytes

theorem aligned_new (conn : Conn) : (new conn).Aligned :=
  ⟨[], .nil, rfl⟩

/-- Reading one response keeps a connection aligned. -/
theorem Aligned.served
    {pooled : Pooled}
    {method : String}
    {released : Reader}
    (aligned : pooled.Aligned)
    (after : Conn)
    (one : ReadsOne method pooled.conn.reads released.reads) :
    (pooled.served method after released).Aligned := by
  obtain ⟨answers, oneEach, isRead⟩ := aligned
  obtain ⟨answer, isAnswer, isRest⟩ := one
  refine ⟨answers ++ [answer], ?_, ?_⟩
  · exact List.rel_append oneEach (.cons isAnswer .nil)
  · rw [List.flatten_append, List.append_assoc,
      List.flatten_singleton]
    rw [isRest] at isRead
    exact isRead

end Pooled

/-- A request and the settings of its location. -/
structure Job where
  mode : ReplyMode
  writeTimeout : Nat
  request : Request
  body : RequestBody
  limits : KeepAlive

/-- What a request has: its key, and a connection with its age and use. -/
structure Held where
  key : String
  first : Except ForwardError (Pooled × Nat × Nat)

/-- The queues of the worker, and what its requests hold. -/
structure System where
  pools : NodePools Pooled
  held : Nat → Option Held

/-- No connection has been opened yet. -/
def System.initial : System where
  pools := fun _ => []
  held := fun _ => none

/--
The steps.  `fresh` and `second` are what opening a connection brings, if the
request has to open one.
-/
inductive Label where
  | acquire
      (request : Nat)
      (key : String)
      (now : Nat)
      (fresh : Except ForwardError Conn)
      (freshAt : Nat)
  | finish
      (request : Nat)
      (job : Job)
      (second : Except ForwardError Conn)
      (secondAt now : Nat)
  /-- The client went away. -/
  | cancel (request : Nat)

/-- A connection from the pool, or a new one. -/
def firstConn
    (taken : Option (Pooled × Nat × Nat))
    (fresh : Except ForwardError Conn)
    (freshAt : Nat) :
    Except ForwardError (Pooled × Nat × Nat) :=
  match taken with
  | some idle =>
      .ok idle
  | none =>
      fresh.map fun conn => (Pooled.new conn, freshAt, 0)

/-- What `forward_request` hands back, with its age and use. -/
def handedBack
    (job : Job)
    (first : Except ForwardError (Pooled × Nat × Nat))
    (second : Except ForwardError Conn)
    (secondAt : Nat) :
    Option (Pooled × Nat × Nat) :=
  match forwardRequest job.mode job.writeTimeout job.request job.body
      (first.map fun idle => idle.1.conn) second with
  | (.ok _ (some released), [after]) =>
      first.toOption.map fun (pooled, createdAt, requestCount) =>
        (pooled.served job.request.method after released, createdAt,
          requestCount + 1)
  | (.ok _ (some released), [_, after]) =>
      second.toOption.map fun fresh =>
        ((Pooled.new fresh).served job.request.method after released,
          secondAt, 1)
  | _ =>
      none

/-- What is handed back goes to the pool. -/
def putBack
    (pool : ConnPool)
    (limits : KeepAlive)
    (key : String)
    (now : Nat)
    (back : Option (Pooled × Nat × Nat))
    (pools : NodePools Pooled) :
    NodePools Pooled :=
  match back with
  | some (conn, createdAt, requestCount) =>
      pool.release limits key now conn createdAt requestCount pools
  | none =>
      pools

/-- The step function; a request takes one connection and finishes once. -/
def step?
    (pool : ConnPool)
    (system : System) :
    Label → Option System
  | .acquire request key now fresh freshAt =>
      match system.held request with
      | some _ =>
          none
      | none =>
          let (taken, pools) := pool.acquire key now system.pools
          some
            { pools := pools
              held :=
                Function.update system.held request
                  (some ⟨key, firstConn taken fresh freshAt⟩) }
  | .finish request job second secondAt now =>
      match system.held request with
      | none =>
          none
      | some held =>
          some
            { pools :=
                putBack pool job.limits held.key now
                  (handedBack job held.first second secondAt)
                  system.pools
              held := Function.update system.held request none }
  | .cancel request =>
      match system.held request with
      | none =>
          none
      | some _ =>
          some
            { system with
              held := Function.update system.held request none }

/-- Every connection in the pool is aligned. -/
def System.Aligned (system : System) : Prop :=
  ∀ key, ∀ idle ∈ system.pools key, idle.conn.Aligned

/-- What is to be read on the connections of a request is framed alike. -/
def UsesFramed
    (system : System)
    (label : Label)
    (_ : System) :
    Prop :=
  match label with
  | .finish request job second _ _ =>
      (∀ held idle,
        system.held request = some held →
          held.first = .ok idle →
            FramedAlike job.mode job.request idle.1.conn.reads) ∧
        ∀ conn,
          second = .ok conn →
            FramedAlike job.mode job.request conn.reads
  | .acquire .. | .cancel _ =>
      True

/-! ## One step -/

/-- The attempt that a response comes from. -/
theorem attempt_of_forwardRequest
    {job : Job}
    {first second : Except ForwardError Conn}
    {reply : Reply}
    {released : Option Reader}
    {used : List Conn}
    (isOk :
      forwardRequest job.mode job.writeTimeout job.request job.body first
          second =
        (.ok reply released, used)) :
    (∃ conn after,
      first = .ok conn ∧
        used = [after] ∧
        sendRecvPooled job.mode job.writeTimeout job.request job.body true
            conn.handedOver =
          (.ok reply released, after)) ∨
    ∃ fresh before after,
      second = .ok fresh ∧
        used = [before, after] ∧
        sendRecvPooled job.mode job.writeTimeout job.request [] false
            fresh.handedOver =
          (.ok reply released, after) := by
  cases first with
  | error error =>
      cases isOk
  | ok conn =>
      cases attempt :
          sendRecvPooled job.mode job.writeTimeout job.request job.body
            true conn.handedOver with
      | mk result after =>
          by_cases repeated : ∃ error, result = .failed error false
          · obtain ⟨error, rfl⟩ := repeated
            cases second with
            | error other =>
                simp only [forwardRequest, attempt] at isOk
                cases isOk
            | ok fresh =>
                cases again :
                    sendRecvPooled job.mode job.writeTimeout job.request
                      [] false fresh.handedOver with
                | mk secondResult afterFresh =>
                    rw [forwardRequest_of_repeated attempt again] at isOk
                    obtain ⟨isOutcome, rfl⟩ := Prod.mk.inj isOk
                    obtain rfl := outcome_eq_ok isOutcome
                    exact .inr ⟨fresh, after, afterFresh, rfl, rfl, again⟩
          · have settled : ∀ error, result ≠ .failed error false :=
              fun error isFailed => repeated ⟨error, isFailed⟩
            rw [forwardRequest_of_settled attempt settled] at isOk
            obtain ⟨isOutcome, rfl⟩ := Prod.mk.inj isOk
            obtain rfl := outcome_eq_ok isOutcome
            exact .inl ⟨conn, after, rfl, rfl, attempt⟩

/-- What is handed back is aligned. -/
theorem aligned_of_handedBack
    {job : Job}
    {first : Except ForwardError (Pooled × Nat × Nat)}
    {second : Except ForwardError Conn}
    {secondAt : Nat}
    {back : Pooled × Nat × Nat}
    (aligned : ∀ idle, first = .ok idle → idle.1.Aligned)
    (firstAlike :
      ∀ idle,
        first = .ok idle →
          FramedAlike job.mode job.request idle.1.conn.reads)
    (secondAlike :
      ∀ conn,
        second = .ok conn →
          FramedAlike job.mode job.request conn.reads)
    (isBack : handedBack job first second secondAt = some back) :
    back.1.Aligned := by
  unfold handedBack at isBack
  split at isBack
  · rename_i reply released after isOk
    rcases attempt_of_forwardRequest isOk with
        ⟨conn, same, isFirst, isUsed, attempt⟩ |
          ⟨fresh, before, same, _, isUsed, _⟩
    · obtain rfl : after = same := by simpa using isUsed
      cases first with
      | error error =>
          cases isFirst
      | ok idle =>
          obtain rfl : idle.1.conn = conn := Except.ok.inj isFirst
          have one :=
            readsOne_of_attempt (firstAlike idle rfl) attempt
          obtain rfl := Option.some.inj isBack
          exact (aligned idle rfl).served after one
    · simp at isUsed
  · rename_i reply released before after isOk
    rcases attempt_of_forwardRequest isOk with
        ⟨conn, same, _, isUsed, _⟩ |
          ⟨fresh, other, same, rfl, isUsed, attempt⟩
    · simp at isUsed
    · obtain ⟨rfl, rfl⟩ : before = other ∧ after = same := by
        simpa using isUsed
      have one :=
        readsOne_of_attempt (secondAlike fresh rfl) attempt
      obtain rfl := Option.some.inj isBack
      exact (Pooled.aligned_new fresh).served after one
  · cases isBack

/-- A connection in a queue was there before or is what is handed back. -/
theorem mem_of_mem_putBack
    {pool : ConnPool}
    {limits : KeepAlive}
    {key other : String}
    {now : Nat}
    {back : Option (Pooled × Nat × Nat)}
    {pools : NodePools Pooled}
    {idle : IdleConn Pooled}
    (member : idle ∈ putBack pool limits key now back pools other) :
    idle ∈ pools other ∨ ∃ age, back = some (idle.conn, age) := by
  cases back with
  | none =>
      exact .inl member
  | some conn =>
      rcases ConnPool.mem_of_mem_release member with
          before | ⟨_, isNew⟩
      · exact .inl before
      · rw [isNew]
        exact .inr ⟨conn.2, rfl⟩

/-- The connections in the pool and those that requests hold are aligned. -/
structure Invariant (system : System) : Prop where
  idle : system.Aligned
  held :
    ∀ request held idle,
      system.held request = some held →
        held.first = .ok idle →
          idle.1.Aligned

theorem invariant_initial : Invariant System.initial where
  idle := by
    intro key idle member
    cases member
  held := by
    intro request held idle isHeld
    cases isHeld

/-- A connection from the pool or a new one is aligned. -/
theorem aligned_firstConn
    {taken : Option (Pooled × Nat × Nat)}
    {fresh : Except ForwardError Conn}
    {freshAt : Nat}
    {idle : Pooled × Nat × Nat}
    (aligned : ∀ idle, taken = some idle → idle.1.Aligned)
    (isFirst : firstConn taken fresh freshAt = .ok idle) :
    idle.1.Aligned := by
  cases taken with
  | some other =>
      obtain rfl := Except.ok.inj isFirst
      exact aligned other rfl
  | none =>
      cases fresh with
      | error error =>
          cases isFirst
      | ok conn =>
          obtain rfl := Except.ok.inj isFirst
          exact Pooled.aligned_new conn

/-- What other requests hold is what they held before. -/
theorem Invariant.held_of_update
    {system : System}
    {request other : Nat}
    {change : Option Held}
    {held : Held}
    {idle : Pooled × Nat × Nat}
    (invariant : Invariant system)
    (changed :
      ∀ held,
        change = some held →
          held.first = .ok idle →
            idle.1.Aligned)
    (isHeld :
      Function.update system.held request change other = some held)
    (isFirst : held.first = .ok idle) :
    idle.1.Aligned := by
  by_cases same : other = request
  · subst same
    rw [Function.update_self] at isHeld
    exact changed held isHeld isFirst
  · rw [Function.update_of_ne same] at isHeld
    exact invariant.held other held idle isHeld isFirst

/-- A step on connections that are framed alike keeps all of them aligned. -/
theorem Invariant.step
    {pool : ConnPool}
    {system next : System}
    {label : Label}
    (invariant : Invariant system)
    (taken : step? pool system label = some next)
    (framed : UsesFramed system label next) :
    Invariant next := by
  cases label with
  | acquire request key now fresh freshAt =>
      simp only [step?] at taken
      split at taken
      · cases taken
      · obtain rfl := Option.some.inj taken
        constructor
        · intro other idle member
          exact invariant.idle other idle
            (ConnPool.mem_of_mem_acquire member)
        · intro other held idle isHeld isFirst
          refine invariant.held_of_update ?_ isHeld isFirst
          rintro _ ⟨⟩ isFresh
          refine aligned_firstConn ?_ isFresh
          rintro ⟨conn, createdAt, requestCount⟩ isTaken
          obtain ⟨before, member, rfl⟩ :=
            ConnPool.mem_of_acquire isTaken
          exact invariant.idle key before member
  | finish request job second secondAt now =>
      obtain ⟨firstAlike, secondAlike⟩ := framed
      simp only [step?] at taken
      split at taken
      · cases taken
      · rename_i held isHeld
        obtain rfl := Option.some.inj taken
        constructor
        · intro other idle member
          rcases mem_of_mem_putBack member with before | ⟨age, isBack⟩
          · exact invariant.idle other idle before
          · exact aligned_of_handedBack
              (fun idle => invariant.held request held idle isHeld)
              (fun idle => firstAlike held idle isHeld)
              secondAlike isBack
        · intro other otherHeld idle isOther isFirst
          refine invariant.held_of_update ?_ isOther isFirst
          rintro _ ⟨⟩
  | cancel request =>
      simp only [step?] at taken
      split at taken
      · cases taken
      · obtain rfl := Option.some.inj taken
        constructor
        · exact invariant.idle
        · intro other held idle isHeld isFirst
          refine invariant.held_of_update ?_ isHeld isFirst
          rintro _ ⟨⟩

/--
In every run of requests whose connections are framed alike, every connection in
the pool has been read exactly to the end of its last response: nothing of the
responses is left, and nothing after them is lost.
-/
theorem idle_aligned_of_usesFramed
    (pool : ConnPool)
    (labels : List Label)
    (system : System)
    (framed : Along (step? pool) UsesFramed System.initial labels)
    (accepted : run? (step? pool) System.initial labels = some system) :
    system.Aligned := by
  have kept : Invariant system :=
    invariant_of_along
      (fun invariant taken framed => invariant.step taken framed)
      invariant_initial framed accepted
  exact kept.idle

/-- A `GET` on the buffered path, without limits of its own. -/
def sampleJob : Job where
  mode := ⟨false, fun _ => true⟩
  writeTimeout := 60
  request := { samplePost with method := "GET" }
  body := []
  limits := ⟨0, 0, 0⟩

/-- A pool of up to 8 idle connections for each key. -/
def samplePool : ConnPool where
  maxIdle := 8
  idleTimeout := fromSecs 60

/-- One request on a new connection. -/
def oneRequest (conn : Conn) : List Label :=
  [.acquire 0 "tcp:a:80" 0 (.ok conn) 0,
    .finish 0 sampleJob (.ok conn) 0 1]

/-- A response of two bytes. -/
def okResponse : Response "GET" where
  interims := []
  head :=
    { minor := '1'
      status := 200
      reason := "OK".toList
      fields :=
        [{ name := "Content-Length".toList
           text := " 2".toList
           nonempty := by decide
           token := List.all_eq_true.mp (by decide)
           oneLine := by unfold OneLine; decide }]
      minorDigit := by decide
      threeDigits := by decide
      oneLine := by unfold OneLine; decide }
  body := .plain (ascii "ok")
  interim := by simp
  final := by decide
  fits := by
    refine ⟨ascii "ok", ?_, rfl⟩
    decide

/-- The upstream sends it in two segments, and waits. -/
def okConn : Conn where
  writes := []
  reads :=
    Event.ofBytes (ascii "HTTP/1.1 200 OK\r\nContent-Le") ++
      Event.ofBytes (ascii "ngth: 2\r\n\r\nok") ++ [.stall]
  sent := []

theorem framedAlike_okConn :
    FramedAlike sampleJob.mode sampleJob.request okConn.reads := by
  refine .framed okResponse [.stall] ⟨_, rfl, ?_, ?_⟩ ⟨.inl rfl, ?_, ?_⟩
  · decide
  · decide
  · decide
  · apply (readsBody_plain_iff (by decide)).mpr
    decide

/-- Its connection goes to the pool, and is aligned there. -/
theorem idle_aligned_after_ok :
    ∃ system,
      run? (step? samplePool) System.initial (oneRequest okConn) =
          some system ∧
        (system.pools "tcp:a:80").map (·.conn.methods) = [["GET"]] ∧
        system.Aligned := by
  refine ⟨_, rfl, ?_, idle_aligned_of_usesFramed samplePool
    (oneRequest okConn) _ ?_ rfl⟩
  · decide +kernel
  · rintro _ ⟨⟩
    refine ⟨trivial, ?_⟩
    rintro _ ⟨⟩
    refine ⟨⟨?_, ?_⟩, trivial⟩
    · rintro _ _ ⟨⟩ ⟨⟩
      exact framedAlike_okConn
    · rintro _ ⟨⟩
      exact framedAlike_okConn

/-! ## An interim response -/

/-- A head is not shorter than its status line and the blank line. -/
theorem seventeen_le_length_head (head : Head) :
    17 ≤ head.bytes.length := by
  have lengths :=
    HttpText.length_le_encodeUtf8
      (head.statusLine ++ head.fields.flatMap Field.line ++ crlf)
  have statusLine : 15 ≤ head.statusLine.length := by
    simp [Head.statusLine, protocol, statusDigits, crlf]
  have blank : crlf.length = 2 := rfl
  rw [List.length_append, List.length_append] at lengths
  rw [Head.bytes]
  omega

/-- The bytes of an interim response. -/
def earlyHints : List UInt8 :=
  ascii "HTTP/1.1 103 Early Hints\r\n\r\n"

/-- An interim response is not a complete one. -/
theorem not_isResponse_earlyHints (method : String) :
    ¬ IsResponse method earlyHints := by
  rintro ⟨response, isBytes⟩
  cases interims : response.interims with
  | nil =>
      have holds :
          Holds ⟨earlyHints, ([] : List (Event IoError))⟩
            (response.head.bytes ++ response.body.bytes) [] := by
        refine ⟨[], rfl, by simp, ?_⟩
        rw [← isBytes, Response.bytes, interims]
        simp
      have line :
          readTextLine ⟨earlyHints, []⟩ =
            (.ok "HTTP/1.1 103 Early Hints\r\n".toList,
              ⟨ascii "\r\n", []⟩) := by
        decide +kernel
      have code :
          parseStatusCode "HTTP/1.1 103 Early Hints\r\n".toList =
            103 := by
        decide
      obtain ⟨after, isLine, _⟩ := readTextLine_head holds
      rw [line] at isLine
      have sameLine := LineText.ok.inj (Prod.mk.inj isLine).1
      have status := parseStatusCode_statusLine response.head
      rw [← sameLine, code] at status
      have final := response.final
      omega
  | cons first others =>
      have total := congrArg List.length isBytes
      have isLength : earlyHints.length = 28 := by
        decide
      have firstHead := seventeen_le_length_head first
      have finalHead := seventeen_le_length_head response.head
      simp only [Response.bytes, interims, List.flatMap_cons,
        List.length_append, isLength] at total
      omega

/-- An upstream that sends early hints, then the response, and waits. -/
def hintingConn : Conn where
  writes := []
  reads :=
    Event.ofBytes earlyHints ++ Event.ofBytes okResponse.bytes ++
      [.stall]
  sent := []

/--
The early hints are taken for the response.  The connection goes to the pool
with the response still to be read, and the next request on it would read that.
-/
theorem not_aligned_after_early_hints :
    ∃ system,
      run? (step? samplePool) System.initial (oneRequest hintingConn) =
          some system ∧
        ¬ system.Aligned := by
  obtain ⟨system, accepted, inPool⟩ :
      ∃ system,
        run? (step? samplePool) System.initial
            (oneRequest hintingConn) =
            some system ∧
          (system.pools "tcp:a:80").map
              (fun idle =>
                (idle.conn.conn.reads, idle.conn.opened,
                  idle.conn.methods)) =
            [(Event.ofBytes okResponse.bytes ++ [.stall],
              hintingConn.reads, ["GET"])] :=
    ⟨_, rfl, by decide +kernel⟩
  refine ⟨system, accepted, fun aligned => ?_⟩
  obtain ⟨idle, member, same⟩ :=
    List.mem_map.mp (inPool ▸ List.mem_singleton_self _)
  obtain ⟨isLeft, others⟩ := Prod.mk.inj same
  obtain ⟨isOpened, isMethods⟩ := Prod.mk.inj others
  obtain ⟨answers, oneEach, isRead⟩ := aligned "tcp:a:80" idle member
  rw [isMethods] at oneEach
  rw [isLeft, isOpened] at isRead
  obtain ⟨answer, rest, isAnswer, noOthers, rfl⟩ :=
    List.forall₂_cons_left_iff.mp oneEach
  obtain rfl := List.forall₂_nil_left_iff.mp noOthers
  have both :
      earlyHints ++ okResponse.bytes = answer ++ okResponse.bytes := by
    simpa [hintingConn, flatMap_ofBytes, Event.bytes] using isRead
  rw [← List.append_cancel_right both] at isAnswer
  exact not_isResponse_earlyHints "GET" isAnswer

end Sweety.AlignedPool
