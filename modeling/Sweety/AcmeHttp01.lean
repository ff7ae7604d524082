import Mathlib.Data.List.Basic
import Sweety.AcmeOrder

namespace Sweety.AcmeHttp01

open AcmeOrder

/-!
# Certificates over HTTP

Model of `request_acme_cert` (`server/acme.rs`).  The tokens of the challenges
are written to a map that the HTTP handler answers from, and removed again at
some of the exits.  The key authorization of a token is the token with the
thumbprint of the account's key.
-/

/-! ## The function -/

/-- `ACME_HTTP01_TOKENS`. -/
abbrev Tokens :=
  String → Option String

/-- `key_authorization`. -/
def keyAuthorization (thumbprint token : String) : String :=
  token ++ "." ++ thumbprint

/-- `for t in .. { ACME_HTTP01_TOKENS.remove(t); }`. -/
def removeAll (removed : List String) (tokens : Tokens) : Tokens :=
  removed.foldl (fun tokens token => Function.update tokens token none) tokens

/-- An authorization, and what `set_ready` comes to if it is called. -/
structure AuthzStep where
  next : Except String Authorization
  setReady : Reply Unit
  deriving Repr, DecidableEq

/-- What is printed of a challenge of an invalid order. -/
structure ChallengeDetail where
  type : String
  status : String
  error : Option String
  deriving Repr, DecidableEq

/-- One round of polling. -/
structure Poll where
  /-- `refresh`: the status and the error of the order. -/
  state : Reply (OrderStatus × Option String)
  /-- The authorizations of an invalid order, unless the future is dropped. -/
  details : Option (List (String × List ChallengeDetail))
  pastDeadline : Bool
  deriving Repr, DecidableEq

/-- What the server answers, in the order of the awaits. -/
structure Script where
  thumbprint : String
  account : Reply Unit
  order : Reply Unit
  authorizations : List AuthzStep
  /-- The stream ends, or else the future is dropped when more is awaited. -/
  streamEnds : Bool
  /-- The future is dropped when there is no further round. -/
  polls : List Poll
  finalize : Reply String
  certificate : Reply String
  deriving Repr, DecidableEq

/-- How a part of the function goes on. -/
inductive Flow (Value : Type) where
  | next (value : Value) (tokens : Tokens)
  | left (exit : Exit) (tokens : Tokens)

section Function

variable (domains : List String) (script : Script)

/-- The loop over the authorizations, with `challenges_to_cleanup`. -/
def authorizationLoop (pushed : List String) :
    List AuthzStep → Tokens → Flow (List String)
  | [], tokens =>
      if script.streamEnds then
        .next pushed tokens
      else
        .left .dropped tokens
  | step :: rest, tokens =>
      match examine "HTTP-01" domains step.next with
      | .left exit =>
          .left exit tokens
      | .skipped =>
          authorizationLoop pushed rest tokens
      | .challenge identifier token =>
          if token = "" then
            authorizationLoop pushed rest tokens
          else
            let written := Function.update tokens token
              (some (keyAuthorization script.thumbprint token))
            match awaited
                ["通知 ACME challenge ready 失败 (" ++ identifier ++ ")"]
                step.setReady with
            | .error exit =>
                .left exit written
            | .ok () =>
                authorizationLoop (pushed ++ [token]) rest written

/-- The lines about one authorization of an invalid order. -/
def detailLines (errors : List String)
    (authorization : String × List ChallengeDetail) : List String :=
  let errors := errors ++ authorization.2.filterMap fun challenge =>
    challenge.error.map fun error =>
      "[" ++ authorization.1 ++ "] type=" ++ challenge.type ++ " status=" ++
        challenge.status ++ " error=" ++ error
  if errors = [] then
    authorization.2.map fun challenge =>
      "[" ++ authorization.1 ++ "] type=" ++ challenge.type ++ " status=" ++
        challenge.status ++ " (无 error 字段)"
  else
    errors

/-- `detail`. -/
def detail (authorizations : List (String × List ChallengeDetail)) :
    String :=
  match authorizations.foldl detailLines [] with
  | [] =>
      "无法获取详情"
  | errors =>
      "; ".intercalate errors

/-- The loop that polls the order. -/
def pollLoop (pushed : List String) : List Poll → Tokens → Flow Unit
  | [], tokens =>
      .left .dropped tokens
  | poll :: rest, tokens =>
      match awaited ["刷新 ACME 订单状态失败"] poll.state with
      | .error exit =>
          .left exit tokens
      | .ok (_, some error) =>
          .left
            (.failed ["ACME 订单验证失败: " ++ error ++ "，域名: " ++
              display domains])
            (removeAll pushed tokens)
      | .ok (status, none) =>
          match status with
          | .ready | .valid =>
              .next () tokens
          | .invalid =>
              match poll.details with
              | none =>
                  .left .dropped tokens
              | some authorizations =>
                  .left
                    (.failed ["ACME 订单 Invalid，域名: " ++ display domains ++
                      "。Challenge 详情: " ++ detail authorizations])
                    (removeAll pushed tokens)
          | .pending | .processing =>
              if poll.pastDeadline then
                .left
                  (.failed ["ACME 订单验证超时（5分钟），最后状态: " ++
                    status.debug ++ "，域名: " ++ display domains])
                  (removeAll pushed tokens)
              else
                pollLoop pushed rest tokens

/-- `request_acme_cert`. -/
def requestAcmeCert (tokens : Tokens) : Exit × Tokens :=
  match openOrder domains script.account script.order with
  | .error exit =>
      (exit, tokens)
  | .ok () =>
      match authorizationLoop domains script [] script.authorizations
          tokens with
      | .left exit tokens =>
          (exit, tokens)
      | .next pushed tokens =>
          if pushed = [] then
            (.failed ["没有可用的 HTTP-01 challenge（所有 token 为空？），域名: " ++
              display domains], tokens)
          else
            match pollLoop domains pushed script.polls tokens with
            | .left exit tokens =>
                (exit, tokens)
            | .next () tokens =>
                (issue "ACME" script.finalize script.certificate,
                  removeAll pushed tokens)

end Function

/-! ## What is written -/

/-- The token that a step of the loop writes. -/
def AuthzStep.written? (step : AuthzStep) : Option String :=
  match step.next with
  | .ok ⟨.pending, _, some token⟩ =>
      if token = "" then none else some token
  | _ =>
      none

/-- The loop goes on after the step. -/
def AuthzStep.goesOn (step : AuthzStep) : Bool :=
  match step.next with
  | .ok ⟨.valid, _, _⟩ =>
      true
  | .ok ⟨.pending, _, some token⟩ =>
      decide (token = "" ∨ step.setReady = some (.ok ()))
  | _ =>
      false

/-- The tokens written up to the step at which the loop is left. -/
def written : List AuthzStep → List String
  | [] =>
      []
  | step :: rest =>
      step.written?.toList ++ if step.goesOn then written rest else []

/-- The loop over the authorizations comes to its end. -/
structure Script.Completes (script : Script) : Prop where
  goesOn : ∀ step ∈ script.authorizations, step.goesOn = true
  streamEnds : script.streamEnds = true

/-- The map with the key authorizations of some tokens. -/
def writeAll (thumbprint : String) (added : List String) (tokens : Tokens) :
    Tokens :=
  added.foldl
    (fun tokens token =>
      Function.update tokens token (some (keyAuthorization thumbprint token)))
    tokens

section Tokens

variable
  {thumbprint : String}
  {keys : List String}
  {tokens : Tokens}

/-- What a map says after several keys have been set. -/
theorem foldl_update_apply
    (value : String → Option String)
    (token : String) :
    keys.foldl (fun tokens key => Function.update tokens key (value key))
        tokens token =
      if token ∈ keys then value token else tokens token := by
  induction keys generalizing tokens with
  | nil =>
      rfl
  | cons key rest inductionHypothesis =>
      rw [List.foldl_cons, inductionHypothesis]
      by_cases inRest : token ∈ rest
      · rw [if_pos inRest, if_pos (List.mem_cons_of_mem key inRest)]
      · by_cases isKey : token = key
        · subst isKey
          rw [if_neg inRest, if_pos List.mem_cons_self, Function.update_self]
        · rw [if_neg inRest, if_neg (by simp [isKey, inRest]),
            Function.update_of_ne isKey]

theorem writeAll_apply (token : String) :
    writeAll thumbprint keys tokens token =
      if token ∈ keys then some (keyAuthorization thumbprint token)
      else tokens token :=
  foldl_update_apply (fun key => some (keyAuthorization thumbprint key)) token

theorem removeAll_apply (token : String) :
    removeAll keys tokens token =
      if token ∈ keys then none else tokens token :=
  foldl_update_apply (fun _ => none) token

/-- Writing changes nothing only where the same was there before. -/
theorem writeAll_eq_iff :
    writeAll thumbprint keys tokens = tokens ↔
      ∀ token ∈ keys,
        tokens token = some (keyAuthorization thumbprint token) := by
  constructor
  · intro same token member
    rw [← same, writeAll_apply, if_pos member]
  · intro present
    funext token
    rw [writeAll_apply]
    split
    · rename_i member
      exact (present token member).symm
    · rfl

/-- Removing what was written changes nothing only where nothing was before. -/
theorem removeAll_writeAll_eq_iff :
    removeAll keys (writeAll thumbprint keys tokens) = tokens ↔
      ∀ token ∈ keys, tokens token = none := by
  constructor
  · intro same token member
    rw [← same, removeAll_apply, if_pos member]
  · intro absent
    funext token
    rw [removeAll_apply, writeAll_apply]
    split
    · rename_i member
      exact (absent token member).symm
    · rfl

end Tokens

/-! ## The two loops -/

section Loops

variable
  {domains : List String}
  {script : Script}
  {pushed : List String}
  {tokens : Tokens}

theorem authorizationLoop_of_goesOn
    {step : AuthzStep}
    (rest : List AuthzStep)
    (goesOn : step.goesOn = true) :
    authorizationLoop domains script pushed (step :: rest) tokens =
      authorizationLoop domains script (pushed ++ step.written?.toList) rest
        (writeAll script.thumbprint step.written?.toList tokens) := by
  obtain ⟨next, setReady⟩ := step
  match next with
  | .error error =>
      nomatch goesOn
  | .ok ⟨.valid, identifier, challenge⟩ =>
      rw [authorizationLoop]
      change _ = authorizationLoop domains script (pushed ++ []) rest tokens
      rw [List.append_nil]
      rfl
  | .ok ⟨.pending, identifier, none⟩ =>
      nomatch goesOn
  | .ok ⟨.pending, identifier, some token⟩ =>
      rw [authorizationLoop]
      by_cases isEmpty : token = ""
      · subst isEmpty
        change _ = authorizationLoop domains script (pushed ++ []) rest tokens
        rw [List.append_nil]
        rfl
      · have isReady : setReady = some (.ok ()) :=
          (of_decide_eq_true goesOn).resolve_left isEmpty
        have isWritten :
            AuthzStep.written? ⟨.ok ⟨.pending, identifier, some token⟩,
              setReady⟩ = some token :=
          if_neg isEmpty
        rw [isWritten, isReady]
        exact if_neg isEmpty
  | .ok ⟨.invalid, identifier, challenge⟩ =>
      nomatch goesOn
  | .ok ⟨.revoked, identifier, challenge⟩ =>
      nomatch goesOn
  | .ok ⟨.expired, identifier, challenge⟩ =>
      nomatch goesOn
  | .ok ⟨.deactivated, identifier, challenge⟩ =>
      nomatch goesOn

theorem authorizationLoop_of_not_goesOn
    {step : AuthzStep}
    (rest : List AuthzStep)
    (stops : step.goesOn = false) :
    ∃ exit,
      authorizationLoop domains script pushed (step :: rest) tokens =
          .left exit
            (writeAll script.thumbprint step.written?.toList tokens) ∧
        exit.Fails := by
  have failed (chain : List String) : (Exit.failed chain).Fails :=
    fun certificate key isOk => nomatch isOk
  obtain ⟨next, setReady⟩ := step
  match next with
  | .error error =>
      exact ⟨_, rfl, failed _⟩
  | .ok ⟨.valid, identifier, challenge⟩ =>
      nomatch stops
  | .ok ⟨.pending, identifier, none⟩ =>
      exact ⟨_, rfl, failed _⟩
  | .ok ⟨.pending, identifier, some token⟩ =>
      have neither := of_decide_eq_false stops
      rw [not_or] at neither
      obtain ⟨notEmpty, notReady⟩ := neither
      have isWritten :
          AuthzStep.written? ⟨.ok ⟨.pending, identifier, some token⟩,
            setReady⟩ = some token :=
        if_neg notEmpty
      rw [isWritten, authorizationLoop]
      cases isReply : awaited
          ["通知 ACME challenge ready 失败 (" ++ identifier ++ ")"] setReady with
      | ok value =>
          exact absurd (awaited_eq_ok_iff.mp isReply) notReady
      | error exit =>
          refine ⟨exit, ?_, fails_of_awaited isReply⟩
          change (if token = "" then _ else _) = _
          rw [if_neg notEmpty]
          dsimp only
          rw [isReply]
          rfl
  | .ok ⟨.invalid, identifier, challenge⟩ =>
      exact ⟨_, rfl, failed _⟩
  | .ok ⟨.revoked, identifier, challenge⟩ =>
      exact ⟨_, rfl, failed _⟩
  | .ok ⟨.expired, identifier, challenge⟩ =>
      exact ⟨_, rfl, failed _⟩
  | .ok ⟨.deactivated, identifier, challenge⟩ =>
      exact ⟨_, rfl, failed _⟩

theorem writeAll_append (first second : List String) :
    writeAll script.thumbprint (first ++ second) tokens =
      writeAll script.thumbprint second
        (writeAll script.thumbprint first tokens) :=
  List.foldl_append

/-- Where no step stops the loop, all tokens are written and remembered. -/
theorem authorizationLoop_of_completes
    {steps : List AuthzStep}
    (goesOn : ∀ step ∈ steps, step.goesOn = true)
    (streamEnds : script.streamEnds = true) :
    authorizationLoop domains script pushed steps tokens =
      .next (pushed ++ written steps)
        (writeAll script.thumbprint (written steps) tokens) := by
  induction steps generalizing pushed tokens with
  | nil =>
      rw [authorizationLoop, if_pos streamEnds, written, List.append_nil]
      rfl
  | cons step rest inductionHypothesis =>
      obtain ⟨goesOn, restGoesOn⟩ := List.forall_mem_cons.mp goesOn
      rw [authorizationLoop_of_goesOn rest goesOn,
        inductionHypothesis restGoesOn, written, if_pos goesOn,
        writeAll_append, List.append_assoc]

/-- Where the loop is left, the tokens written so far stay. -/
theorem authorizationLoop_of_not_completes
    {steps : List AuthzStep}
    (stops :
      ¬((∀ step ∈ steps, step.goesOn = true) ∧ script.streamEnds = true)) :
    ∃ exit,
      authorizationLoop domains script pushed steps tokens =
          .left exit (writeAll script.thumbprint (written steps) tokens) ∧
        exit.Fails := by
  induction steps generalizing pushed tokens with
  | nil =>
      have notEnds : ¬script.streamEnds = true :=
        fun ends => stops ⟨fun step => (nomatch ·), ends⟩
      refine ⟨.dropped, ?_, fun certificate key isOk => nomatch isOk⟩
      rw [authorizationLoop, if_neg notEnds]
      rfl
  | cons step rest inductionHypothesis =>
      cases goesOn : step.goesOn with
      | false =>
          obtain ⟨exit, isLeft, fails⟩ :=
            @authorizationLoop_of_not_goesOn domains script pushed tokens step
              rest goesOn
          refine ⟨exit, isLeft.trans ?_, fails⟩
          rw [written, goesOn, if_neg Bool.false_ne_true, List.append_nil]
      | true =>
          have restStops :
              ¬((∀ step ∈ rest, step.goesOn = true) ∧
                script.streamEnds = true) :=
            fun ends => stops
              ⟨List.forall_mem_cons.mpr ⟨goesOn, ends.1⟩, ends.2⟩
          obtain ⟨exit, isLeft, fails⟩ :=
            @inductionHypothesis (pushed ++ step.written?.toList)
              (writeAll script.thumbprint step.written?.toList tokens)
              restStops
          refine ⟨exit, ?_, fails⟩
          rw [authorizationLoop_of_goesOn rest goesOn, isLeft, written,
            if_pos goesOn, writeAll_append]

/-- The order is neither done nor failed, and there is time left. -/
def Poll.Waits (poll : Poll) : Prop :=
  poll.pastDeadline = false ∧
    (poll.state = some (.ok (.pending, none)) ∨
      poll.state = some (.ok (.processing, none)))

/-- The tokens are removed after the round. -/
inductive Poll.Removes : Poll → Prop where
  | error
      {status : OrderStatus}
      {error : String}
      {details : Option (List (String × List ChallengeDetail))}
      {pastDeadline : Bool} :
      Poll.Removes ⟨some (.ok (status, some error)), details, pastDeadline⟩
  | done
      {status : OrderStatus}
      {details : Option (List (String × List ChallengeDetail))}
      {pastDeadline : Bool}
      (isDone : status = .ready ∨ status = .valid) :
      Poll.Removes ⟨some (.ok (status, none)), details, pastDeadline⟩
  | invalid
      {details : List (String × List ChallengeDetail)}
      {pastDeadline : Bool} :
      Poll.Removes ⟨some (.ok (.invalid, none)), some details, pastDeadline⟩
  | timeout
      {status : OrderStatus}
      {details : Option (List (String × List ChallengeDetail))}
      (isOpen : status = .pending ∨ status = .processing) :
      Poll.Removes ⟨some (.ok (status, none)), details, true⟩

/-- Polling comes to a round after which the tokens are removed. -/
inductive Settles : List Poll → Prop where
  | now
      {poll : Poll}
      {rest : List Poll}
      (removes : poll.Removes) :
      Settles (poll :: rest)
  | later
      {poll : Poll}
      {rest : List Poll}
      (waits : poll.Waits)
      (settles : Settles rest) :
      Settles (poll :: rest)

/-- Polling comes to a round in which the order is ready. -/
inductive BecomesReady : List Poll → Prop where
  | now
      {details : Option (List (String × List ChallengeDetail))}
      {pastDeadline : Bool}
      {rest : List Poll} :
      BecomesReady (⟨some (.ok (.ready, none)), details, pastDeadline⟩ :: rest)
  | later
      {poll : Poll}
      {rest : List Poll}
      (waits : poll.Waits)
      (ready : BecomesReady rest) :
      BecomesReady (poll :: rest)

theorem pollLoop_of_waits
    {poll : Poll}
    (rest : List Poll)
    (waits : poll.Waits) :
    pollLoop domains pushed (poll :: rest) tokens =
      pollLoop domains pushed rest tokens := by
  obtain ⟨state, details, pastDeadline⟩ := poll
  obtain ⟨isInTime, isState⟩ := waits
  have isInTime : pastDeadline = false := isInTime
  subst isInTime
  rcases isState with isState | isState
  · have isState : state = some (.ok (.pending, none)) := isState
    rw [isState]
    rfl
  · have isState : state = some (.ok (.processing, none)) := isState
    rw [isState]
    rfl

theorem pollLoop_of_removes
    {poll : Poll}
    (rest : List Poll)
    (removes : poll.Removes) :
    pollLoop domains pushed (poll :: rest) tokens = .next () tokens ∨
      ∃ exit,
        pollLoop domains pushed (poll :: rest) tokens =
            .left exit (removeAll pushed tokens) ∧
          exit.Fails := by
  have failed (chain : List String) : (Exit.failed chain).Fails :=
    fun certificate key isOk => nomatch isOk
  cases removes with
  | error =>
      exact .inr ⟨_, rfl, failed _⟩
  | done isDone =>
      rcases isDone with rfl | rfl
      · exact .inl rfl
      · exact .inl rfl
  | invalid =>
      exact .inr ⟨_, rfl, failed _⟩
  | timeout isOpen =>
      rcases isOpen with rfl | rfl
      · exact .inr ⟨_, rfl, failed _⟩
      · exact .inr ⟨_, rfl, failed _⟩

/-- A round that neither waits nor removes the tokens leaves them there. -/
theorem pollLoop_of_neither
    {poll : Poll}
    (rest : List Poll)
    (notWaits : ¬poll.Waits)
    (notRemoves : ¬poll.Removes) :
    ∃ exit,
      pollLoop domains pushed (poll :: rest) tokens = .left exit tokens ∧
        exit.Fails := by
  obtain ⟨state, details, pastDeadline⟩ := poll
  match state with
  | none =>
      exact ⟨_, rfl, fun certificate key isOk => nomatch isOk⟩
  | some (.error error) =>
      exact ⟨_, rfl, fun certificate key isOk => nomatch isOk⟩
  | some (.ok (status, some error)) =>
      exact absurd .error notRemoves
  | some (.ok (.ready, none)) =>
      exact absurd (.done (.inl rfl)) notRemoves
  | some (.ok (.valid, none)) =>
      exact absurd (.done (.inr rfl)) notRemoves
  | some (.ok (.invalid, none)) =>
      cases details with
      | none =>
          exact ⟨_, rfl, fun certificate key isOk => nomatch isOk⟩
      | some details =>
          exact absurd .invalid notRemoves
  | some (.ok (.pending, none)) =>
      cases pastDeadline with
      | false =>
          exact absurd ⟨rfl, .inl rfl⟩ notWaits
      | true =>
          exact absurd (.timeout (.inl rfl)) notRemoves
  | some (.ok (.processing, none)) =>
      cases pastDeadline with
      | false =>
          exact absurd ⟨rfl, .inr rfl⟩ notWaits
      | true =>
          exact absurd (.timeout (.inr rfl)) notRemoves

theorem pollLoop_of_settles
    {polls : List Poll}
    (settles : Settles polls) :
    pollLoop domains pushed polls tokens = .next () tokens ∨
      ∃ exit,
        pollLoop domains pushed polls tokens =
            .left exit (removeAll pushed tokens) ∧
          exit.Fails := by
  induction settles with
  | now removes =>
      exact pollLoop_of_removes _ removes
  | later waits _ inductionHypothesis =>
      rw [pollLoop_of_waits _ waits]
      exact inductionHypothesis

theorem pollLoop_of_not_settles
    {polls : List Poll}
    (unsettled : ¬Settles polls) :
    ∃ exit,
      pollLoop domains pushed polls tokens = .left exit tokens ∧
        exit.Fails := by
  induction polls with
  | nil =>
      exact ⟨.dropped, rfl, fun certificate key isOk => nomatch isOk⟩
  | cons poll rest inductionHypothesis =>
      by_cases waits : poll.Waits
      · rw [pollLoop_of_waits rest waits]
        exact inductionHypothesis fun settles =>
          unsettled (.later waits settles)
      · exact pollLoop_of_neither rest waits fun removes =>
          unsettled (.now removes)

theorem pollLoop_of_becomesReady
    {polls : List Poll}
    (ready : BecomesReady polls) :
    pollLoop domains pushed polls tokens = .next () tokens := by
  induction ready with
  | now =>
      rfl
  | later waits _ inductionHypothesis =>
      rw [pollLoop_of_waits _ waits, inductionHypothesis]

end Loops

/-! ## The whole run -/

/-- The server lets the order through if the challenges are met. -/
inductive AuthzStep.Usable : AuthzStep → Prop where
  | valid
      {identifier : String}
      {challenge : Option String}
      {setReady : Reply Unit} :
      AuthzStep.Usable ⟨.ok ⟨.valid, identifier, challenge⟩, setReady⟩
  | pending
      {identifier token : String}
      (nonempty : token ≠ "") :
      AuthzStep.Usable
        ⟨.ok ⟨.pending, identifier, some token⟩, some (.ok ())⟩

/-- Every call succeeds, and the order becomes ready. -/
structure Willing (domains : List String) (script : Script) : Prop where
  opens : Opens domains script.account script.order
  usable : ∀ step ∈ script.authorizations, step.Usable
  streamEnds : script.streamEnds = true
  ready : BecomesReady script.polls
  finalize : ∃ key, script.finalize = some (.ok key)
  certificate : ∃ certificate, script.certificate = some (.ok certificate)

/-- The authorization is a pending one. -/
def AuthzStep.IsPending (step : AuthzStep) : Prop :=
  ∃ identifier challenge, step.next = .ok ⟨.pending, identifier, challenge⟩

/-- What was in the map before the call is there again. -/
structure Restorable
    (domains : List String)
    (script : Script)
    (tokens : Tokens) :
    Prop where
  /-- What is removed was not in the map before. -/
  removed :
    Opens domains script.account script.order →
      script.Completes → Settles script.polls →
        ∀ token ∈ written script.authorizations, tokens token = none
  /-- What is not removed was in the map before. -/
  kept :
    Opens domains script.account script.order →
      ¬(script.Completes ∧ Settles script.polls) →
        ∀ token ∈ written script.authorizations,
          tokens token = some (keyAuthorization script.thumbprint token)

section Run

variable
  {domains : List String}
  {script : Script}
  {tokens : Tokens}

theorem tokens_of_not_opens
    (notOpens : ¬Opens domains script.account script.order) :
    (requestAcmeCert domains script tokens).2 = tokens := by
  obtain ⟨exit, isLeft, -⟩ := openOrder_error notOpens
  rw [requestAcmeCert, isLeft]

theorem tokens_of_not_completes
    (opens : Opens domains script.account script.order)
    (stops : ¬script.Completes) :
    (requestAcmeCert domains script tokens).2 =
      writeAll script.thumbprint (written script.authorizations) tokens := by
  obtain ⟨exit, isLeft, -⟩ :=
    @authorizationLoop_of_not_completes domains script [] tokens
      script.authorizations fun ends => stops ⟨ends.1, ends.2⟩
  rw [requestAcmeCert, openOrder_ok opens]
  dsimp only
  rw [isLeft]

/-- What follows the loop over the authorizations. -/
theorem requestAcmeCert_of_completes
    (opens : Opens domains script.account script.order)
    (completes : script.Completes)
    (nonempty : written script.authorizations ≠ []) :
    requestAcmeCert domains script tokens =
      match pollLoop domains (written script.authorizations) script.polls
          (writeAll script.thumbprint (written script.authorizations)
            tokens) with
      | .left exit tokens =>
          (exit, tokens)
      | .next () tokens =>
          (issue "ACME" script.finalize script.certificate,
            removeAll (written script.authorizations) tokens) := by
  have isLoop :=
    @authorizationLoop_of_completes domains script [] tokens
      script.authorizations completes.goesOn completes.streamEnds
  rw [requestAcmeCert, openOrder_ok opens]
  dsimp only
  rw [isLoop]
  exact if_neg nonempty

theorem requestAcmeCert_of_written_nil
    (opens : Opens domains script.account script.order)
    (completes : script.Completes)
    (isNil : written script.authorizations = []) :
    ∃ chain,
      requestAcmeCert domains script tokens = (.failed chain, tokens) := by
  have isLoop :=
    @authorizationLoop_of_completes domains script [] tokens
      script.authorizations completes.goesOn completes.streamEnds
  rw [isNil] at isLoop
  rw [requestAcmeCert, openOrder_ok opens]
  dsimp only
  rw [isLoop]
  exact ⟨_, rfl⟩

theorem tokens_of_settles
    (opens : Opens domains script.account script.order)
    (completes : script.Completes)
    (settles : Settles script.polls) :
    (requestAcmeCert domains script tokens).2 =
      removeAll (written script.authorizations)
        (writeAll script.thumbprint (written script.authorizations)
          tokens) := by
  by_cases isNil : written script.authorizations = []
  · obtain ⟨chain, isRun⟩ :=
      @requestAcmeCert_of_written_nil domains script tokens opens completes
        isNil
    rw [isRun, isNil]
    rfl
  · rw [requestAcmeCert_of_completes opens completes isNil]
    rcases pollLoop_of_settles settles with isNext | ⟨exit, isLeft, -⟩
    · rw [isNext]
    · rw [isLeft]

theorem tokens_of_not_settles
    (opens : Opens domains script.account script.order)
    (completes : script.Completes)
    (unsettled : ¬Settles script.polls) :
    (requestAcmeCert domains script tokens).2 =
      writeAll script.thumbprint (written script.authorizations) tokens := by
  by_cases isNil : written script.authorizations = []
  · obtain ⟨chain, isRun⟩ :=
      @requestAcmeCert_of_written_nil domains script tokens opens completes
        isNil
    rw [isRun, isNil]
    rfl
  · rw [requestAcmeCert_of_completes opens completes isNil]
    obtain ⟨exit, isLeft, -⟩ := pollLoop_of_not_settles unsettled
    rw [isLeft]

/-- The map is as before the call exactly when it could be restored. -/
theorem tokens_eq_iff :
    (requestAcmeCert domains script tokens).2 = tokens ↔
      Restorable domains script tokens := by
  by_cases opens : Opens domains script.account script.order
  · by_cases ends : script.Completes ∧ Settles script.polls
    · rw [tokens_of_settles opens ends.1 ends.2, removeAll_writeAll_eq_iff]
      exact ⟨fun absent => ⟨fun _ _ _ => absent,
          fun _ notEnds => absurd ends notEnds⟩,
        fun restorable => restorable.removed opens ends.1 ends.2⟩
    · have stays :
          (requestAcmeCert domains script tokens).2 =
            writeAll script.thumbprint (written script.authorizations)
              tokens := by
        by_cases completes : script.Completes
        · exact tokens_of_not_settles opens completes fun settles =>
            ends ⟨completes, settles⟩
        · exact tokens_of_not_completes opens completes
      rw [stays, writeAll_eq_iff]
      exact ⟨fun present => ⟨fun _ completes settles =>
          absurd ⟨completes, settles⟩ ends, fun _ _ => present⟩,
        fun restorable => restorable.kept opens ends⟩
  · exact ⟨fun _ => ⟨fun isOpen => absurd isOpen opens,
      fun isOpen => absurd isOpen opens⟩,
      fun _ => tokens_of_not_opens opens⟩

theorem AuthzStep.Usable.goesOn
    {step : AuthzStep}
    (usable : step.Usable) :
    step.goesOn = true := by
  cases usable with
  | valid =>
      rfl
  | pending nonempty =>
      exact decide_eq_true (.inr rfl)

/-- A willing server's pending authorizations are those that write a token. -/
theorem AuthzStep.Usable.written?_eq_none_iff
    {step : AuthzStep}
    (usable : step.Usable) :
    step.written? = none ↔ ¬step.IsPending := by
  cases usable with
  | @valid identifier challenge setReady =>
      refine iff_of_true rfl ?_
      rintro ⟨_, _, isPending⟩
      nomatch isPending
  | @pending identifier token nonempty =>
      refine iff_of_false ?_ (not_not_intro ⟨identifier, some token, rfl⟩)
      have isWritten :
          AuthzStep.written? ⟨.ok ⟨.pending, identifier, some token⟩,
            some (.ok ())⟩ = some token :=
        if_neg nonempty
      rw [isWritten]
      exact Option.some_ne_none token

theorem written_eq_nil_iff
    {steps : List AuthzStep}
    (usable : ∀ step ∈ steps, step.Usable) :
    written steps = [] ↔ ¬∃ step ∈ steps, step.IsPending := by
  induction steps with
  | nil =>
      exact iff_of_true rfl (by simp)
  | cons step rest inductionHypothesis =>
      obtain ⟨stepUsable, restUsable⟩ := List.forall_mem_cons.mp usable
      rw [written, if_pos stepUsable.goesOn, List.append_eq_nil_iff,
        inductionHypothesis restUsable, Option.toList_eq_nil_iff,
        stepUsable.written?_eq_none_iff, List.exists_mem_cons_iff, not_or]

/-- A willing server's certificate is fetched if something was pending. -/
theorem issues_iff (willing : Willing domains script) :
    (∃ certificate key,
        (requestAcmeCert domains script tokens).1 = .ok certificate key) ↔
      ∃ step ∈ script.authorizations, step.IsPending := by
  have completes : script.Completes :=
    ⟨fun step member => (willing.usable step member).goesOn,
      willing.streamEnds⟩
  by_cases isNil : written script.authorizations = []
  · obtain ⟨chain, isRun⟩ :=
      @requestAcmeCert_of_written_nil domains script tokens willing.opens
        completes isNil
    rw [isRun]
    refine iff_of_false ?_ ((written_eq_nil_iff willing.usable).mp isNil)
    rintro ⟨certificate, key, isOk⟩
    nomatch isOk
  · obtain ⟨key, isKey⟩ := willing.finalize
    obtain ⟨certificate, isCertificate⟩ := willing.certificate
    rw [requestAcmeCert_of_completes willing.opens completes isNil,
      pollLoop_of_becomesReady willing.ready, isKey, isCertificate]
    refine iff_of_true ⟨certificate, key, rfl⟩ ?_
    by_contra nonePending
    exact isNil ((written_eq_nil_iff willing.usable).mpr nonePending)

end Run

/--
A willing server's authorizations lead to a certificate and the map is as
before, exactly when one of them is pending and the map could be restored.
-/
theorem issuance_iff
    (domains : List String)
    (script : Script)
    (tokens : Tokens) :
    ((Willing domains script →
          ∃ certificate key,
            (requestAcmeCert domains script tokens).1 =
              .ok certificate key) ∧
        (requestAcmeCert domains script tokens).2 = tokens) ↔
      (Willing domains script →
          ∃ step ∈ script.authorizations, step.IsPending) ∧
        Restorable domains script tokens := by
  refine and_congr ?_ tokens_eq_iff
  constructor
  · intro issues willing
    exact (issues_iff willing).mp (issues willing)
  · intro pending willing
    exact (issues_iff willing).mpr (pending willing)

/-- An order of which every authorization is valid already. -/
def renewal : Script where
  thumbprint := "thumb"
  account := some (.ok ())
  order := some (.ok ())
  authorizations := [⟨.ok ⟨.valid, "a.example", some "token"⟩, none⟩]
  streamEnds := true
  polls := [⟨some (.ok (.ready, none)), none, false⟩]
  finalize := some (.ok "key")
  certificate := some (.ok "certificate")

/-- An order whose only challenge the server does not want to hear of. -/
def refusal : Script :=
  { renewal with
    authorizations :=
      [⟨.ok ⟨.pending, "a.example", some "token"⟩,
        some (.error "rateLimited")⟩] }

/-- The first order fails; the second one leaves its token in the map. -/
theorem valid_order_fails_and_token_stays :
    Willing ["a.example"] renewal ∧
      (requestAcmeCert ["a.example"] renewal fun _ => none).1 =
        .failed ["没有可用的 HTTP-01 challenge（所有 token 为空？），域名: a.example"] ∧
      (requestAcmeCert ["a.example"] refusal fun _ => none).2 "token" =
        some "token.thumb" := by
  refine ⟨⟨⟨by decide, rfl, rfl⟩, ?_, rfl, .now, ⟨_, rfl⟩, ⟨_, rfl⟩⟩,
    by decide, by decide⟩
  intro step member
  rw [List.mem_singleton.mp member]
  exact .valid

end Sweety.AcmeHttp01
