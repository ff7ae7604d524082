import Sweety.DnsProviders

namespace Sweety.AcmeDns01

open AcmeOrder DnsProviders RecordChanges

/-!
# Certificates over DNS

Model of `request_acme_cert_dns01` (`server/acme.rs`).  For every pending
authorization a TXT record is set by the adapter of the provider; when the order
was polled to its end, the records are deleted by their names.
-/

/-! ## The function -/

/-- An authorization, and what the calls for it are answered if made. -/
structure DnsStep where
  next : Except String Authorization
  set : SetReply
  setReady : Reply Unit
  deriving Repr, DecidableEq

/-- What the server and the provider answer, in the order of the awaits. -/
structure Script where
  account : Reply Unit
  order : Reply Unit
  authorizations : List DnsStep
  /-- The stream ends, or else the future is dropped when more is awaited. -/
  streamEnds : Bool
  /-- The future is not dropped while the records spread. -/
  propagates : Bool
  /-- `poll_ready`. -/
  poll : Reply OrderStatus
  /-- After so many deletions the future is dropped, if there are more. -/
  cleaned : Nat
  finalize : Reply String
  certificate : Reply String
  deriving Repr, DecidableEq

/-- What the loop over the authorizations comes to. -/
structure LoopEnd where
  outcome : Except Exit Unit
  changes : List DnsChange
  /-- `cleanup_records`. -/
  records : List (String × String)

/-- A run, with what it changes before and after the order is polled. -/
structure Run where
  exit : Exit
  before : List DnsChange
  polled : Bool
  after : List DnsChange

section Function

variable
  (provider : DnsProvider)
  (domains : List String)
  (script : Script)

/-- The loop over the authorizations. -/
def authorizationLoop : List DnsStep → LoopEnd
  | [] =>
      ⟨if script.streamEnds then .ok () else .error .dropped, [], []⟩
  | step :: rest =>
      match examine "DNS-01" domains step.next with
      | .left exit =>
          ⟨.error exit, [], []⟩
      | .skipped =>
          authorizationLoop rest
      | .challenge identifier txtValue =>
          let (outcome, change) :=
            setDns01Record provider step.set identifier txtValue
          match withContext
              ("DNS-01 设置 TXT 记录失败 (" ++ identifier ++ ")") outcome with
          | .error exit =>
              ⟨.error exit, [change], []⟩
          | .ok () =>
              match awaited
                  ["通知 ACME DNS-01 challenge ready 失败 (" ++ identifier ++
                    ")"] step.setReady with
              | .error exit =>
                  ⟨.error exit, [change], [(identifier, txtValue)]⟩
              | .ok () =>
                  let later := authorizationLoop rest
                  ⟨later.outcome, change :: later.changes,
                    (identifier, txtValue) :: later.records⟩

/-- From the polling on. -/
def pollAndIssue (loop : LoopEnd) : Run :=
  match awaited ["ACME DNS-01 订单验证失败"] script.poll with
  | .error exit =>
      ⟨exit, loop.changes, true, []⟩
  | .ok status =>
      let cleanup := (loop.records.take script.cleaned).map fun record =>
        deleteDns01Record record.1
      let exit :=
        if script.cleaned < loop.records.length then
          .dropped
        else if status ≠ .ready then
          .failed ["ACME DNS-01 订单状态异常: " ++ status.debug ++ "，域名: " ++
            display domains]
        else
          issue "ACME DNS-01" script.finalize script.certificate
      ⟨exit, loop.changes, true, cleanup⟩

/-- `request_acme_cert_dns01`. -/
def requestAcmeCertDns01 : Run :=
  match openOrder domains script.account script.order with
  | .error exit =>
      ⟨exit, [], false, []⟩
  | .ok () =>
      let loop :=
        authorizationLoop provider domains script script.authorizations
      match loop.outcome with
      | .error exit =>
          ⟨exit, loop.changes, false, []⟩
      | .ok () =>
          if script.propagates then
            pollAndIssue domains script loop
          else
            ⟨.dropped, loop.changes, false, []⟩

end Function

/-! ## What is set -/

/-- What a step of the loop changes. -/
def DnsStep.change? (provider : DnsProvider) (step : DnsStep) :
    Option DnsChange :=
  match step.next with
  | .ok ⟨.pending, identifier, some txtValue⟩ =>
      some (setDns01Record provider step.set identifier txtValue).2
  | _ =>
      none

/-- The loop goes on after the step. -/
def DnsStep.goesOn (provider : DnsProvider) (step : DnsStep) : Bool :=
  match step.next with
  | .ok ⟨.valid, _, _⟩ =>
      true
  | .ok ⟨.pending, identifier, some txtValue⟩ =>
      decide
        ((setDns01Record provider step.set identifier txtValue).1 = .ok () ∧
          step.setReady = some (.ok ()))
  | _ =>
      false

/-- The changes up to the step at which the loop is left. -/
def setChanges (provider : DnsProvider) : List DnsStep → List DnsChange
  | [] =>
      []
  | step :: rest =>
      (step.change? provider).toList ++
        if step.goesOn provider then setChanges provider rest else []

/-- The names of the records that some changes create. -/
def createdNames (changes : List DnsChange) : List (List Char) :=
  changes.filterMap fun change => change.creates.map Prod.fst

/-- The loop over the authorizations comes to its end. -/
structure Completes (provider : DnsProvider) (script : Script) : Prop where
  goesOn : ∀ step ∈ script.authorizations, step.goesOn provider = true
  streamEnds : script.streamEnds = true

section Loop

variable
  {provider : DnsProvider}
  {domains : List String}
  {script : Script}

/-- What the loop makes of a step whose authorization is pending. -/
theorem authorizationLoop_pending
    {identifier txtValue : String}
    {set : SetReply}
    {setReady : Reply Unit}
    (rest : List DnsStep) :
    authorizationLoop provider domains script
        (⟨.ok ⟨.pending, identifier, some txtValue⟩, set, setReady⟩ :: rest) =
      match withContext
          ("DNS-01 设置 TXT 记录失败 (" ++ identifier ++ ")")
          (setDns01Record provider set identifier txtValue).1 with
      | .error exit =>
          ⟨.error exit,
            [(setDns01Record provider set identifier txtValue).2], []⟩
      | .ok () =>
          match awaited
              ["通知 ACME DNS-01 challenge ready 失败 (" ++ identifier ++ ")"]
              setReady with
          | .error exit =>
              ⟨.error exit,
                [(setDns01Record provider set identifier txtValue).2],
                [(identifier, txtValue)]⟩
          | .ok () =>
              let later := authorizationLoop provider domains script rest
              ⟨later.outcome,
                (setDns01Record provider set identifier txtValue).2 ::
                  later.changes,
                (identifier, txtValue) :: later.records⟩ :=
  rfl

theorem withContext_eq_ok_iff
    {context : String}
    {outcome : Except Exit Unit} :
    withContext context outcome = .ok () ↔ outcome = .ok () := by
  match outcome with
  | .error (.failed chain) =>
      simp [withContext]
  | .error .dropped =>
      simp [withContext]
  | .error (.ok certificate key) =>
      simp [withContext]
  | .ok () =>
      simp [withContext]

/-- What the loop comes to, in terms of its steps. -/
structure LoopEnd.Fits
    (provider : DnsProvider)
    (streamEnds : Bool)
    (steps : List DnsStep)
    (loop : LoopEnd) :
    Prop where
  changes : loop.changes = setChanges provider steps
  names :
    loop.records.map (fun record => acmeChallengeDomain record.1) =
      createdNames (setChanges provider steps)
  outcome :
    loop.outcome = .ok () ↔
      (∀ step ∈ steps, step.goesOn provider = true) ∧ streamEnds = true

/-- A step that changes nothing and goes on leaves the rest to be done. -/
theorem LoopEnd.Fits.skip
    {streamEnds : Bool}
    {step : DnsStep}
    {rest : List DnsStep}
    {loop : LoopEnd}
    (fits : loop.Fits provider streamEnds rest)
    (changesNone : step.change? provider = none)
    (goesOn : step.goesOn provider = true) :
    loop.Fits provider streamEnds (step :: rest) := by
  have same :
      setChanges provider (step :: rest) = setChanges provider rest := by
    rw [setChanges, changesNone, if_pos goesOn]
    rfl
  refine ⟨?_, ?_, ?_⟩
  · rw [same, fits.changes]
  · rw [same, fits.names]
  · rw [fits.outcome, List.forall_mem_cons, and_assoc]
    exact ⟨fun ends => ⟨goesOn, ends⟩, fun ends => ends.2⟩

/-- A step that stops the loop is the last one to change anything. -/
theorem LoopEnd.Fits.stop
    {streamEnds : Bool}
    {step : DnsStep}
    {exit : Exit}
    {records : List (String × String)}
    (rest : List DnsStep)
    (stops : step.goesOn provider = false)
    (names :
      records.map (fun record => acmeChallengeDomain record.1) =
        createdNames (step.change? provider).toList) :
    LoopEnd.Fits provider streamEnds (step :: rest)
      ⟨.error exit, (step.change? provider).toList, records⟩ := by
  have same :
      setChanges provider (step :: rest) = (step.change? provider).toList := by
    rw [setChanges, stops, if_neg Bool.false_ne_true, List.append_nil]
  refine ⟨same.symm, ?_, ?_⟩
  · rw [same, names]
  · refine iff_of_false (fun isOk => nomatch isOk) ?_
    rintro ⟨goesOn, -⟩
    have contrary := goesOn step List.mem_cons_self
    rw [stops] at contrary
    nomatch contrary

/-- A step that creates a record and goes on is followed by the rest. -/
theorem LoopEnd.Fits.proceed
    {streamEnds : Bool}
    {step : DnsStep}
    {rest : List DnsStep}
    {loop : LoopEnd}
    {change : DnsChange}
    {identifier txtValue : String}
    (fits : loop.Fits provider streamEnds rest)
    (changes : step.change? provider = some change)
    (creates :
      change.creates.map Prod.fst = some (acmeChallengeDomain identifier))
    (goesOn : step.goesOn provider = true) :
    LoopEnd.Fits provider streamEnds (step :: rest)
      ⟨loop.outcome, change :: loop.changes,
        (identifier, txtValue) :: loop.records⟩ := by
  have whole :
      setChanges provider (step :: rest) =
        change :: setChanges provider rest := by
    rw [setChanges, changes, if_pos goesOn]
    rfl
  refine ⟨?_, ?_, ?_⟩
  · rw [whole, ← fits.changes]
  · rw [whole, createdNames, List.filterMap_cons, creates]
    exact congrArg (acmeChallengeDomain identifier :: ·) fits.names
  · rw [List.forall_mem_cons, and_assoc]
    exact fits.outcome.trans ⟨fun ends => ⟨goesOn, ends⟩, fun ends => ends.2⟩

theorem exists_exit_of_ne_ok
    {outcome : Except Exit Unit}
    (notOk : outcome ≠ .ok ()) :
    ∃ exit, outcome = .error exit := by
  match outcome with
  | .error exit =>
      exact ⟨exit, rfl⟩
  | .ok () =>
      exact absurd rfl notOk

theorem authorizationLoop_fits (steps : List DnsStep) :
    (authorizationLoop provider domains script steps).Fits provider
      script.streamEnds steps := by
  induction steps with
  | nil =>
      refine ⟨rfl, rfl, ?_⟩
      unfold authorizationLoop
      cases script.streamEnds with
      | false =>
          exact iff_of_false (fun isOk => nomatch isOk)
            (fun ends => nomatch ends.2)
      | true =>
          exact iff_of_true rfl ⟨fun step => (nomatch ·), rfl⟩
  | cons step rest inductionHypothesis =>
      obtain ⟨next, set, setReady⟩ := step
      match next with
      | .error error =>
          exact .stop rest rfl rfl
      | .ok ⟨.valid, identifier, challenge⟩ =>
          exact inductionHypothesis.skip rfl rfl
      | .ok ⟨.pending, identifier, none⟩ =>
          exact .stop rest rfl rfl
      | .ok ⟨.pending, identifier, some txtValue⟩ =>
          rw [authorizationLoop_pending]
          by_cases isSet :
              (setDns01Record provider set identifier txtValue).1 = .ok ()
          · have isChange := change_of_setDns01Record isSet
            rw [withContext_eq_ok_iff.mpr isSet]
            dsimp only
            cases isReady : awaited
                ["通知 ACME DNS-01 challenge ready 失败 (" ++ identifier ++ ")"]
                setReady with
            | error exit =>
                have notReady : setReady ≠ some (.ok ()) := by
                  intro same
                  rw [awaited_eq_ok_iff.mpr same] at isReady
                  nomatch isReady
                refine .stop rest
                  (decide_eq_false fun both => notReady both.2) ?_
                change [acmeChallengeDomain identifier] =
                  createdNames
                    [(setDns01Record provider set identifier txtValue).2]
                rw [isChange]
                rfl
            | ok value =>
                have goesOn :
                    DnsStep.goesOn provider
                      ⟨.ok ⟨.pending, identifier, some txtValue⟩, set,
                        setReady⟩ = true :=
                  decide_eq_true ⟨isSet, awaited_eq_ok_iff.mp isReady⟩
                refine inductionHypothesis.proceed rfl ?_ goesOn
                rw [isChange]
                rfl
          · have createsNone := creates_of_not_set isSet
            obtain ⟨exit, isError⟩ :=
              exists_exit_of_ne_ok
                ((@withContext_eq_ok_iff
                  ("DNS-01 设置 TXT 记录失败 (" ++ identifier ++ ")") _).not.mpr
                  isSet)
            rw [isError]
            refine .stop rest (decide_eq_false fun both => isSet both.1) ?_
            change [] =
              createdNames
                [(setDns01Record provider set identifier txtValue).2]
            rw [createdNames, List.filterMap_cons, createsNone]
            rfl
      | .ok ⟨.invalid, identifier, challenge⟩ =>
          exact .stop rest rfl rfl
      | .ok ⟨.revoked, identifier, challenge⟩ =>
          exact .stop rest rfl rfl
      | .ok ⟨.expired, identifier, challenge⟩ =>
          exact .stop rest rfl rfl
      | .ok ⟨.deactivated, identifier, challenge⟩ =>
          exact .stop rest rfl rfl

/-- A record is created under the name that was deleted before. -/
theorem deletes_of_creates
    {steps : List DnsStep}
    {change : DnsChange}
    {record : TxtRecord}
    (member : change ∈ setChanges provider steps)
    (creates : change.creates = some record) :
    change.deletes = some record.1 := by
  induction steps with
  | nil =>
      nomatch member
  | cons step rest inductionHypothesis =>
      rw [setChanges] at member
      rcases List.mem_append.mp member with isStep | inRest
      · obtain ⟨next, set, setReady⟩ := step
        have isChange := Option.mem_toList.mp isStep
        unfold DnsStep.change? at isChange
        split at isChange
        · rename_i identifier txtValue _
          cases isChange
          by_cases isSet :
              (setDns01Record provider set identifier txtValue).1 = .ok ()
          · rw [change_of_setDns01Record isSet] at creates ⊢
            cases creates
            rfl
          · rw [creates_of_not_set isSet] at creates
            nomatch creates
        · nomatch isChange
      · split at inRest
        · exact inductionHypothesis inRest
        · nomatch inRest

/-- A pending authorization whose step goes on has its record created. -/
theorem created_change_iff
    {step : DnsStep}
    {record : TxtRecord}
    (goesOn : step.goesOn provider = true) :
    Created (step.change? provider).toList record ↔
      ∃ identifier txtValue,
        step.next = .ok ⟨.pending, identifier, some txtValue⟩ ∧
          record = (acmeChallengeDomain identifier, txtValue) := by
  obtain ⟨next, set, setReady⟩ := step
  constructor
  · rintro ⟨change, isChange, creates⟩
    have isChange := Option.mem_toList.mp isChange
    unfold DnsStep.change? at isChange
    split at isChange
    · rename_i identifier txtValue isNext
      have isNext : next = .ok ⟨.pending, identifier, some txtValue⟩ := isNext
      subst isNext
      cases isChange
      have isSet := (of_decide_eq_true goesOn).1
      rw [change_of_setDns01Record isSet] at creates
      exact ⟨identifier, txtValue, rfl, (Option.some.inj creates).symm⟩
    · nomatch isChange
  · rintro ⟨identifier, txtValue, isNext, rfl⟩
    have isNext : next = .ok ⟨.pending, identifier, some txtValue⟩ := isNext
    subst isNext
    have isSet := (of_decide_eq_true goesOn).1
    refine ⟨_, List.mem_singleton_self _, ?_⟩
    rw [change_of_setDns01Record isSet]

/-- When the loop completes, the pending authorizations have their records. -/
theorem created_setChanges_iff
    {steps : List DnsStep}
    {record : TxtRecord}
    (goesOn : ∀ step ∈ steps, step.goesOn provider = true) :
    Created (setChanges provider steps) record ↔
      ∃ step ∈ steps, ∃ identifier txtValue,
        step.next = .ok ⟨.pending, identifier, some txtValue⟩ ∧
          record = (acmeChallengeDomain identifier, txtValue) := by
  induction steps with
  | nil =>
      refine iff_of_false ?_ ?_
      · rintro ⟨change, member, -⟩
        nomatch member
      · rintro ⟨step, member, -⟩
        nomatch member
  | cons step rest inductionHypothesis =>
      obtain ⟨stepGoesOn, restGoesOn⟩ := List.forall_mem_cons.mp goesOn
      have parts :
          Created (setChanges provider (step :: rest)) record ↔
            Created (step.change? provider).toList record ∨
              Created (setChanges provider rest) record := by
        rw [setChanges, if_pos stepGoesOn, Created, Created, Created]
        simp only [List.mem_append, or_and_right, exists_or]
      rw [List.exists_mem_cons_iff]
      exact parts.trans (or_congr (created_change_iff stepGoesOn)
        (inductionHypothesis restGoesOn))

end Loop

/-! ## What holds of a run -/

/-- The order is polled. -/
structure Polls
    (provider : DnsProvider)
    (domains : List String)
    (script : Script) :
    Prop where
  opens : Opens domains script.account script.order
  completes : Completes provider script
  propagates : script.propagates = true

/--
The records of the challenges are there together when the order is polled, no
foreign record is deleted, and all that is created is meant to be deleted.
-/
structure ChallengesHold
    (provider : DnsProvider)
    (domains : List String)
    (script : Script)
    (start : Set TxtRecord) :
    Prop where
  present :
    (requestAcmeCertDns01 provider domains script).polled = true →
      ∀ step ∈ script.authorizations, ∀ identifier txtValue,
        step.next = .ok ⟨.pending, identifier, some txtValue⟩ →
          (acmeChallengeDomain identifier, txtValue) ∈
            RecordChanges.after (Hits provider)
              (requestAcmeCertDns01 provider domains script).before start
  spared :
    Spares (Hits provider)
      ((requestAcmeCertDns01 provider domains script).before ++
        (requestAcmeCertDns01 provider domains script).after) start
  requested :
    Requested (Hits provider)
      ((requestAcmeCertDns01 provider domains script).before ++
        (requestAcmeCertDns01 provider domains script).after)

/-- The deletions at the end are reached and hit the record. -/
def ReachesCleanup
    (provider : DnsProvider)
    (domains : List String)
    (script : Script)
    (record : TxtRecord) :
    Prop :=
  (Polls provider domains script ∧
      ∃ status, script.poll = some (.ok status)) ∧
    ∃ name ∈
        (createdNames (setChanges provider script.authorizations)).take
          script.cleaned,
      Hits provider name record

/-- The challenges do not get into each other's or anybody else's way. -/
structure Harmless
    (provider : DnsProvider)
    (domains : List String)
    (script : Script)
    (start : Set TxtRecord) :
    Prop where
  /-- No later challenge deletes the record of an earlier one. -/
  apart :
    Polls provider domains script →
      Kept (Hits provider) (setChanges provider script.authorizations)
  /-- No challenge deletes a record that was there before. -/
  foreign :
    Opens domains script.account script.order →
      ∀ front change behind,
        setChanges provider script.authorizations =
            front ++ change :: behind →
          ∀ record ∈ start, change.Touches (Hits provider) record →
            Created front record
  /-- What is created is deleted later, or else the deletion is reached. -/
  cleaned :
    Opens domains script.account script.order →
      ∀ front change behind,
        setChanges provider script.authorizations =
            front ++ change :: behind →
          ∀ record, change.creates = some record →
            (∃ later ∈ behind, later.Touches (Hits provider) record) ∨
              ReachesCleanup provider domains script record

section Run

variable
  {provider : DnsProvider}
  {domains : List String}
  {script : Script}
  {start : Set TxtRecord}

theorem run_of_not_opens
    (notOpens : ¬Opens domains script.account script.order) :
    ∃ exit,
      requestAcmeCertDns01 provider domains script =
        ⟨exit, [], false, []⟩ := by
  obtain ⟨exit, isLeft, -⟩ := openOrder_error notOpens
  refine ⟨exit, ?_⟩
  rw [requestAcmeCertDns01, isLeft]

theorem run_of_not_polls
    (opens : Opens domains script.account script.order)
    (notPolls : ¬Polls provider domains script) :
    ∃ exit,
      requestAcmeCertDns01 provider domains script =
        ⟨exit, setChanges provider script.authorizations, false, []⟩ := by
  have fits :=
    @authorizationLoop_fits provider domains script script.authorizations
  rw [requestAcmeCertDns01, openOrder_ok opens, ← fits.changes]
  dsimp only
  cases isOutcome :
      (authorizationLoop provider domains script
        script.authorizations).outcome with
  | error exit =>
      exact ⟨exit, rfl⟩
  | ok value =>
      obtain ⟨goesOn, streamEnds⟩ := fits.outcome.mp isOutcome
      have drops : ¬script.propagates = true :=
        fun propagates => notPolls ⟨opens, ⟨goesOn, streamEnds⟩, propagates⟩
      exact ⟨.dropped, if_neg drops⟩

/-- The changes that the deletions at the end make. -/
def cleanup (provider : DnsProvider) (script : Script) : List DnsChange :=
  ((createdNames (setChanges provider script.authorizations)).take
    script.cleaned).map fun name => ⟨some name, none⟩

theorem requestAcmeCertDns01_of_polls
    (polls : Polls provider domains script) :
    requestAcmeCertDns01 provider domains script =
      pollAndIssue domains script
        (authorizationLoop provider domains script
          script.authorizations) := by
  have fits :=
    @authorizationLoop_fits provider domains script script.authorizations
  have isOk := fits.outcome.mpr
    ⟨polls.completes.goesOn, polls.completes.streamEnds⟩
  rw [requestAcmeCertDns01, openOrder_ok polls.opens]
  dsimp only
  rw [isOk]
  exact if_pos polls.propagates

/-- When polling fails, nothing is deleted. -/
theorem run_of_poll_error
    (polls : Polls provider domains script)
    (notOk : ¬∃ status, script.poll = some (.ok status)) :
    ∃ exit,
      requestAcmeCertDns01 provider domains script =
        ⟨exit, setChanges provider script.authorizations, true, []⟩ := by
  have fits :=
    @authorizationLoop_fits provider domains script script.authorizations
  rw [requestAcmeCertDns01_of_polls polls, pollAndIssue, fits.changes]
  cases isPoll : awaited ["ACME DNS-01 订单验证失败"] script.poll with
  | error exit =>
      exact ⟨exit, rfl⟩
  | ok status =>
      exact absurd ⟨status, awaited_eq_ok_iff.mp isPoll⟩ notOk

theorem run_of_poll_ok
    {status : OrderStatus}
    (polls : Polls provider domains script)
    (isPoll : script.poll = some (.ok status)) :
    ∃ exit,
      requestAcmeCertDns01 provider domains script =
        ⟨exit, setChanges provider script.authorizations, true,
          cleanup provider script⟩ := by
  have fits :=
    @authorizationLoop_fits provider domains script script.authorizations
  have isCleanup :
      ((authorizationLoop provider domains script
          script.authorizations).records.take script.cleaned).map
        (fun record => deleteDns01Record record.1) =
          cleanup provider script := by
    rw [cleanup, ← fits.names, List.map_take, List.map_take, List.map_map]
    rfl
  rw [requestAcmeCertDns01_of_polls polls, pollAndIssue, isPoll,
    ← isCleanup, fits.changes]
  exact ⟨_, rfl⟩

theorem creates_of_mem_cleanup :
    ∀ change ∈ cleanup provider script, change.creates = none := by
  intro change member
  obtain ⟨name, -, rfl⟩ := List.mem_map.mp member
  rfl

/-- The deletions at the end repeat those before the creations. -/
theorem deletes_of_mem_cleanup :
    ∀ later ∈ cleanup provider script,
      ∃ change ∈ setChanges provider script.authorizations,
        change.deletes = later.deletes := by
  intro later member
  obtain ⟨name, isName, rfl⟩ := List.mem_map.mp member
  obtain ⟨change, isChange, isCreated⟩ :=
    List.mem_filterMap.mp (List.mem_of_mem_take isName)
  obtain ⟨record, creates, rfl⟩ := Option.map_eq_some_iff.mp isCreated
  exact ⟨change, isChange, deletes_of_creates isChange creates⟩

theorem touches_cleanup_iff {record : TxtRecord} :
    (∃ later ∈ cleanup provider script,
        later.Touches (Hits provider) record) ↔
      ∃ name ∈
          (createdNames (setChanges provider script.authorizations)).take
            script.cleaned,
        Hits provider name record := by
  constructor
  · rintro ⟨later, member, pattern, deletes, isHit⟩
    obtain ⟨name, isName, rfl⟩ := List.mem_map.mp member
    obtain rfl : name = pattern := Option.some.inj deletes
    exact ⟨name, isName, isHit⟩
  · rintro ⟨name, isName, isHit⟩
    exact ⟨_, List.mem_map_of_mem isName, name, rfl, isHit⟩

/-- A run that opens no order changes nothing. -/
theorem challengesHold_of_not_opens
    (notOpens : ¬Opens domains script.account script.order) :
    ChallengesHold provider domains script start := by
  obtain ⟨exit, isRun⟩ :=
    @run_of_not_opens provider domains script notOpens
  constructor
  · rw [isRun]
    intro isPolled
    nomatch isPolled
  · rw [isRun]
    rintro (_ | ⟨_, _⟩) change behind isChanges
    · nomatch isChanges
    · nomatch isChanges
  · rw [isRun]
    rintro (_ | ⟨_, _⟩) change behind isChanges
    · nomatch isChanges
    · nomatch isChanges

/-- What is there when the order is polled, where it is. -/
theorem present_iff_kept (completes : Completes provider script) :
    (∀ step ∈ script.authorizations, ∀ identifier txtValue,
        step.next = .ok ⟨.pending, identifier, some txtValue⟩ →
          (acmeChallengeDomain identifier, txtValue) ∈
            RecordChanges.after (Hits provider)
              (setChanges provider script.authorizations) start) ↔
      Kept (Hits provider) (setChanges provider script.authorizations) := by
  have goesOn := completes.goesOn
  rw [← @forall_created_mem_after_iff _ _ _ _ start]
  constructor
  · intro isThere record isCreated
    obtain ⟨step, member, identifier, txtValue, isNext, rfl⟩ :=
      (created_setChanges_iff goesOn).mp isCreated
    exact isThere step member identifier txtValue isNext
  · intro isThere step member identifier txtValue isNext
    exact isThere _ ((created_setChanges_iff goesOn).mpr
      ⟨step, member, identifier, txtValue, isNext, rfl⟩)

/-- A run that opens an order, in terms of what it changes at the end. -/
theorem challengesHold_iff_of_run
    {exit : Exit}
    {polled : Bool}
    {final : List DnsChange}
    (opens : Opens domains script.account script.order)
    (isRun :
      requestAcmeCertDns01 provider domains script =
        ⟨exit, setChanges provider script.authorizations, polled, final⟩)
    (isPolled : polled = true ↔ Polls provider domains script)
    (createsNone : ∀ change ∈ final, change.creates = none)
    (repeats :
      ∀ later ∈ final,
        ∃ change ∈ setChanges provider script.authorizations,
          change.deletes = later.deletes)
    (isFinal :
      ∀ record,
        (∃ later ∈ final, later.Touches (Hits provider) record) ↔
          ReachesCleanup provider domains script record) :
    ChallengesHold provider domains script start ↔
      Harmless provider domains script start := by
  constructor
  · rintro ⟨present, spared, requested⟩
    rw [isRun] at present spared requested
    rw [spares_append_iff repeats, spares_iff] at spared
    rw [requested_append_iff createsNone] at requested
    refine ⟨?_, fun _ => spared, ?_⟩
    · intro polls
      exact (present_iff_kept polls.completes).mp
        (present (isPolled.mpr polls))
    · intro _ front change behind isChanges record creates
      exact (requested front change behind isChanges record creates).imp_right
        (isFinal record).mp
  · rintro ⟨apart, foreign, cleaned⟩
    constructor
    · rw [isRun]
      intro itIsPolled
      have polls := isPolled.mp itIsPolled
      exact (present_iff_kept polls.completes).mpr (apart polls)
    · rw [isRun, spares_append_iff repeats, spares_iff]
      exact foreign opens
    · rw [isRun, requested_append_iff createsNone]
      intro front change behind isChanges record creates
      exact (cleaned opens front change behind isChanges record
        creates).imp_right (isFinal record).mpr

/-- Where the deletions at the end are not reached, nothing follows. -/
theorem no_final_iff
    (unreached :
      ¬(Polls provider domains script ∧
        ∃ status, script.poll = some (.ok status)))
    (record : TxtRecord) :
    (∃ later ∈ ([] : List DnsChange),
        later.Touches (Hits provider) record) ↔
      ReachesCleanup provider domains script record := by
  refine iff_of_false ?_ fun reaches => unreached reaches.1
  rintro ⟨later, member, -⟩
  nomatch member

end Run

/-- A pending authorization for which every call succeeds. -/
def granted (identifier txtValue : String) : DnsStep where
  next := .ok ⟨.pending, identifier, some txtValue⟩
  set := ⟨some (.ok ()), some (.ok .success)⟩
  setReady := some (.ok ())

/-- An order for which every call succeeds. -/
def grantedOrder (authorizations : List DnsStep) : Script where
  account := some (.ok ())
  order := some (.ok ())
  authorizations := authorizations
  streamEnds := true
  propagates := true
  poll := some (.ok .ready)
  cleaned := authorizations.length
  finalize := some (.ok "key")
  certificate := some (.ok "certificate")

/-- A name together with its wildcard. -/
def wildcardOrder : Script :=
  grantedOrder
    [granted "example.com" "first", granted "*.example.com" "second"]

/-- An order whose only challenge the server does not want to hear of. -/
def refusedOrder : Script :=
  { grantedOrder [] with
    authorizations :=
      [{ granted "example.com" "value" with
          setReady := some (.error "rateLimited") }] }

end Sweety.AcmeDns01
