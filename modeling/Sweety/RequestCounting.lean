import Sweety.SiteHandler

namespace Sweety.SiteHandler

open ConfigModel HttpText ProxyProtocol StaticCache

/-!
# Every request is counted once

A request is counted once if the handler returns a response, has called
`inc_requests` once and has recorded one status, that of the response.  Most
ways through the handler do so.  Those that do not are: the refusal of an
overloaded server, which only records; a `=code` of `try_files`, which is
recorded again behind the handler; a configured code that is no status, which
is recorded while another one is sent; and a panic.
-/

/-! ## Recorded statuses -/

/-- The status that a call records. -/
def MetricCall.status? : MetricCall → Option Nat
  | .recordStatus status =>
      some status
  | _ =>
      none

/-- The statuses that a request records. -/
def Served.recorded (served : Served) : List Nat :=
  served.calls.filterMap MetricCall.status?

/-- There is a response, and its status is the one recorded. -/
def RecordedOnce (served : Served) : Prop :=
  ∃ response,
    served.response = some response ∧
      served.recorded = [response.status]

/-- There is a response, and the request is counted and recorded once. -/
def CountedOnce (served : Served) : Prop :=
  RecordedOnce served ∧ served.calls.count .incRequests = 1

/-- A stage does not call `inc_requests`. -/
def Quiet {Value : Type} (stage : Stage Value) : Prop :=
  ∀ served, stage = .error served → .incRequests ∉ served.calls

/--
What a stage gets wrong: a request that ends in it is recorded once exactly if
the fault is not there, and a request that passes it meets no fault.
-/
structure Faults
    {Value : Type}
    (stage : Stage Value)
    (fault : Prop) :
    Prop where
  quiet : Quiet stage
  ends :
    ∀ served,
      stage = .error served →
      (RecordedOnce served ↔ ¬fault)
  passes :
    ∀ value,
      stage = .ok value →
      ¬fault

/-- Every request that ends in a stage is recorded once. -/
abbrev Clean {Value : Type} (stage : Stage Value) : Prop :=
  Faults stage False

variable {Value Other : Type}

theorem Faults.congr
    {stage : Stage Value}
    {fault other : Prop}
    (faults : Faults stage fault)
    (same : fault ↔ other) :
    Faults stage other := by
  rwa [same] at faults

theorem clean_ok (value : Value) :
    Clean (.ok value : Stage Value) where
  quiet _ isError := nomatch isError
  ends _ isError := nomatch isError
  passes _ _ := not_false

theorem quiet_answer (code : Nat) (response : WebResponse) :
    Quiet (answer code response : Stage Value) := by
  intro served isError
  cases isError
  simp

theorem clean_answer
    {code : Nat}
    {response : WebResponse}
    (sameStatus : response.status = code) :
    Clean (answer code response : Stage Value) where
  quiet := quiet_answer code response
  ends served isError := by
    cases isError
    apply iff_of_true _ not_false
    exact ⟨response, rfl, congrArg (fun status => [status]) sameStatus.symm⟩
  passes value isOk := nomatch isOk

theorem faults_panics :
    Faults (panics : Stage Value) True where
  quiet served isError := by
    cases isError
    exact List.not_mem_nil
  ends served isError := by
    cases isError
    apply iff_of_false _ (not_not_intro trivial)
    rintro ⟨response, isResponse, _⟩
    cases isResponse
  passes value isOk := nomatch isOk

/-- The faults of two stages, the second of which may not be reached. -/
theorem faults_bind
    {stage : Stage Value}
    {next : Value → Stage Other}
    {fault : Prop}
    {faultNext : Value → Prop}
    (faults : Faults stage fault)
    (faultsNext :
      ∀ value,
        stage = .ok value →
        Faults (next value) (faultNext value)) :
    Faults (stage >>= next)
      (fault ∨ ∃ value, stage = .ok value ∧ faultNext value) := by
  cases isStage : stage with
  | error ended =>
      constructor
      · intro served isError
        cases isError
        exact faults.quiet ended isStage
      · intro served isError
        cases isError
        rw [faults.ends ended isStage]
        apply not_congr
        constructor
        · exact .inl
        · rintro (fault | ⟨value, isOk, _⟩)
          · exact fault
          · cases isOk
      · intro value isOk
        cases isOk
  | ok value =>
      have noFault := faults.passes value isStage
      have next := faultsNext value isStage
      have same :
          faultNext value ↔
            fault ∨
              ∃ other, (.ok value : Stage Value) = .ok other ∧
                faultNext other := by
        constructor
        · exact fun faultLater => .inr ⟨value, rfl, faultLater⟩
        · rintro (fault | ⟨other, isOk, faultLater⟩)
          · exact absurd fault noFault
          · cases isOk
            exact faultLater
      exact next.congr same

/-- The same for a stage that passes nothing on. -/
theorem faults_then
    {stage : Stage Unit}
    {next : Stage Other}
    {fault faultNext : Prop}
    (faults : Faults stage fault)
    (faultsNext : Faults next faultNext) :
    Faults (stage >>= fun _ => next)
      (fault ∨ stage = .ok () ∧ faultNext) := by
  apply Faults.congr (faults_bind faults fun _ _ => faultsNext)
  constructor
  · rintro (first | ⟨_, passed, later⟩)
    · exact .inl first
    · exact .inr ⟨passed, later⟩
  · rintro (first | ⟨passed, later⟩)
    · exact .inl first
    · exact .inr ⟨(), passed, later⟩

theorem clean_bind
    {stage : Stage Value}
    {next : Value → Stage Other}
    (clean : Clean stage)
    (cleanNext : ∀ value, Clean (next value)) :
    Clean (stage >>= next) :=
  (faults_bind clean fun value _ => cleanNext value).congr (by simp)

/-- A stage in which every request ends. -/
theorem faults_ended
    {served : Served}
    {fault : Prop}
    (recorded : RecordedOnce served ↔ ¬fault)
    (quiet : .incRequests ∉ served.calls) :
    Faults (.error served : Stage Value) fault where
  quiet other isError := by
    cases isError
    exact quiet
  ends other isError := by
    cases isError
    exact recorded
  passes value isOk := nomatch isOk

/-- A code is sent as it is recorded exactly if it is a status. -/
theorem statusFrom?_getD_eq_iff
    {code fallback : Nat}
    (isStatus : statusFrom? fallback = some fallback) :
    (statusFrom? code).getD fallback = code ↔
      ¬statusFrom? code = none := by
  unfold statusFrom? at isStatus ⊢
  by_cases valid : 100 ≤ code ∧ code < 1000
  · simp [valid]
  · have fallbackValid : 100 ≤ fallback ∧ fallback < 1000 := by
      by_contra invalid
      rw [if_neg invalid] at isStatus
      cases isStatus
    rw [if_neg valid]
    apply iff_of_false
    · intro same
      exact valid (same ▸ fallbackValid)
    · exact not_not_intro rfl

/-- A configured code is recorded as it stands. -/
theorem faults_answer
    {code : Nat}
    {response : WebResponse}
    (fallback : Nat)
    (isStatus : statusFrom? fallback = some fallback)
    (status : response.status = (statusFrom? code).getD fallback) :
    Faults (answer code response : Stage Value)
      (statusFrom? code = none) where
  quiet := quiet_answer code response
  ends served isError := by
    cases isError
    rw [← statusFrom?_getD_eq_iff isStatus, ← status]
    constructor
    · rintro ⟨other, isResponse, recorded⟩
      cases isResponse
      exact (List.singleton_inj.mp recorded).symm
    · intro same
      exact ⟨response, rfl, congrArg (fun status => [status]) same.symm⟩
  passes value isOk := nomatch isOk

/-! ## Up to the location -/

/-- The stages up to the site. -/
def reachSite
    (services : Services)
    (state : AppState)
    (request : Request) :
    Stage Site := do
  challenge services request
  siteFor services state request

/-- The stages from the address of the client to the location. -/
def reachLocation
    (services : Services)
    (state : AppState)
    (request : Request)
    (site : Site)
    (ip : IpAddr) :
    Stage Located := do
  toHttps services request site
  guardPath services request
  let effectivePath ← rewritten services request site
  let location ← locationFor services site effectivePath
  limitBody services state request
  return ⟨site, ip, effectivePath, location⟩

section Reached

variable
  {services : Services}
  {state : AppState}
  {request : Request}

theorem clean_challenge :
    Clean (challenge services request) := by
  unfold challenge
  cases request.path.dropPrefix? "/.well-known/acme-challenge/".toList with
  | none =>
      exact clean_ok ()
  | some token =>
      dsimp only
      cases services.acmeTokens token with
      | none =>
          exact clean_ok ()
      | some body =>
          exact clean_answer rfl

theorem clean_siteFor :
    Clean (siteFor services state request) := by
  unfold siteFor
  cases VHostLookup.lookupByHost
      (String.ofList (hostAndPort request).1) state.registry with
  | some site =>
      exact clean_ok site
  | none =>
      dsimp only
      split
      · exact clean_answer rfl
      · exact clean_answer rfl

/-- The address of the client cannot be read. -/
def ClientIpPanics
    (services : Services)
    (request : Request)
    (site : Site) :
    Prop :=
  RealIp.effectiveClientIp? services.ipv6 (settings site).realIp
      request.connIp request.headers =
    none

theorem faults_clientIp (site : Site) :
    Faults (clientIp services request site)
      (ClientIpPanics services request site) := by
  unfold clientIp ClientIpPanics
  cases RealIp.effectiveClientIp? services.ipv6 (settings site).realIp
      request.connIp request.headers with
  | some ip =>
      exact (clean_ok ip).congr (by simp)
  | none =>
      exact faults_panics.congr (by simp)

theorem clean_toHttps (site : Site) :
    Clean (toHttps services request site) := by
  unfold toHttps
  split
  · exact clean_answer rfl
  · exact clean_ok ()

theorem clean_guardPath :
    Clean (guardPath services request) := by
  unfold guardPath
  split
  · exact clean_answer rfl
  · exact clean_ok ()

theorem clean_rewritten (site : Site) :
    Clean (rewritten services request site) := by
  unfold rewritten
  cases Rewrite.rewriteStage services.statCached (settings site).root
      (settings site).rewrites request.path with
  | redirect target status =>
      exact clean_answer rfl
  | serve effectivePath =>
      exact clean_ok effectivePath

theorem clean_locationFor (site : Site) (effectivePath : List Char) :
    Clean (locationFor services site effectivePath) := by
  unfold locationFor
  cases matchLocation services (settings site).locations effectivePath with
  | some location =>
      exact clean_ok location
  | none =>
      exact clean_answer rfl

theorem clean_limitBody :
    Clean (limitBody services state request) := by
  unfold limitBody
  split
  · exact clean_answer rfl
  · exact clean_ok ()

theorem clean_reachSite :
    Clean (reachSite services state request) :=
  clean_bind clean_challenge fun _ => clean_siteFor

theorem clean_reachLocation (site : Site) (ip : IpAddr) :
    Clean (reachLocation services state request site ip) := by
  apply clean_bind (clean_toHttps site)
  intro _
  apply clean_bind clean_guardPath
  intro _
  apply clean_bind (clean_rewritten site)
  intro effectivePath
  apply clean_bind (clean_locationFor site effectivePath)
  intro location
  exact clean_bind clean_limitBody fun _ => clean_ok _

theorem locate_eq :
    locate services state request =
      (do
        let site ← reachSite services state request
        let ip ← clientIp services request site
        reachLocation services state request site ip) := by
  unfold locate reachSite
  cases challenge services request with
  | error served =>
      rfl
  | ok done =>
      rfl

/-- The only fault on the way to a location is the address of the client. -/
theorem faults_locate :
    Faults (locate services state request)
      (∃ site,
        reachSite services state request = .ok site ∧
          ClientIpPanics services request site) := by
  rw [locate_eq]
  apply Faults.congr
  · apply faults_bind clean_reachSite
    intro site _
    exact faults_bind (faults_clientIp site) fun ip _ =>
      clean_reachLocation site ip
  · simp

end Reached

/-! ## The directives of the location -/

/-- The code that a location answers with by itself. -/
def returnedCode?
    (request : Request)
    (config : LocationConfig) :
    Option Nat :=
  match config.returnUrl with
  | some directive =>
      some
        (Redirects.parseReturnDirective directive.toList
          (requestUri request)).1
  | none =>
      match config.returnBody with
      | some _ =>
          some ((config.returnCode.map BitVec.toNat).getD 200)
      | none =>
          config.returnCode.map BitVec.toNat

/-- The directives `return_url`, `return_body` and `return_code`. -/
def returns (request : Request) (config : LocationConfig) : Stage Unit := do
  returnUrl request config
  returnBody config
  returnCode config

/-- The directives before the access rules. -/
def beforeAccess
    (services : Services)
    (request : Request)
    (location : Location) :
    Stage Unit := do
  returns request location.config
  limitConn services location

/-- The directives before the authorization. -/
def beforeAuth
    (services : Services)
    (request : Request)
    (located : Located) :
    Stage Unit := do
  beforeAccess services request located.location
  checkAccess services located.location located.clientIp

/-- A location answers with a code that is no status. -/
def ReturnsNoStatus (request : Request) (config : LocationConfig) : Prop :=
  ∃ code,
    returnedCode? request config = some code ∧
      statusFrom? code = none

/-- The access rules cannot be applied to the client. -/
def AccessPanics (services : Services) (located : Located) : Prop :=
  AccessControl.checkAccess? located.clientIp
      (AccessControl.compileRules services.ipv6
        located.location.config.accessRules) =
    none

/-- The request is denied with a failure status that is no status. -/
def DeniesWithoutStatus
    (services : Services)
    (request : Request)
    (located : Located) :
    Prop :=
  statusFrom? located.location.config.authFailureStatus.toNat = none ∧
    ∃ authUrl,
      located.location.config.authRequest = some authUrl ∧
        isAuthorized services request authUrl located.location.config
            located.clientIp =
          false

section Admitted

variable
  {services : Services}
  {request : Request}
  {located : Located}

/-- A location that answers by itself answers with its code. -/
theorem returns_eq (config : LocationConfig) :
    (returnedCode? request config = none ∧
        returns request config = .ok ()) ∨
      ∃ code fallback response,
        returnedCode? request config = some code ∧
          statusFrom? fallback = some fallback ∧
          response.status = (statusFrom? code).getD fallback ∧
          returns request config = answer code response := by
  unfold returnedCode? returns returnUrl returnBody returnCode
  cases config.returnUrl with
  | some directive =>
      exact .inr ⟨_, 301, _, rfl, rfl, rfl, rfl⟩
  | none =>
      cases config.returnBody with
      | some text =>
          exact .inr ⟨_, 200, _, rfl, rfl, rfl, rfl⟩
      | none =>
          cases config.returnCode with
          | some code =>
              exact .inr ⟨_, 200, _, rfl, rfl, rfl, rfl⟩
          | none =>
              exact .inl ⟨rfl, rfl⟩

theorem faults_returns (config : LocationConfig) :
    Faults (returns request config) (ReturnsNoStatus request config) := by
  obtain ⟨noCode, goesOn⟩ | ⟨code, fallback, response, isCode, isStatus,
    status, answers⟩ := @returns_eq request config
  · rw [goesOn]
    apply (clean_ok ()).congr
    simp [ReturnsNoStatus, noCode]
  · rw [answers]
    apply (faults_answer fallback isStatus status).congr
    simp [ReturnsNoStatus, isCode]

theorem clean_limitConn (location : Location) :
    Clean (limitConn services location) := by
  unfold limitConn
  split
  · exact clean_answer rfl
  · exact clean_ok ()

theorem faults_checkAccess :
    Faults (checkAccess services located.location located.clientIp)
      (AccessPanics services located) := by
  unfold checkAccess AccessPanics
  cases AccessControl.checkAccess? located.clientIp
      (AccessControl.compileRules services.ipv6
        located.location.config.accessRules) with
  | none =>
      exact faults_panics.congr (by simp)
  | some action =>
      cases action with
      | allow =>
          exact (clean_ok ()).congr (by simp)
      | deny =>
          have denied :
              Clean
                (answer 403 (makeErrorResp services 403) : Stage Unit) :=
            clean_answer rfl
          exact denied.congr (by simp)

theorem faults_authorize :
    Faults
      (authorize services request located.location.config
        located.clientIp)
      (DeniesWithoutStatus services request located) := by
  unfold authorize DeniesWithoutStatus
  cases located.location.config.authRequest with
  | none =>
      exact (clean_ok ()).congr (by simp)
  | some authUrl =>
      dsimp only
      cases isAllowed : isAuthorized services request authUrl
          located.location.config located.clientIp with
      | true =>
          exact (clean_ok ()).congr (by simp [isAllowed])
      | false =>
          have denied :
              Faults
                (answer located.location.config.authFailureStatus.toNat
                    (makeErrorResp services
                      ((statusFrom?
                        located.location.config.authFailureStatus.toNat).getD
                          401)) :
                  Stage Unit)
                (statusFrom?
                    located.location.config.authFailureStatus.toNat =
                  none) :=
            faults_answer 401 rfl rfl
          exact denied.congr (by simp [isAllowed])

theorem clean_pluginRequest :
    Clean (pluginRequest services request located) := by
  unfold pluginRequest
  cases located.location.config.handler with
  | plugin name =>
      dsimp only
      split
      · exact clean_answer rfl
      · exact clean_ok ()
  | static =>
      exact clean_ok ()
  | fastcgi =>
      exact clean_ok ()
  | websocket =>
      exact clean_ok ()
  | reverseProxy =>
      exact clean_ok ()
  | grpc =>
      exact clean_ok ()

theorem letThrough_eq :
    letThrough services request located =
      (do
        beforeAuth services request located
        authorize services request located.location.config
          located.clientIp
        pluginRequest services request located) := by
  unfold letThrough beforeAuth beforeAccess returns
  cases returnUrl request located.location.config with
  | error ended =>
      rfl
  | ok _ =>
      cases returnBody located.location.config with
      | error ended =>
          rfl
      | ok _ =>
          cases returnCode located.location.config with
          | error ended =>
              rfl
          | ok _ =>
              cases limitConn services located.location with
              | error ended =>
                  rfl
              | ok _ =>
                  rfl

/-- The directives of a location have three faults. -/
theorem faults_letThrough :
    Faults (letThrough services request located)
      ((ReturnsNoStatus request located.location.config ∨
          beforeAccess services request located.location = .ok () ∧
            AccessPanics services located) ∨
        beforeAuth services request located = .ok () ∧
          DeniesWithoutStatus services request located) := by
  have before :
      Faults (beforeAccess services request located.location)
        (ReturnsNoStatus request located.location.config) :=
    (faults_then (faults_returns located.location.config)
      (clean_limitConn located.location)).congr (by simp)
  have authorized :
      Faults
        (do
          authorize services request located.location.config
            located.clientIp
          pluginRequest services request located)
        (DeniesWithoutStatus services request located) :=
    (faults_then faults_authorize clean_pluginRequest).congr (by simp)
  rw [letThrough_eq]
  exact faults_then (faults_then before faults_checkAccess) authorized

end Admitted

/-! ## The handler of the location -/

/-- A FastCGI location answers with a code of its `try_files`. -/
def TryFilesAnswers
    (services : Services)
    (request : Request)
    (located : Located) :
    Prop :=
  located.location.config.handler = .fastcgi ∧
    located.location.config.tryFiles ≠ [] ∧
      ∃ code,
        Router.tryFilesResolve services.disk
            (located.location.config.tryFiles.map String.toList)
            request.path (rootOf located) =
          .code code

/-- The handler of the location panics. -/
def HandlerPanics
    (services : Services)
    (request : Request)
    (located : Located) :
    Prop :=
  (dispatch services request located).2 = none

section Handled

variable
  {services : Services}
  {state : AppState}
  {request : Request}
  {located : Located}

/-- Only a code of `try_files` is recorded before the handler is done. -/
theorem dispatchFastcgi_calls
    (isFastcgi : located.location.config.handler = .fastcgi) :
    (¬TryFilesAnswers services request located ∧
        (dispatchFastcgi services request located).1 = []) ∨
      (TryFilesAnswers services request located ∧
        ∃ code, (dispatchFastcgi services request located).1 =
          [.recordStatus code]) := by
  unfold dispatchFastcgi TryFilesAnswers
  by_cases isEmpty : located.location.config.tryFiles = []
  · rw [if_pos isEmpty]
    exact .inl ⟨fun answers => answers.2.1 isEmpty, rfl⟩
  · rw [if_neg isEmpty]
    cases Router.tryFilesResolve services.disk
        (located.location.config.tryFiles.map String.toList) request.path
        (rootOf located) with
    | file path =>
        refine .inl ⟨fun answers => ?_, ?_⟩
        · obtain ⟨code, isCode⟩ := answers.2.2
          cases isCode
        · dsimp only
          split
          · rfl
          · rfl
    | code code =>
        exact .inr ⟨⟨isFastcgi, isEmpty, code, rfl⟩, code, rfl⟩
    | notFound =>
        refine .inl ⟨fun answers => ?_, rfl⟩
        obtain ⟨code, isCode⟩ := answers.2.2
        cases isCode

theorem dispatch_calls :
    (¬TryFilesAnswers services request located ∧
        (dispatch services request located).1 = []) ∨
      (TryFilesAnswers services request located ∧
        ∃ code, (dispatch services request located).1 =
          [.recordStatus code]) := by
  by_cases isFastcgi : located.location.config.handler = .fastcgi
  · have sameBranch :
        dispatch services request located =
          dispatchFastcgi services request located := by
      rw [dispatch, isFastcgi]
    rw [sameBranch]
    exact dispatchFastcgi_calls isFastcgi
  · refine .inl ⟨fun answers => isFastcgi answers.1, ?_⟩
    unfold dispatch
    cases isHandler : located.location.config.handler with
    | fastcgi =>
        exact absurd isHandler isFastcgi
    | static =>
        rfl
    | websocket =>
        rfl
    | reverseProxy =>
        rfl
    | grpc =>
        rfl
    | plugin name =>
        rfl

/-- A custom page for an error has its status. -/
theorem status_errorPageOf?
    {status : Nat}
    {page : WebResponse}
    (isPage : errorPageOf? services located status = some page) :
    page.status = status := by
  unfold errorPageOf? at isPage
  split at isPage
  · obtain ⟨pagePath, _, isRooted⟩ := Option.bind_eq_some_iff.mp isPage
    obtain ⟨root, _, isRead⟩ := Option.bind_eq_some_iff.mp isRooted
    obtain ⟨content, _, rfl⟩ := Option.map_eq_some_iff.mp isRead
    rfl
  · cases isPage

/-- What follows the handler records the status that is sent. -/
theorem finish_records (response : WebResponse) :
    ∃ sent,
      (finish services state request located response).response =
          some sent ∧
        (finish services state request located response).recorded =
            [sent.status] ∧
          .incRequests ∉
            (finish services state request located response).calls := by
  unfold finish
  dsimp only
  cases isPage : errorPageOf? services located
      (afterHandler services located.location.config response).status with
  | some page =>
      refine ⟨page, rfl, ?_, by simp⟩
      rw [status_errorPageOf? isPage]
      rfl
  | none =>
      dsimp only
      split
      · exact ⟨_, rfl, rfl, by simp⟩
      · exact ⟨_, rfl, rfl, by simp⟩

/-- The handler has two faults. -/
theorem handle_recordedOnce_iff :
    (RecordedOnce (handle services state request located) ↔
        ¬(TryFilesAnswers services request located ∨
            HandlerPanics services request located)) ∧
      .incRequests ∉ (handle services state request located).calls := by
  have quiet :
      .incRequests ∉ (dispatch services request located).1 := by
    obtain ⟨_, noCalls⟩ | ⟨_, code, calls⟩ :=
      @dispatch_calls services request located
    · simp [noCalls]
    · simp [calls]
  unfold HandlerPanics handle
  dsimp only
  cases isResponse : (dispatch services request located).2 with
  | none =>
      refine ⟨iff_of_false ?_ (not_not_intro (.inr rfl)), quiet⟩
      rintro ⟨response, isNone, _⟩
      cases isNone
  | some response =>
      obtain ⟨sent, isSent, recorded, quietFinish⟩ :=
        @finish_records services state request located response
      constructor
      · obtain ⟨notCode, noCalls⟩ | ⟨isCode, code, calls⟩ :=
          @dispatch_calls services request located
        · rw [noCalls]
          apply iff_of_true
          · exact ⟨sent, isSent, recorded⟩
          · rintro (answers | isNone)
            · exact notCode answers
            · cases isNone
        · rw [calls]
          apply iff_of_false
          · rintro ⟨other, _, once⟩
            have both :
                code ::
                    (finish services state request located
                      response).recorded =
                  [other.status] :=
              once
            rw [recorded] at both
            cases both
          · exact not_not_intro (.inl isCode)
      · exact fun isCall =>
          (List.mem_append.mp isCall).elim quiet quietFinish

end Handled

/-! ## Every request -/

/-- How a request is not counted once. -/
inductive Miscounted
    (services : Services)
    (state : AppState)
    (request : Request) :
    Prop where
  | refused
      (overloaded : isOverloaded state = true)
  | clientIp
      (site : Site)
      (reached : reachSite services state request = .ok site)
      (noAddress : ClientIpPanics services request site)
  | returned
      (located : Located)
      (reached : locate services state request = .ok located)
      (noStatus : ReturnsNoStatus request located.location.config)
  | access
      (located : Located)
      (reached : locate services state request = .ok located)
      (notReturned :
        beforeAccess services request located.location = .ok ())
      (noDecision : AccessPanics services located)
  | denied
      (located : Located)
      (reached : locate services state request = .ok located)
      (notBarred : beforeAuth services request located = .ok ())
      (noStatus : DeniesWithoutStatus services request located)
  | tryFiles
      (located : Located)
      (reached : locate services state request = .ok located)
      (admitted : letThrough services request located = .ok ())
      (answers : TryFilesAnswers services request located)
  | handler
      (located : Located)
      (reached : locate services state request = .ok located)
      (admitted : letThrough services request located = .ok ())
      (fails : HandlerPanics services request located)

section Counted

variable
  {services : Services}
  {state : AppState}
  {request : Request}

/-- The stages of a request that is let in, with its handler as the last. -/
theorem serve_eq :
    (do
      let located ← locate services state request
      letThrough services request located
      (.error (handle services state request located) : Stage Unit)) =
      .error (serve services state request) := by
  unfold serve
  cases locate services state request with
  | error ended =>
      rfl
  | ok located =>
      dsimp only [bind, Except.bind]
      cases letThrough services request located with
      | error ended =>
          rfl
      | ok _ =>
          rfl

/-- A request that is let in is recorded once if it meets no fault. -/
theorem faults_serve
    (letIn : isOverloaded state = false) :
    Faults (.error (serve services state request) : Stage Unit)
      (Miscounted services state request) := by
  rw [← serve_eq]
  apply Faults.congr
  · apply faults_bind faults_locate
    intro located _
    apply faults_then faults_letThrough
    have handled := @handle_recordedOnce_iff services state request located
    exact faults_ended handled.1 handled.2
  · constructor
    · rintro (⟨site, reached, noAddress⟩ | ⟨located, reached, atLocation⟩)
      · exact .clientIp site reached noAddress
      · obtain ((noStatus | ⟨notReturned, noDecision⟩) |
          ⟨notBarred, noStatus⟩) | ⟨admitted, answers | fails⟩ := atLocation
        · exact .returned located reached noStatus
        · exact .access located reached notReturned noDecision
        · exact .denied located reached notBarred noStatus
        · exact .tryFiles located reached admitted answers
        · exact .handler located reached admitted fails
    · intro miscounted
      cases miscounted with
      | refused overloaded =>
          rw [letIn] at overloaded
          cases overloaded
      | clientIp site reached noAddress =>
          exact .inl ⟨site, reached, noAddress⟩
      | returned located reached noStatus =>
          exact .inr ⟨located, reached, .inl (.inl (.inl noStatus))⟩
      | access located reached notReturned noDecision =>
          exact .inr ⟨located, reached,
            .inl (.inl (.inr ⟨notReturned, noDecision⟩))⟩
      | denied located reached notBarred noStatus =>
          exact .inr ⟨located, reached, .inl (.inr ⟨notBarred, noStatus⟩)⟩
      | tryFiles located reached admitted answers =>
          exact .inr ⟨located, reached, .inr ⟨admitted, .inl answers⟩⟩
      | handler located reached admitted fails =>
          exact .inr ⟨located, reached, .inr ⟨admitted, .inr fails⟩⟩

/-- The handler counts a request that is let in once. -/
theorem countedOnce_of_letIn
    (letIn : isOverloaded state = false) :
    CountedOnce (multiSiteHandler services state request) ↔
      RecordedOnce (serve services state request) := by
  have quiet :=
    (@faults_serve services state request letIn).quiet _ rfl
  have notOverloaded : ¬isOverloaded state = true :=
    Bool.eq_false_iff.mp letIn
  unfold multiSiteHandler
  rw [if_neg notOverloaded]
  have counted :
      (MetricCall.incRequests ::
            (serve services state request).calls ++
          [MetricCall.decActive]).count MetricCall.incRequests =
        1 := by
    rw [List.count_append, List.count_cons_self,
      List.count_eq_zero_of_not_mem quiet]
    rfl
  have sameRecorded :
      (MetricCall.incRequests ::
            (serve services state request).calls ++
          [MetricCall.decActive]).filterMap MetricCall.status? =
        (serve services state request).recorded := by
    rw [List.filterMap_append, List.filterMap_cons]
    exact List.append_nil _
  unfold CountedOnce RecordedOnce
  dsimp only [Served.recorded]
  rw [sameRecorded, and_iff_left counted]
  rfl

end Counted

/--
Every request is counted once, with the status of the response that is sent,
except for the requests that are miscounted.
-/
theorem counted_once_iff
    (services : Services)
    (state : AppState)
    (request : Request) :
    CountedOnce (multiSiteHandler services state request) ↔
      ¬Miscounted services state request := by
  cases overloaded : isOverloaded state with
  | true =>
      apply iff_of_false
      · rintro ⟨_, counted⟩
        rw [multiSiteHandler, if_pos overloaded] at counted
        cases counted
      · exact not_not_intro (.refused overloaded)
  | false =>
      rw [countedOnce_of_letIn overloaded]
      exact (faults_serve overloaded).ends _ rfl

/-! ## The counters -/

/-- The counters after some changes. -/
def GlobalMetrics.afterAll
    (metrics : GlobalMetrics)
    (calls : List MetricCall) :
    GlobalMetrics :=
  calls.foldl GlobalMetrics.after metrics

/-- The statuses that some changes record. -/
def statuses (calls : List MetricCall) : List Nat :=
  calls.filterMap MetricCall.status?

/-- Whether a status counts as an error of the client. -/
def isClientError (status : Nat) : Bool :=
  400 ≤ status && status < 500

/-- Whether a status counts as an error of the server. -/
def isServerError (status : Nat) : Bool :=
  500 ≤ status

/-- What three counters have gained. -/
structure Gained
    (before after : GlobalMetrics)
    (requests clientErrors serverErrors : Nat) :
    Prop where
  requests :
    after.totalRequests =
      before.totalRequests + BitVec.ofNat 64 requests
  clientErrors :
    after.totalErrors4xx =
      before.totalErrors4xx + BitVec.ofNat 64 clientErrors
  serverErrors :
    after.totalErrors5xx =
      before.totalErrors5xx + BitVec.ofNat 64 serverErrors

theorem Gained.trans
    {first second third : GlobalMetrics}
    {requests clientErrors serverErrors : Nat}
    {moreRequests moreClientErrors moreServerErrors : Nat}
    (gained : Gained first second requests clientErrors serverErrors)
    (more :
      Gained second third moreRequests moreClientErrors
        moreServerErrors) :
    Gained first third (requests + moreRequests)
      (clientErrors + moreClientErrors)
      (serverErrors + moreServerErrors) where
  requests := by
    rw [more.requests, gained.requests, BitVec.ofNat_add, BitVec.add_assoc]
  clientErrors := by
    rw [more.clientErrors, gained.clientErrors, BitVec.ofNat_add,
      BitVec.add_assoc]
  serverErrors := by
    rw [more.serverErrors, gained.serverErrors, BitVec.ofNat_add,
      BitVec.add_assoc]

/-- One change. -/
theorem gained_after (metrics : GlobalMetrics) (call : MetricCall) :
    Gained metrics (metrics.after call) ([call].count .incRequests)
      ((statuses [call]).countP isClientError)
      ((statuses [call]).countP isServerError) := by
  cases call with
  | incRequests =>
      exact ⟨rfl, (BitVec.add_zero _).symm, (BitVec.add_zero _).symm⟩
  | decActive =>
      exact ⟨(BitVec.add_zero _).symm, (BitVec.add_zero _).symm,
        (BitVec.add_zero _).symm⟩
  | recordBytesSent bytes =>
      exact ⟨(BitVec.add_zero _).symm, (BitVec.add_zero _).symm,
        (BitVec.add_zero _).symm⟩
  | recordStatus status =>
      by_cases isServer : 500 ≤ status
      · have notClient : ¬status < 500 := Nat.not_lt.mpr isServer
        constructor <;>
          simp [GlobalMetrics.after, statuses, MetricCall.status?,
            isClientError, isServerError, isServer, notClient]
      · by_cases isClient : 400 ≤ status
        · have notServer : status < 500 := Nat.not_le.mp isServer
          constructor <;>
            simp [GlobalMetrics.after, statuses, MetricCall.status?,
              isClientError, isServerError, isServer, isClient, notServer]
        · constructor <;>
            simp [GlobalMetrics.after, statuses, MetricCall.status?,
              isClientError, isServerError, isServer, isClient]

/-- A run of changes. -/
theorem gained_afterAll
    (metrics : GlobalMetrics)
    (calls : List MetricCall) :
    Gained metrics (metrics.afterAll calls) (calls.count .incRequests)
      ((statuses calls).countP isClientError)
      ((statuses calls).countP isServerError) := by
  induction calls generalizing metrics with
  | nil =>
      exact ⟨(BitVec.add_zero _).symm, (BitVec.add_zero _).symm,
        (BitVec.add_zero _).symm⟩
  | cons call rest inductionHypothesis =>
      have both :=
        (gained_after metrics call).trans
          (inductionHypothesis (metrics.after call))
      have split : call :: rest = [call] ++ rest := rfl
      rw [split, List.count_append, statuses, List.filterMap_append,
        List.countP_append, List.countP_append]
      exact both

/-- A request that counts as one, whose response meets a test. -/
theorem countP_recorded
    {served : Served}
    (counted : CountedOnce served)
    (test : Nat → Bool) :
    (statuses served.calls).countP test =
      if served.response.any (fun response => test response.status) then
        1
      else
        0 := by
  obtain ⟨⟨response, isResponse, recorded⟩, _⟩ := counted
  have sameStatuses : statuses served.calls = [response.status] := recorded
  rw [sameStatuses, isResponse, List.countP_singleton]
  rfl

theorem statuses_flatMap_countP
    {served : List Served}
    (counted : ∀ one ∈ served, CountedOnce one)
    (test : Nat → Bool) :
    (statuses (served.flatMap Served.calls)).countP test =
      served.countP fun one =>
        one.response.any fun response => test response.status := by
  induction served with
  | nil =>
      rfl
  | cons first rest inductionHypothesis =>
      have later :=
        inductionHypothesis fun one member =>
          counted one (List.mem_cons_of_mem first member)
      have now := countP_recorded (counted first List.mem_cons_self) test
      rw [List.flatMap_cons, statuses, List.filterMap_append,
        List.countP_append, List.countP_cons]
      exact (congr (congrArg _ now) later).trans (Nat.add_comm _ _)

theorem count_flatMap_incRequests
    {served : List Served}
    (counted : ∀ one ∈ served, CountedOnce one) :
    (served.flatMap Served.calls).count .incRequests = served.length := by
  induction served with
  | nil =>
      rfl
  | cons first rest inductionHypothesis =>
      have later :=
        inductionHypothesis fun one member =>
          counted one (List.mem_cons_of_mem first member)
      rw [List.flatMap_cons, List.count_append,
        (counted first List.mem_cons_self).2, later, List.length_cons,
        Nat.add_comm]

/--
However the changes of some requests interleave, if each was counted once then
the counters gain the number of the requests and of their errors.
-/
theorem gained_of_countedOnce
    {served : List Served}
    {calls : List MetricCall}
    (counted : ∀ one ∈ served, CountedOnce one)
    (interleaved : calls.Perm (served.flatMap Served.calls))
    (metrics : GlobalMetrics) :
    Gained metrics (metrics.afterAll calls) served.length
      (served.countP fun one =>
        one.response.any fun response => isClientError response.status)
      (served.countP fun one =>
        one.response.any fun response =>
          isServerError response.status) := by
  have gained := gained_afterAll metrics calls
  have sameStatuses :
      (statuses calls).Perm (statuses (served.flatMap Served.calls)) :=
    interleaved.filterMap MetricCall.status?
  rwa [interleaved.count_eq, sameStatuses.countP_eq isClientError,
    sameStatuses.countP_eq isServerError,
    count_flatMap_incRequests counted,
    statuses_flatMap_countP counted isClientError,
    statuses_flatMap_countP counted isServerError] at gained

/-! ## A missing page of a FastCGI site -/

/-- A server on which no file is there and every handler answers 200. -/
def emptyServices : Services :=
  let done : WebResponse := { status := 200, headers := ∅, body := [] }
  { ipv6 := ⟨fun _ => [], fun _ => none⟩
    build := fun _ => none
    statCached := fun _ => ⟨false, false, false, false⟩
    disk := ⟨some, fun _ => false, fun _ => false, fun _ => false⟩
    readFile := fun _ => none
    errorPage := fun _ => []
    acmeTokens := fun _ => none
    acmeReady := fun _ => false
    doAuthRequest := fun _ _ _ _ => none
    plugins := fun _ => none
    customHandlers := fun _ => none
    staticFile := fun _ _ _ => some done
    fastcgi := fun _ _ _ _ => some done
    websocket := fun _ _ => some done
    reverseProxy := fun _ _ _ => some done
    grpc := fun _ _ _ => some done }

/-- A location with `try_files = ["=404"]`. -/
def missingLocation : Location where
  config :=
    { Router.defaultLocation with
      path := "/"
      handler := .fastcgi
      tryFiles := ["=404"] }
  connCount := 0

/-- A server with one site, which has this location. -/
def missingState : AppState where
  registry :=
    { exact := ∅
      wildcard := ∅
      fallback :=
        some
          { config :=
              { name := "shop"
                serverName := []
                listenTls := []
                fallback := true
                tls := none
                accessLog := none
                accessLogFormat := none
                proxyCache := none
                fastcgiCache := none
                other :=
                  { acme := false
                    forceHttps := false
                    listenTls := []
                    realIp := none
                    rewrites := []
                    root := some "/srv".toList
                    locations := [missingLocation]
                    errorPages := ∅
                    hstsHeaderValue := none } }
            resources := ⟨none, none, none⟩ } }
  maxConnections := 0
  maxBodyBytes := 0
  activeConnections := 0
  h3Ports := []

/-- `GET /missing`. -/
def missingRequest : Request where
  method := "GET".toList
  authority := none
  path := "/missing".toList
  pathAndQuery := some "/missing".toList
  headers := []
  isTls := false
  connIp := .v4 ⟨192, 0, 2, 1⟩

theorem missing_recorded_twice :
    (multiSiteHandler emptyServices missingState missingRequest).recorded =
        [404, 404] ∧
      ¬CountedOnce
          (multiSiteHandler emptyServices missingState missingRequest) := by
  have twice :
      (multiSiteHandler emptyServices missingState
          missingRequest).recorded =
        [404, 404] := by
    decide
  refine ⟨twice, ?_⟩
  rintro ⟨⟨response, _, once⟩, _⟩
  rw [twice] at once
  have sameLength := congrArg List.length once
  cases sameLength

end Sweety.SiteHandler
