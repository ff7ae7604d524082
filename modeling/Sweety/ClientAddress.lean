import Sweety.BackendHeaders
import Sweety.CacheTransparency
import Sweety.RequestHead

namespace Sweety.ClientAddress

open HttpText ForwardRequest ProxyProtocol RealIp BackendHeaders

/-!
# The address that a backend sees

Each path tells the backend the address of the client: a field `X-Real-IP`, or
the parameter `REMOTE_ADDR`.  Whether it is the only such field, and whether it
says what the router found, depends on the headers of the client and on the
configuration.
-/

/-! ## The heads as lists of fields -/

/-- A field as it is written. -/
def fieldLine (field : List Char × List Char) : List Char :=
  field.1 ++ ": ".toList ++ field.2 ++ "\r\n".toList

/-- A header that is passed on, as it is written. -/
def passedField (header : String × String) : List Char × List Char :=
  (sanitize header.1.toList, sanitize header.2.toList)

/-- The fields that say how the body is sent. -/
def framingFields (request : Request) : List (List Char × List Char) :=
  if request.hasBody then
    (match request.knownContentLength with
      | none =>
          [("Transfer-Encoding".toList, "chunked".toList)]
      | some length =>
          [("Content-Length".toList, Nat.toDigits 10 length)]) ++
      if request.hasExpectContinue then
        [("Expect".toList, "100-continue".toList)]
      else
        []
  else
    []

/-- The fields of the head of an HTTP/1 request. -/
def http1Fields (request : Request) : List (List Char × List Char) :=
  ("Host".toList, request.host.toList) ::
    request.passedHeaders.map passedField ++
    [("X-Real-IP".toList, sanitize request.clientIp.toList),
      ("X-Forwarded-For".toList, sanitize request.clientIp.toList),
      ("X-Forwarded-Proto".toList, sanitize request.clientProto.toList),
      ("Connection".toList, "keep-alive".toList)] ++
    framingFields request

/-- The fields of the head of a WebSocket handshake. -/
def upgradeFields (upgrade : Upgrade) : List (List Char × List Char) :=
  ("Host".toList, upgrade.host) ::
    upgrade.extraHeaders.map passedField ++
    [("X-Real-IP".toList, sanitize upgrade.clientIp),
      ("X-Forwarded-For".toList, sanitize upgrade.clientIp)] ++
    (if upgrade.has "upgrade" then
      []
    else
      [("Upgrade".toList, "websocket".toList)]) ++
    (if upgrade.has "sec-websocket-key" then
      []
    else
      [("Sec-WebSocket-Key".toList, upgrade.freshKey)]) ++
    (if upgrade.has "sec-websocket-version" then
      []
    else
      [("Sec-WebSocket-Version".toList, "13".toList)]) ++
    [("Connection".toList, "Upgrade".toList)]

theorem flatMap_passedHeaders (headers : List (String × String)) :
    (headers.flatMap fun header =>
        if Request.isOwnHeader header.1.toList then
          []
        else
          headerLine header.1.toList header.2.toList) =
      ((headers.filter fun header =>
          !Request.isOwnHeader header.1.toList).map passedField).flatMap
        fieldLine := by
  induction headers with
  | nil =>
      rfl
  | cons header others inductionHypothesis =>
      rw [List.flatMap_cons, inductionHypothesis, List.filter_cons]
      cases Request.isOwnHeader header.1.toList with
      | true =>
          rfl
      | false =>
          rfl

/-- A header of the proxy itself is a field. -/
theorem headerLine_eq_fieldLine
    {name : List Char}
    (isOwn : sanitize name = name)
    (value : List Char) :
    headerLine name value = fieldLine (name, sanitize value) := by
  rw [headerLine, isOwn]
  rfl

/-- A line that begins with the name and a colon is a field. -/
theorem fieldLine_of_label
    {label name : List Char}
    (isLabel : label = name ++ ": ".toList)
    (value : List Char) :
    label ++ value ++ "\r\n".toList = fieldLine (name, value) := by
  rw [isLabel]
  rfl

/-- The first field stands right behind the request line. -/
theorem hostLine_eq_fieldLine (host rest : List Char) :
    " HTTP/1.1\r\nHost: ".toList ++ (host ++ ("\r\n".toList ++ rest)) =
      " HTTP/1.1\r\n".toList ++
        (fieldLine ("Host".toList, host) ++ rest) := by
  have isStart :
      " HTTP/1.1\r\nHost: ".toList =
        " HTTP/1.1\r\n".toList ++ ("Host".toList ++ ": ".toList) :=
    rfl
  rw [isStart]
  simp only [fieldLine, List.append_assoc]

theorem framing_eq_fields (request : Request) :
    request.framing = (framingFields request).flatMap fieldLine := by
  have isCoding :
      "Transfer-Encoding: chunked\r\n".toList =
        fieldLine ("Transfer-Encoding".toList, "chunked".toList) :=
    rfl
  have isLength (length : Nat) :
      "Content-Length: ".toList ++ Nat.toDigits 10 length ++
          "\r\n".toList =
        fieldLine ("Content-Length".toList, Nat.toDigits 10 length) :=
    fieldLine_of_label (by rfl) (Nat.toDigits 10 length)
  have isExpect :
      "Expect: 100-continue\r\n".toList =
        fieldLine ("Expect".toList, "100-continue".toList) :=
    rfl
  unfold Request.framing framingFields
  rw [isCoding, isExpect]
  cases request.hasBody with
  | false =>
      rfl
  | true =>
      cases request.knownContentLength <;>
        cases request.hasExpectContinue <;>
          simp only [isLength, if_true, if_false, Bool.false_eq_true,
            List.flatMap_append, List.flatMap_cons, List.flatMap_nil,
            List.append_nil]

/-- The head of an HTTP/1 request is its line and its fields. -/
theorem headText_eq_fields (request : Request) :
    request.headText =
      request.method.toList ++ [' '] ++ request.path.toList ++
        " HTTP/1.1\r\n".toList ++
        (http1Fields request).flatMap fieldLine ++
        "\r\n".toList := by
  have isConnection :
      "Connection: keep-alive\r\n".toList =
        fieldLine ("Connection".toList, "keep-alive".toList) :=
    rfl
  unfold Request.headText http1Fields
  rw [framing_eq_fields, flatMap_passedHeaders, Request.passedHeaders]
  simp only [List.cons_append, List.flatMap_cons, List.flatMap_append,
    List.append_assoc, List.nil_append]
  rw [hostLine_eq_fieldLine, headerLine_eq_fieldLine (by decide),
    headerLine_eq_fieldLine (by decide),
    headerLine_eq_fieldLine (by decide), isConnection]

/-- A field that is left out if the client sent it. -/
theorem flatMap_unless
    (skip : Bool)
    (field : List Char × List Char) :
    (if skip then [] else [field]).flatMap fieldLine =
      if skip then [] else fieldLine field := by
  cases skip with
  | true =>
      rfl
  | false =>
      exact List.flatMap_singleton _ _

/-- So is the head of a handshake. -/
theorem headText_eq_upgradeFields (upgrade : Upgrade) :
    upgrade.headText =
      "GET ".toList ++ upgrade.path ++ " HTTP/1.1\r\n".toList ++
        (upgradeFields upgrade).flatMap fieldLine ++
        "\r\n".toList := by
  have isPassed :
      (upgrade.extraHeaders.flatMap fun header =>
          headerLine header.1.toList header.2.toList) =
        (upgrade.extraHeaders.map passedField).flatMap fieldLine := by
    rw [List.flatMap_map]
    rfl
  unfold Upgrade.headText
  rw [isPassed]
  unfold upgradeFields
  simp only [List.cons_append, List.flatMap_cons, List.flatMap_append,
    List.flatMap_nil, flatMap_unless, List.append_assoc,
    List.append_nil, List.nil_append]
  have isUpgrade :
      "Upgrade: websocket\r\n".toList =
        fieldLine ("Upgrade".toList, "websocket".toList) :=
    rfl
  have isVersion :
      "Sec-WebSocket-Version: 13\r\n".toList =
        fieldLine ("Sec-WebSocket-Version".toList, "13".toList) :=
    rfl
  have isKey :
      "Sec-WebSocket-Key: ".toList ++
          (upgrade.freshKey ++ "\r\n".toList) =
        fieldLine ("Sec-WebSocket-Key".toList, upgrade.freshKey) := by
    rw [← List.append_assoc]
    exact fieldLine_of_label (by rfl) upgrade.freshKey
  have isConnection :
      "Connection: Upgrade\r\n\r\n".toList =
        fieldLine ("Connection".toList, "Upgrade".toList) ++
          "\r\n".toList :=
    rfl
  rw [hostLine_eq_fieldLine, headerLine_eq_fieldLine (by decide),
    headerLine_eq_fieldLine (by decide), isKey]
  rw [isUpgrade, isVersion, isConnection]

/-! ## The claim of a field -/

/-- The values of the fields with this name. -/
def valuesOf
    (isName : List Char → Bool)
    (fields : List (List Char × List Char)) :
    List (List Char) :=
  (fields.filter fun field => isName field.1).map Prod.snd

/-- `X-Real-IP`, in any case. -/
def isRealIp (name : List Char) : Bool :=
  eqIgnoreAsciiCase name "X-Real-IP".toList

/-- The addresses of the client that a backend is told. -/
def addresses
    (exchange : Exchange)
    (freshKey : List Char) :
    Via → List (List Char)
  | .http1 =>
      valuesOf isRealIp (http1Fields exchange.request)
  | .http2 =>
      valuesOf isRealIp
        (UpstreamH2.requestHeaders exchange.tools exchange.request)
  | .webSocket =>
      valuesOf isRealIp (upgradeFields (exchange.upgrade freshKey))
  | .fastcgi =>
      exchange.remoteAddr?.elim [] fun remoteAddr =>
        valuesOf (· == "REMOTE_ADDR".toList) (exchange.params remoteAddr)

/-- The backend is told one address, which is the one that the router found. -/
def AddressTrue (exchange : Exchange) (via : Via) : Prop :=
  ∀ freshKey effective,
    effectiveClientIp? exchange.ipv6 exchange.realIp exchange.connIp
        exchange.headers =
      some effective →
    addresses exchange freshKey via = [ipText exchange.ipv6 effective]

/-- A header is read as the address, where it is passed on. -/
def Claims (exchange : Exchange) (via : Via) (name value : String) :
    Prop :=
  isRealIp name.toList = true ∧
    (via = .http2 →
      exchange.tools.validName name.toList = true ∧
        exchange.tools.validValue value.toList = true)

/--
Neither the client nor the configuration sets a field of its own: each header
that claims to be the address is replaced by a later setting.
-/
structure Unclaimed (exchange : Exchange) (via : Via) : Prop where
  client :
    ∀ header ∈ exchange.headers,
      ∀ text,
        toStr? header.2 = some text →
        Claims exchange via header.1 (String.ofList text) →
        ∃ setting ∈ exchange.settings,
          eqIgnoreAsciiCase header.1.toList setting.name.toList = true
  configured :
    ∀ earlier setting later,
      exchange.settings = earlier ++ setting :: later →
      Claims exchange via setting.name (exchange.expand setting.value) →
      ∃ other ∈ later,
        eqIgnoreAsciiCase setting.name.toList other.name.toList = true

/-- When the address is true. -/
def Safe (exchange : Exchange) (via : Via) : Prop :=
  via = .fastcgi ∨
    ∀ effective,
      effectiveClientIp? exchange.ipv6 exchange.realIp exchange.connIp
          exchange.headers =
        some effective →
      effective = exchange.connIp ∧ Unclaimed exchange via

/-! ## Settings -/

section Settings

variable {exchange : Exchange}

/-- What is left after the settings: what none of them replaces. -/
theorem mem_applySettings
    {settings : List ConfigModel.HeaderOverride}
    {headers : List (String × String)}
    {header : String × String} :
    header ∈ settings.foldl exchange.applySetting headers ↔
      (header ∈ headers ∧
        ∀ setting ∈ settings,
          eqIgnoreAsciiCase header.1.toList setting.name.toList =
            false) ∨
      ∃ earlier setting later,
        settings = earlier ++ setting :: later ∧
          header = (setting.name, exchange.expand setting.value) ∧
          ∀ other ∈ later,
            eqIgnoreAsciiCase setting.name.toList other.name.toList =
              false := by
  induction settings generalizing headers with
  | nil =>
      simp
  | cons first rest inductionHypothesis =>
      rw [List.foldl_cons, inductionHypothesis, Exchange.applySetting,
        List.mem_append, List.mem_filter, List.mem_singleton]
      constructor
      · rintro (⟨⟨isHeader, kept⟩ | isFirst, survives⟩ |
          ⟨earlier, setting, later, isRest, isSetting, survives⟩)
        · refine .inl ⟨isHeader, List.forall_mem_cons.mpr ⟨?_, survives⟩⟩
          simpa using kept
        · exact .inr ⟨[], first, rest, rfl, isFirst, by
            rw [isFirst] at survives
            exact survives⟩
        · exact .inr
            ⟨first :: earlier, setting, later, by rw [isRest]; rfl,
              isSetting, survives⟩
      · rintro (⟨isHeader, survives⟩ |
          ⟨earlier, setting, later, isAll, isSetting, survives⟩)
        · obtain ⟨kept, later⟩ := List.forall_mem_cons.mp survives
          exact .inl ⟨.inl ⟨isHeader, by simp [kept]⟩, later⟩
        · cases earlier with
          | nil =>
              obtain ⟨rfl, rfl⟩ := List.cons.inj isAll
              refine .inl ⟨.inr isSetting, ?_⟩
              rw [isSetting]
              exact survives
          | cons earliest others =>
              obtain ⟨rfl, isRest⟩ := List.cons.inj isAll
              exact .inr
                ⟨others, setting, later, isRest, isSetting, survives⟩

theorem not_isHopByHop_of_isRealIp
    {name : List Char}
    (isName : isRealIp name = true) :
    isHopByHop name = false := by
  have isLower := eq_of_beq isName
  rw [isHopByHop, isLower, Bool.and_eq_false_iff]
  exact .inr (by decide)

/-- A header that claims to be the address is kept, if it is readable. -/
theorem mem_keptHeaders
    {isWs : Bool}
    {header : String × String}
    (isName : isRealIp header.1.toList = true) :
    header ∈ exchange.keptHeaders isWs ↔
      ∃ given ∈ exchange.headers,
        given.1 = header.1 ∧
          (toStr? given.2).map String.ofList = some header.2 := by
  rw [Exchange.keptHeaders, List.mem_filterMap]
  constructor
  · rintro ⟨given, isGiven, isKept⟩
    split at isKept
    · cases isKept
    · cases isText : toStr? given.2 with
      | none =>
          rw [isText] at isKept
          cases isKept
      | some text =>
          rw [isText] at isKept
          cases isKept
          exact ⟨given, isGiven, rfl, by rw [isText]; rfl⟩
  · rintro ⟨given, isGiven, isFirst, isText⟩
    refine ⟨given, isGiven, ?_⟩
    rw [isFirst, not_isHopByHop_of_isRealIp isName, Bool.and_false,
      if_neg Bool.false_ne_true]
    cases isValue : toStr? given.2 with
    | none =>
        rw [isValue] at isText
        cases isText
    | some text =>
        rw [isValue] at isText
        exact congrArg some (Prod.ext rfl (Option.some.inj isText))

/-- No header that is left claims to be the address. -/
theorem unclaimed_iff {via : Via} {isWs : Bool} :
    Unclaimed exchange via ↔
      ∀ header ∈ exchange.clientHeaders isWs,
        ¬ Claims exchange via header.1 header.2 := by
  constructor
  · intro unclaimed header isHeader claims
    rcases mem_applySettings.mp isHeader with
      ⟨isKept, survives⟩ |
        ⟨earlier, setting, later, isAll, rfl, survives⟩
    · obtain ⟨given, isGiven, isName, isText⟩ :=
        (mem_keptHeaders claims.1).mp isKept
      obtain ⟨text, isText, isValue⟩ := Option.map_eq_some_iff.mp isText
      rw [← isName, ← isValue] at claims
      obtain ⟨setting, isSetting, replaces⟩ :=
        unclaimed.client given isGiven text isText claims
      rw [isName, survives setting isSetting] at replaces
      cases replaces
    · obtain ⟨other, isOther, replaces⟩ :=
        unclaimed.configured earlier setting later isAll claims
      rw [survives other isOther] at replaces
      cases replaces
  · intro none
    constructor
    · intro given isGiven text isText claims
      by_contra survives
      have isAddress :
          isRealIp (given.1, String.ofList text).1.toList = true :=
        claims.1
      have isKept :
          (given.1, String.ofList text) ∈ exchange.keptHeaders isWs :=
        (mem_keptHeaders isAddress).mpr
          ⟨given, isGiven, rfl, by rw [isText]; rfl⟩
      have isHeader :
          (given.1, String.ofList text) ∈ exchange.clientHeaders isWs := by
        apply mem_applySettings.mpr
        refine .inl ⟨isKept, ?_⟩
        intro setting isSetting
        by_contra replaces
        exact survives ⟨setting, isSetting, by simpa using replaces⟩
      exact none _ isHeader claims
    · intro earlier setting later isAll claims
      by_contra survives
      refine none _
        (mem_applySettings.mpr
          (.inr ⟨earlier, setting, later, isAll, rfl, ?_⟩)) claims
      intro other isOther
      by_contra replaces
      exact survives ⟨other, isOther, by simpa using replaces⟩

end Settings

/-! ## The fields that a backend gets -/

theorem oneLine_ipText
    {ipv6 : Ipv6Text}
    {ip : IpAddr}
    (writes : WritesIp ipv6 ip) :
    Rfc7230.OneLine (ipText ipv6 ip) := by
  refine ⟨(plainText_ipText writes).noReturn, ?_⟩
  cases ip with
  | v4 ip =>
      have noFeed := not_mem_toDigits (show '\n'.isDigit = false from rfl)
      simp [ipText, noFeed]
  | v6 ip =>
      intro isFeed
      exact absurd (writes.alphabet _ isFeed) (by decide)

theorem ipText_injective
    {ipv6 : Ipv6Text}
    {first second : IpAddr}
    (writesFirst : WritesIp ipv6 first)
    (writesSecond : WritesIp ipv6 second)
    (same : ipText ipv6 first = ipText ipv6 second) :
    first = second := by
  have isFirst := parseIp?_ipText writesFirst
  rw [same, parseIp?_ipText writesSecond] at isFirst
  exact (Option.some.inj isFirst).symm

/-- The name of this field has no blank and no line break. -/
theorem ne_of_isRealIp
    {name : List Char}
    (isName : isRealIp name = true) :
    ∀ char ∈ name, char ≠ ' ' ∧ char ≠ '\r' ∧ char ≠ '\n' := by
  intro char isChar
  have isLower : char.toLower ∈ toAsciiLowercase "X-Real-IP".toList := by
    rw [← eq_of_beq isName]
    exact List.mem_map_of_mem isChar
  refine ⟨?_, ?_, ?_⟩
  all_goals
    intro isOther
    rw [isOther] at isLower
    exact absurd isLower (by decide)

/-- What stood in place of a line break is a blank. -/
theorem blank_mem_sanitize
    {text : List Char}
    (breaks : ¬ Rfc7230.OneLine text) :
    ' ' ∈ sanitize text := by
  obtain ⟨char, isChar, isBreak⟩ :
      ∃ char ∈ text, char = '\r' ∨ char = '\n' := by
    by_contra noBreak
    apply breaks
    constructor
    · exact fun isReturn => noBreak ⟨_, isReturn, .inl rfl⟩
    · exact fun isFeed => noBreak ⟨_, isFeed, .inr rfl⟩
  have isSome : (text.any fun char => char == '\r' || char == '\n') := by
    rw [List.any_eq_true]
    exact ⟨char, isChar, by simpa using isBreak⟩
  rw [sanitize, if_pos isSome, List.mem_map]
  rcases isBreak with rfl | rfl
  · refine ⟨13, List.mem_flatMap.mpr ⟨_, isChar, by decide⟩, rfl⟩
  · refine ⟨10, List.mem_flatMap.mpr ⟨_, isChar, by decide⟩, rfl⟩

/-- A name is not changed into the name of this field. -/
theorem isRealIp_sanitize (name : List Char) :
    isRealIp (sanitize name) = isRealIp name := by
  by_cases oneLine : Rfc7230.OneLine name
  · rw [sanitize_of_oneLine oneLine]
  · have notName : isRealIp name = false := by
      by_contra isName
      have noBreak := ne_of_isRealIp (Bool.not_eq_false _ ▸ isName)
      exact oneLine
        ⟨fun isReturn => (noBreak _ isReturn).2.1 rfl,
          fun isFeed => (noBreak _ isFeed).2.2 rfl⟩
    have notSanitized : isRealIp (sanitize name) = false := by
      by_contra isName
      exact
        (ne_of_isRealIp (Bool.not_eq_false _ ▸ isName) _
          (blank_mem_sanitize oneLine)).1 rfl
    rw [notName, notSanitized]

section Fields

variable
  {exchange : Exchange}
  {freshKey : List Char}

theorem valuesOf_append
    {isName : List Char → Bool}
    (first second : List (List Char × List Char)) :
    valuesOf isName (first ++ second) =
      valuesOf isName first ++ valuesOf isName second := by
  rw [valuesOf, List.filter_append, List.map_append]
  rfl

/-- The values of headers that are passed on. -/
theorem valuesOf_passedField (headers : List (String × String)) :
    valuesOf isRealIp (headers.map passedField) =
      (headers.filter fun header => isRealIp header.1.toList).map
        fun header => sanitize header.2.toList := by
  rw [valuesOf, List.filter_map, List.map_map]
  congr 1
  apply List.filter_congr
  intro header _
  exact isRealIp_sanitize header.1.toList

/-- The headers that claim to be the address on this path. -/
def claiming
    (exchange : Exchange)
    (via : Via)
    (isWs : Bool) :
    List (String × String) :=
  (exchange.clientHeaders isWs).filter fun header =>
    isRealIp header.1.toList &&
      (via != .http2 ||
        exchange.tools.validName header.1.toList &&
          exchange.tools.validValue header.2.toList)

theorem claiming_eq_nil_iff {via : Via} {isWs : Bool} :
    claiming exchange via isWs = [] ↔ Unclaimed exchange via := by
  rw [@unclaimed_iff exchange via isWs, claiming, List.filter_eq_nil_iff]
  refine forall₂_congr fun header _ => not_congr ?_
  rw [Claims, Bool.and_eq_true, Bool.or_eq_true, bne_iff_ne,
    Bool.and_eq_true]
  exact and_congr_right fun _ => imp_iff_not_or.symm

theorem valuesOf_cons_other
    {isName : List Char → Bool}
    {name value : List Char}
    (isOther : isName name = false)
    (fields : List (List Char × List Char)) :
    valuesOf isName ((name, value) :: fields) =
      valuesOf isName fields := by
  rw [valuesOf, List.filter_cons_of_neg (by simp [isOther])]
  rfl

theorem valuesOf_cons_same
    {isName : List Char → Bool}
    {name value : List Char}
    (isSame : isName name = true)
    (fields : List (List Char × List Char)) :
    valuesOf isName ((name, value) :: fields) =
      value :: valuesOf isName fields := by
  rw [valuesOf, List.filter_cons_of_pos (by simp [isSame])]
  rfl

theorem valuesOf_optional
    {isName : List Char → Bool}
    {name value : List Char}
    (isOther : isName name = false)
    (skip : Prop)
    [Decidable skip] :
    valuesOf isName (if skip then [] else [(name, value)]) = [] := by
  split
  · rfl
  · exact valuesOf_cons_other isOther []

theorem valuesOf_framingFields (request : Request) :
    valuesOf isRealIp (framingFields request) = [] := by
  have noLength : isRealIp "Content-Length".toList = false := by decide
  have noCoding : isRealIp "Transfer-Encoding".toList = false := by decide
  have noExpect : isRealIp "Expect".toList = false := by decide
  rw [valuesOf, List.map_eq_nil_iff, List.filter_eq_nil_iff]
  intro field isField
  unfold framingFields at isField
  split at isField
  · rcases List.mem_append.mp isField with isCoding | isExpect
    · split at isCoding
      · rw [List.mem_singleton.mp isCoding, noCoding]
        exact Bool.false_ne_true
      · rw [List.mem_singleton.mp isCoding, noLength]
        exact Bool.false_ne_true
    · split at isExpect
      · rw [List.mem_singleton.mp isExpect, noExpect]
        exact Bool.false_ne_true
      · cases isExpect
  · cases isField

theorem not_isOwnHeader_of_isRealIp
    {name : List Char}
    (isName : isRealIp name = true) :
    Request.isOwnHeader name = false := by
  have isLower := eq_of_beq isName
  rw [Request.isOwnHeader, eqIgnoreAsciiCase, eqIgnoreAsciiCase,
    eqIgnoreAsciiCase, isLower]
  decide

theorem claiming_eq_filter
    {via : Via}
    {isWs : Bool}
    (notHttp2 : via ≠ .http2) :
    claiming exchange via isWs =
      (exchange.clientHeaders isWs).filter fun header =>
        isRealIp header.1.toList := by
  rw [claiming]
  congr 1
  funext header
  rw [bne_iff_ne.mpr notHttp2, Bool.true_or, Bool.and_true]

/-- Apart from its own field, an HTTP/1 node gets what claims to be one. -/
theorem addresses_http1
    (writes : WritesIp exchange.ipv6 exchange.connIp) :
    addresses exchange freshKey .http1 =
      (claiming exchange .http1 false).map
          (fun header => sanitize header.2.toList) ++
        [exchange.clientIp] := by
  have isIp :
      sanitize exchange.request.clientIp.toList = exchange.clientIp := by
    rw [Exchange.request, String.toList_ofList]
    exact sanitize_of_oneLine (oneLine_ipText writes)
  have passed :
      exchange.request.passedHeaders.filter
          (fun header => isRealIp header.1.toList) =
        claiming exchange .http1 false := by
    rw [claiming_eq_filter (by decide), Request.passedHeaders,
      List.filter_filter]
    apply List.filter_congr
    intro header _
    cases isName : isRealIp header.1.toList with
    | false =>
        rfl
    | true =>
        rw [not_isOwnHeader_of_isRealIp isName]
        rfl
  rw [addresses, http1Fields, valuesOf_append, valuesOf_framingFields,
    List.append_nil, List.cons_append,
    valuesOf_cons_other (by decide), valuesOf_append,
    valuesOf_passedField, passed, valuesOf_cons_same (by decide),
    valuesOf_cons_other (by decide), valuesOf_cons_other (by decide),
    valuesOf_cons_other (by decide), isIp]
  rfl

/-- The same for a WebSocket node. -/
theorem addresses_webSocket
    (writes : WritesIp exchange.ipv6 exchange.connIp) :
    addresses exchange freshKey .webSocket =
      (claiming exchange .webSocket true).map
          (fun header => sanitize header.2.toList) ++
        [exchange.clientIp] := by
  have isIp : sanitize exchange.clientIp = exchange.clientIp :=
    sanitize_of_oneLine (oneLine_ipText writes)
  have isUpgradeIp :
      (exchange.upgrade freshKey).clientIp = exchange.clientIp :=
    rfl
  rw [addresses, upgradeFields, valuesOf_append, valuesOf_append,
    valuesOf_append, valuesOf_append, valuesOf_optional (by decide),
    valuesOf_optional (by decide), valuesOf_optional (by decide),
    List.append_nil, List.append_nil, List.append_nil,
    valuesOf_cons_other (by decide), List.cons_append,
    valuesOf_cons_other (by decide), valuesOf_append,
    valuesOf_passedField, valuesOf_cons_same (by decide),
    valuesOf_cons_other (by decide), claiming_eq_filter (by decide),
    isUpgradeIp, isIp]
  exact List.append_nil _

theorem isRealIp_toAsciiLowercase (name : List Char) :
    isRealIp (toAsciiLowercase name) = isRealIp name := by
  rw [isRealIp, isRealIp, eqIgnoreAsciiCase, eqIgnoreAsciiCase,
    toAsciiLowercase_toAsciiLowercase]

/-- The name that a header has for an HTTP/2 node. -/
theorem name_of_passed
    {tools : ResponseTools}
    {header : String × String}
    {name value : List Char}
    (isPassed :
      UpstreamH2.passedHeader? tools header = some (name, value)) :
    name = toAsciiLowercase header.1.toList := by
  unfold UpstreamH2.passedHeader? at isPassed
  split at isPassed
  · cases isPassed
  · split at isPassed
    · rename_i isName _
      rw [ResponseTools.name?] at isName
      split at isName
      · cases isPassed
        exact (Option.some.inj isName).symm
      · cases isName
    · cases isPassed

/-- A header that claims to be the address is passed on if it is valid. -/
theorem passed_of_isRealIp
    {tools : ResponseTools}
    {header : String × String}
    (isName : isRealIp header.1.toList = true) :
    UpstreamH2.passedHeader? tools header =
      if tools.validName header.1.toList &&
          tools.validValue header.2.toList then
        some (toAsciiLowercase header.1.toList, header.2.toList)
      else
        none := by
  have isLength :
      eqIgnoreAsciiCase header.1.toList "content-length".toList =
        false := by
    rw [eqIgnoreAsciiCase, eq_of_beq isName]
    decide
  rw [UpstreamH2.passedHeader?, not_isHopByHop_of_isRealIp isName,
    isLength, Bool.or_self, if_neg Bool.false_ne_true,
    ResponseTools.name?, ResponseTools.value?]
  cases tools.validName header.1.toList with
  | false =>
      rfl
  | true =>
      cases tools.validValue header.2.toList with
      | false =>
          rfl
      | true =>
          rfl

/-- The headers for an HTTP/2 node are those that are valid. -/
theorem valuesOf_http2Headers
    (tools : ResponseTools)
    (headers : List (String × String)) :
    valuesOf isRealIp (UpstreamH2.passedHeaders tools headers) =
      (headers.filter fun header =>
        isRealIp header.1.toList &&
          (tools.validName header.1.toList &&
            tools.validValue header.2.toList)).map
        fun header => header.2.toList := by
  induction headers with
  | nil =>
      rfl
  | cons header others inductionHypothesis =>
      rw [UpstreamH2.passedHeaders] at inductionHypothesis ⊢
      rw [List.filterMap_cons, List.filter_cons]
      cases isName : isRealIp header.1.toList with
      | false =>
          rw [Bool.false_and, if_neg Bool.false_ne_true,
            ← inductionHypothesis]
          cases isPassed : UpstreamH2.passedHeader? tools header with
          | none =>
              rfl
          | some field =>
              obtain ⟨name, value⟩ := field
              apply valuesOf_cons_other
              rw [name_of_passed isPassed, isRealIp_toAsciiLowercase,
                isName]
      | true =>
          rw [Bool.true_and, passed_of_isRealIp isName]
          split
          · rename_i noField
            split at noField
            · cases noField
            · rename_i notValid
              rw [if_neg notValid, inductionHypothesis]
          · rename_i field isField
            split at isField
            · rename_i isValid
              cases isField
              rw [if_pos isValid, List.map_cons, ← inductionHypothesis]
              apply valuesOf_cons_same
              rw [isRealIp_toAsciiLowercase, isName]
            · cases isField

/-- The same for an HTTP/2 node, which gets valid headers only. -/
theorem addresses_http2 :
    addresses exchange freshKey .http2 =
      (claiming exchange .http2 false).map
          (fun header => header.2.toList) ++
        [exchange.clientIp] := by
  rw [addresses, UpstreamH2.requestHeaders, valuesOf_append,
    valuesOf_http2Headers, valuesOf_cons_same (by decide),
    valuesOf_cons_other (by decide), valuesOf_cons_other (by decide),
    Exchange.request, String.toList_ofList]
  rfl

theorem valuesOf_headerParams :
    valuesOf (· == "REMOTE_ADDR".toList) exchange.headerParams = [] := by
  rw [valuesOf, List.map_eq_nil_iff, List.filter_eq_nil_iff]
  intro field isField
  obtain ⟨header, _, rfl⟩ := List.mem_map.mp isField
  have isOther :
      (Exchange.paramName header.1 == "REMOTE_ADDR".toList) = false :=
    rfl
  rw [isOther]
  exact Bool.false_ne_true

/-- A FastCGI application gets one address. -/
theorem valuesOf_params (remoteAddr : List Char) :
    valuesOf (· == "REMOTE_ADDR".toList) (exchange.params remoteAddr) =
      [remoteAddr] := by
  have isHttps :
      valuesOf (· == "REMOTE_ADDR".toList)
          (if exchange.isTls then
            [("HTTPS".toList, "on".toList)]
          else
            []) =
        [] := by
    split
    · exact valuesOf_cons_other (by decide) []
    · rfl
  rw [Exchange.params]
  simp (disch := decide) only [List.cons_append, List.nil_append,
    valuesOf_append, valuesOf_cons_other, valuesOf_cons_same,
    valuesOf_optional, valuesOf_headerParams, isHttps]

end Fields

/-! ## The address -/

section Address

variable
  {exchange : Exchange}
  {via : Via}

/-- A FastCGI application gets the address that the router found. -/
theorem remoteAddr_eq :
    exchange.remoteAddr? =
      (effectiveClientIp? exchange.ipv6 exchange.realIp exchange.connIp
        exchange.headers).map (ipText exchange.ipv6) := by
  unfold Exchange.remoteAddr? effectiveClientIp?
  cases exchange.realIp with
  | none =>
      rfl
  | some compiled =>
      dsimp only
      rw [Option.map_map]
      congr 1
      funext found
      cases found with
      | none =>
          rfl
      | some ip =>
          rfl

theorem addressTrue_fastcgi : AddressTrue exchange .fastcgi := by
  intro freshKey effective isEffective
  rw [addresses, remoteAddr_eq, isEffective]
  exact valuesOf_params _

/-- The other paths tell the address of the connection, after what claims it. -/
theorem addresses_eq
    (writes : WritesIp exchange.ipv6 exchange.connIp)
    (notFastcgi : via ≠ .fastcgi)
    (freshKey : List Char) :
    ∃ isWs, ∃ shown : String × String → List Char,
      addresses exchange freshKey via =
        (claiming exchange via isWs).map shown ++ [exchange.clientIp] := by
  cases via with
  | http1 =>
      exact ⟨false, _, addresses_http1 writes⟩
  | http2 =>
      exact ⟨false, _, addresses_http2⟩
  | webSocket =>
      exact ⟨true, _, addresses_webSocket writes⟩
  | fastcgi =>
      exact absurd rfl notFastcgi

/-- One address, and a true one: nothing else claims to be it. -/
theorem singleton_iff
    {effective : IpAddr}
    (writes : WritesIp exchange.ipv6 exchange.connIp)
    (writesEffective : WritesIp exchange.ipv6 effective)
    (notFastcgi : via ≠ .fastcgi)
    (freshKey : List Char) :
    addresses exchange freshKey via = [ipText exchange.ipv6 effective] ↔
      effective = exchange.connIp ∧ Unclaimed exchange via := by
  obtain ⟨isWs, shown, isList⟩ :=
    addresses_eq writes notFastcgi freshKey
  rw [isList, ← @claiming_eq_nil_iff exchange via isWs,
    ← List.nil_append [ipText exchange.ipv6 effective],
    List.append_singleton_inj, List.map_eq_nil_iff, and_comm]
  apply and_congr_left
  intro _
  constructor
  · intro same
    exact (ipText_injective writes writesEffective same).symm
  · rintro rfl
    rfl

end Address

/--
A backend is told one address, the one that the router found: always over
FastCGI; on the other paths, if this is the address of the connection and
neither the client nor the configuration sets the field.
-/
theorem addressTrue_iff
    (exchange : Exchange)
    (via : Via)
    (writes : WritesIp exchange.ipv6 exchange.connIp)
    (writesEffective :
      ∀ effective,
        effectiveClientIp? exchange.ipv6 exchange.realIp exchange.connIp
            exchange.headers =
          some effective →
        WritesIp exchange.ipv6 effective) :
    AddressTrue exchange via ↔ Safe exchange via := by
  by_cases isFastcgi : via = .fastcgi
  · subst isFastcgi
    exact iff_of_true addressTrue_fastcgi (.inl rfl)
  · constructor
    · intro isTrue
      refine .inr fun effective isEffective => ?_
      exact
        (singleton_iff writes (writesEffective effective isEffective)
          isFastcgi []).mp (isTrue [] effective isEffective)
    · intro safe freshKey effective isEffective
      obtain onFastcgi | holds := safe
      · exact absurd onFastcgi isFastcgi
      · exact
          (singleton_iff writes (writesEffective effective isEffective)
            isFastcgi freshKey).mpr (holds effective isEffective)

/-- A request over HTTP/1 of a client that names itself. -/
def sampleExchange (headers : HeaderMap) : Exchange where
  ipv6 := ⟨fun _ => [], fun _ => none⟩
  tools := CacheTransparency.asciiTools
  method := "GET"
  uri := ⟨['/'], none⟩
  headers := headers
  connIp := .v4 ⟨192, 0, 2, 7⟩
  peerPort := 50000
  isTls := false
  uriScheme := none
  authority := none
  realIp := none
  upstreamHost := none
  settings := []
  root := []
  resolvedScript := none
  bodyLength := 0

/-- Without such a header, the node is told the address. -/
theorem addressTrue_sample :
    AddressTrue (sampleExchange [("host", [97])]) .http1 := by
  refine
    (addressTrue_iff (sampleExchange [("host", [97])]) .http1 trivial
      ?_).mpr (.inr ?_)
  · intro effective isEffective
    cases isEffective
    trivial
  · intro effective isEffective
    cases isEffective
    refine ⟨rfl, ?_, ?_⟩
    · intro header isHeader text _ claims
      obtain rfl := List.mem_singleton.mp isHeader
      exact absurd claims.1 (by decide)
    · intro earlier setting later isAll
      exact absurd isAll (by simp [sampleExchange])

/-- With one, it is told what the client says first. -/
theorem not_addressTrue_spoofed :
    ¬ AddressTrue
        (sampleExchange [("x-real-ip", ascii "8.8.8.8")]) .http1 := by
  intro isTrue
  have isOne :=
    (@singleton_iff (sampleExchange [("x-real-ip", ascii "8.8.8.8")])
      .http1 (.v4 ⟨192, 0, 2, 7⟩) trivial trivial (by decide) []).mp
      (isTrue [] _ rfl)
  obtain ⟨setting, isSetting, _⟩ :=
    isOne.2.client _ (List.mem_singleton_self _) "8.8.8.8".toList
      (by decide) ⟨by decide, nofun⟩
  cases isSetting

end Sweety.ClientAddress
