import Sweety.ClientAddress
import Sweety.ForwardedChain

namespace Sweety.RealIp

open HttpText ProxyProtocol

/-!
# Several lines of forwarded addresses

A header with several lines stands for one line with the values joined by
commas.  The router and the FastCGI handler ask for the header by `get`, which
gives the first line only, so that the lines behind it have no part in the
address that is extracted.
-/

/-! ## Lines of a header -/

/-- The values of a header in the order of their lines. -/
def linesOf (name : String) (headers : HeaderMap) : List (List UInt8) :=
  (headers.filter fun header => header.1 == name).map Prod.snd

/-- Values joined by a comma and a blank. -/
def joinValues (first : List UInt8) (rest : List (List UInt8)) :
    List UInt8 :=
  first ++ rest.flatMap fun line => 44 :: 32 :: line

/-- The headers with the lines of one header joined into one. -/
def joinLines (name : String) (headers : HeaderMap) : HeaderMap :=
  match linesOf name headers with
  | [] =>
      headers
  | first :: rest =>
      (name, joinValues first rest) ::
        headers.filter fun header => header.1 != name

theorem get?_eq_head? (name : String) (headers : HeaderMap) :
    HeaderMap.get? name headers = (linesOf name headers).head? := by
  rw [HeaderMap.get?, linesOf, List.head?_map, List.head?_filter]

theorem get?_joinLines
    {name : String}
    {headers : HeaderMap}
    {first : List UInt8}
    {rest : List (List UInt8)}
    (isLines : linesOf name headers = first :: rest) :
    HeaderMap.get? name (joinLines name headers) =
      some (joinValues first rest) := by
  rw [joinLines, isLines, HeaderMap.get?]
  dsimp only
  rw [List.find?_cons_of_pos (by simp)]
  rfl

/-- The texts of lines, if each can be read. -/
def readAll? : List (List UInt8) → Option (List (List Char))
  | [] =>
      some []
  | line :: rest =>
      (toStr? line).bind fun text =>
        (readAll? rest).map fun texts => text :: texts

theorem toStr?_append (first second : List UInt8) :
    toStr? (first ++ second) =
      (toStr? first).bind fun text =>
        (toStr? second).map fun more => text ++ more := by
  unfold toStr?
  rw [List.all_append, List.map_append]
  cases first.all fun byte => 32 ≤ byte && byte < 127 || byte == 9 with
  | false =>
      rfl
  | true =>
      cases second.all fun byte => 32 ≤ byte && byte < 127 || byte == 9 with
      | false =>
          rfl
      | true =>
          rfl

/-- A joined line can be read where each line can. -/
theorem toStr?_joinValues
    (first : List UInt8)
    (rest : List (List UInt8)) :
    toStr? (joinValues first rest) =
      (toStr? first).bind fun text =>
        (readAll? rest).map fun texts =>
          text ++ texts.flatMap fun more => ',' :: ' ' :: more := by
  have isRest :
      toStr? (rest.flatMap fun line => 44 :: 32 :: line) =
        (readAll? rest).map fun texts =>
          texts.flatMap fun more => ',' :: ' ' :: more := by
    induction rest with
    | nil =>
        rfl
    | cons line others inductionHypothesis =>
        have isLine :
            toStr? (44 :: 32 :: line) =
              (toStr? line).map fun text => ',' :: ' ' :: text :=
          toStr?_append [44, 32] line
        rw [List.flatMap_cons, toStr?_append, isLine, readAll?,
          inductionHypothesis]
        cases toStr? line with
        | none =>
            rfl
        | some text =>
            cases readAll? others with
            | none =>
                rfl
            | some texts =>
                rfl
  rw [joinValues, toStr?_append, isRest]
  cases toStr? first with
  | none =>
      rfl
  | some text =>
      cases readAll? rest with
      | none =>
          rfl
      | some texts =>
          rfl

/-! ## What the parts name -/

/-- The address that each part of a text names. -/
def namedIn (ipv6 : Ipv6Text) (text : List Char) : List (Option IpAddr) :=
  (text.splitOn ',').map fun part => ipv6.parseIp? (trim part)

theorem namedIn_ne_nil (ipv6 : Ipv6Text) (text : List Char) :
    namedIn ipv6 text ≠ [] := by
  rw [namedIn, ne_eq, List.map_eq_nil_iff]
  exact List.splitOn_ne_nil ',' text

theorem namedIn_blank (ipv6 : Ipv6Text) (text : List Char) :
    namedIn ipv6 (' ' :: text) = namedIn ipv6 text := by
  have notComma : ¬(' ' == ',') = true := by
    decide
  rw [namedIn, namedIn, List.splitOn_cons_eq_if_modifyHead, if_neg notComma]
  cases text.splitOn ',' with
  | nil =>
      rfl
  | cons head others =>
      rw [List.modifyHead_cons, List.map_cons, List.map_cons, trim_blank]

/-- A joined line names what its lines name. -/
theorem namedIn_joined
    (ipv6 : Ipv6Text)
    (text : List Char)
    (texts : List (List Char)) :
    namedIn ipv6 (text ++ texts.flatMap fun more => ',' :: ' ' :: more) =
      namedIn ipv6 text ++ texts.flatMap (namedIn ipv6) := by
  induction texts generalizing text with
  | nil =>
      rw [List.flatMap_nil, List.flatMap_nil, List.append_nil,
        List.append_nil]
  | cons next rest inductionHypothesis =>
      have split :
          namedIn ipv6
              (text ++ ',' ::
                (' ' :: next ++
                  rest.flatMap fun more => ',' :: ' ' :: more)) =
            namedIn ipv6 text ++
              namedIn ipv6
                (' ' :: next ++
                  rest.flatMap fun more => ',' :: ' ' :: more) := by
        rw [namedIn, splitOn_comma, List.map_append]
        rfl
      rw [List.flatMap_cons, List.flatMap_cons]
      refine split.trans ?_
      rw [inductionHypothesis, namedIn_blank]

/-! ## The extraction from what the parts name -/

namespace CompiledRealIp

variable (compiled : CompiledRealIp)

/-- The search from the right does not pass this address. -/
def stopsAt (ip : IpAddr) : Bool :=
  compiled.isTrusted? ip != some true

/-- The rightmost address that stops the search. -/
def lastStop? (named : List (Option IpAddr)) : Option IpAddr :=
  named.reverse.findSome? fun ip => ip.filter compiled.stopsAt

/-- What the search answers at an address that stops it. -/
def stopResult? (ip : IpAddr) : Option IpAddr :=
  if compiled.isTrusted? ip = some false then
    some ip
  else
    none

/-- The address of the client that the parts of a list give. -/
def clientOf?
    (connIp : IpAddr)
    (named : List (Option IpAddr)) :
    Option IpAddr :=
  if compiled.recursive then
    match compiled.lastStop? named with
    | some ip =>
        compiled.stopResult? ip
    | none =>
        some (named.head?.join.getD connIp)
  else
    some (named.getLast?.join.getD connIp)

end CompiledRealIp

section Extraction

variable
  {ipv6 : Ipv6Text}
  {compiled : CompiledRealIp}
  {connIp : IpAddr}

theorem lastStop?_append (first second : List (Option IpAddr)) :
    compiled.lastStop? (first ++ second) =
      (compiled.lastStop? second).or (compiled.lastStop? first) := by
  rw [CompiledRealIp.lastStop?, List.reverse_append, List.findSome?_append]
  rfl

/-- An address that is named and does not stop the search is trusted. -/
theorem isTrusted?_of_lastStop?_eq_none
    {named : List (Option IpAddr)}
    {ip : IpAddr}
    (noStop : compiled.lastStop? named = none)
    (member : some ip ∈ named) :
    compiled.isTrusted? ip = some true := by
  have passed := List.findSome?_eq_none_iff.mp noStop (some ip)
    (List.mem_reverse.mpr member)
  rw [Option.filter_eq_none_iff] at passed
  have notStop := passed ip rfl
  simpa [CompiledRealIp.stopsAt] using notStop

/-- The loop finds the address that stops the search. -/
theorem firstUntrusted?_eq (parts : List (List Char)) :
    compiled.firstUntrusted? ipv6 parts =
      match parts.findSome? (fun part =>
          (ipv6.parseIp? (trim part)).filter compiled.stopsAt) with
      | some ip =>
          (compiled.stopResult? ip).map some
      | none =>
          some none := by
  induction parts with
  | nil =>
      rfl
  | cons part rest inductionHypothesis =>
      rw [CompiledRealIp.firstUntrusted?, List.findSome?_cons]
      cases ipv6.parseIp? (trim part) with
      | none =>
          exact inductionHypothesis
      | some ip =>
          cases isTrust : compiled.isTrusted? ip with
          | none =>
              have stops : compiled.stopsAt ip = true := by
                rw [CompiledRealIp.stopsAt, isTrust]
                rfl
              rw [Option.filter_some, if_pos stops]
              simp [CompiledRealIp.stopResult?, isTrust]
          | some trust =>
              cases trust with
              | false =>
                  have stops : compiled.stopsAt ip = true := by
                    rw [CompiledRealIp.stopsAt, isTrust]
                    rfl
                  rw [Option.filter_some, if_pos stops]
                  simp [CompiledRealIp.stopResult?, isTrust]
              | true =>
                  have passes : ¬compiled.stopsAt ip = true := by
                    rw [CompiledRealIp.stopsAt, isTrust]
                    decide
                  rw [Option.filter_some, if_neg passes]
                  dsimp only
                  rw [isTrust]
                  exact inductionHypothesis

theorem recursiveResult?_eq (parts : List (List Char)) :
    recursiveResult? ipv6 compiled parts =
      let named := parts.map fun part => ipv6.parseIp? (trim part)
      match compiled.lastStop? named with
      | some ip =>
          (compiled.stopResult? ip).map some
      | none =>
          some named.head?.join := by
  have sameStop :
      parts.reverse.findSome? (fun part =>
          (ipv6.parseIp? (trim part)).filter compiled.stopsAt) =
        compiled.lastStop?
          (parts.map fun part => ipv6.parseIp? (trim part)) := by
    rw [CompiledRealIp.lastStop?, ← List.map_reverse, List.findSome?_map]
    rfl
  have sameHead :
      (parts.head?.bind fun part => ipv6.parseIp? (trim part)) =
        (parts.map fun part => ipv6.parseIp? (trim part)).head?.join := by
    cases parts with
    | nil =>
        rfl
    | cons part rest =>
        rfl
  rw [recursiveResult?, firstUntrusted?_eq, sameStop, sameHead]
  dsimp only
  cases compiled.lastStop?
      (parts.map fun part => ipv6.parseIp? (trim part)) with
  | none =>
      rfl
  | some ip =>
      cases isResult : compiled.stopResult? ip with
      | none =>
          simp [isResult]
      | some found =>
          simp [isResult]

/-- What is extracted from a text depends on what its parts name. -/
theorem extractRealIp?_eq_clientOf?
    (isXff :
      eqIgnoreAsciiCase compiled.header.toList
        "X-Forwarded-For".toList = true)
    (connTrusted : compiled.isTrusted? connIp = some true)
    (text : List Char) :
    (compiled.extractRealIp? ipv6 connIp (some text)).map
        (fun found => found.getD connIp) =
      compiled.clientOf? connIp (namedIn ipv6 text) := by
  unfold CompiledRealIp.clientOf?
  by_cases recursive : compiled.recursive = true
  · rw [extractRealIp?_recursive isXff recursive connTrusted,
      recursiveResult?_eq, if_pos recursive]
    dsimp only
    rw [← namedIn]
    cases compiled.lastStop? (namedIn ipv6 text) with
    | none =>
        rfl
    | some ip =>
        dsimp only
        cases compiled.stopResult? ip with
        | none =>
            rfl
        | some found =>
            rfl
  · unfold CompiledRealIp.extractRealIp?
    rw [connTrusted, if_neg recursive]
    dsimp only
    rw [if_pos isXff, if_neg recursive, namedIn, List.getLast?_map]
    cases (text.splitOn ',').getLast? with
    | none =>
        rfl
    | some part =>
        rfl

end Extraction

/-! ## Lines behind the first -/

/-- Two addresses that stop the search have the same outcome. -/
def SameStop (compiled : CompiledRealIp) (own later : IpAddr) : Prop :=
  compiled.isTrusted? own = compiled.isTrusted? later ∧
    (compiled.isTrusted? later = some false → own = later)

/--
The lines behind the first make no difference: in the recursive mode the last
address in them that is not trusted is also the last one of the first line, and
in the other mode the last part of all names what the last part of the first
line does.
-/
def LaterAgree
    (compiled : CompiledRealIp)
    (connIp : IpAddr)
    (named later : List (Option IpAddr)) :
    Prop :=
  if compiled.recursive then
    ∀ ip, compiled.lastStop? later = some ip →
      ∃ own, compiled.lastStop? named = some own ∧ SameStop compiled own ip
  else
    later ≠ [] →
      named.getLast?.join.getD connIp = later.getLast?.join.getD connIp

/-- The first line alone gives the address of the connection. -/
def GivesConnection
    (compiled : CompiledRealIp)
    (connIp : IpAddr)
    (named : List (Option IpAddr)) :
    Prop :=
  if compiled.recursive then
    compiled.lastStop? named = none ∧ named.head?.join.getD connIp = connIp
  else
    named.getLast?.join.getD connIp = connIp

/--
The first line decides: the connection is not trusted, or the first line cannot
be read, or the readable lines behind it agree, or one of them cannot be read
and the first gives the address of the connection.
-/
def FirstLineDecides
    (ipv6 : Ipv6Text)
    (compiled : CompiledRealIp)
    (connIp : IpAddr) :
    List (List UInt8) → Prop
  | [] =>
      True
  | first :: rest =>
      compiled.isTrusted? connIp = some true →
        ∀ text, toStr? first = some text →
          match rest, readAll? rest with
          | [], _ =>
              True
          | _ :: _, some texts =>
              LaterAgree compiled connIp (namedIn ipv6 text)
                (texts.flatMap (namedIn ipv6))
          | _ :: _, none =>
              GivesConnection compiled connIp (namedIn ipv6 text)

section Lines

variable
  {ipv6 : Ipv6Text}
  {compiled : CompiledRealIp}
  {connIp : IpAddr}
  {named later : List (Option IpAddr)}

/-- The head of a list without a stop, or the connection, is trusted. -/
theorem isTrusted?_head
    (connTrusted : compiled.isTrusted? connIp = some true)
    (noStop : compiled.lastStop? named = none) :
    compiled.isTrusted? (named.head?.join.getD connIp) = some true := by
  cases named with
  | nil =>
      exact connTrusted
  | cons head rest =>
      cases head with
      | none =>
          exact connTrusted
      | some ip =>
          exact isTrusted?_of_lastStop?_eq_none noStop List.mem_cons_self

theorem isTrusted?_ne_of_lastStop?
    {ip : IpAddr}
    (isStop : compiled.lastStop? named = some ip) :
    compiled.isTrusted? ip ≠ some true := by
  obtain ⟨found, -, isFound⟩ := List.exists_of_findSome?_eq_some isStop
  have stops := (Option.filter_eq_some_iff.mp isFound).2
  simpa [CompiledRealIp.stopsAt] using stops

/-- Without a stop in the list the answer is not that of a stop. -/
theorem stopResult?_ne
    {ip other : IpAddr}
    (isTrusted : compiled.isTrusted? other = some true) :
    some other ≠ compiled.stopResult? ip := by
  intro same
  unfold CompiledRealIp.stopResult? at same
  split at same
  · rename_i notTrusted
    cases same
    rw [isTrusted] at notTrusted
    nomatch notTrusted
  · nomatch same

/-- At an address that stops the chain, the test panics or fails. -/
theorem notTrusted_of_stops
    {ip : IpAddr}
    (stops : compiled.isTrusted? ip ≠ some true) :
    compiled.isTrusted? ip = none ∨ compiled.isTrusted? ip = some false := by
  cases isTrust : compiled.isTrusted? ip with
  | none =>
      exact Or.inl rfl
  | some trust =>
      cases trust with
      | false =>
          exact Or.inr rfl
      | true =>
          exact absurd isTrust stops

theorem stopResult?_eq_iff
    {own ip : IpAddr}
    (ownStops : compiled.isTrusted? own ≠ some true)
    (stops : compiled.isTrusted? ip ≠ some true) :
    compiled.stopResult? own = compiled.stopResult? ip ↔
      SameStop compiled own ip := by
  unfold CompiledRealIp.stopResult? SameStop
  rcases notTrusted_of_stops ownStops with isOwn | isOwn
  · rcases notTrusted_of_stops stops with isTrust | isTrust
    · simp [isOwn, isTrust]
    · simp [isOwn, isTrust]
  · rcases notTrusted_of_stops stops with isTrust | isTrust
    · simp [isOwn, isTrust]
    · simp [isOwn, isTrust]

theorem clientOf?_append_iff
    (connTrusted : compiled.isTrusted? connIp = some true)
    (nonempty : named ≠ []) :
    compiled.clientOf? connIp named =
        compiled.clientOf? connIp (named ++ later) ↔
      LaterAgree compiled connIp named later := by
  unfold CompiledRealIp.clientOf? LaterAgree
  by_cases recursive : compiled.recursive = true
  · rw [if_pos recursive, if_pos recursive, if_pos recursive,
      lastStop?_append, List.head?_append_of_ne_nil _ nonempty]
    cases isLater : compiled.lastStop? later with
    | none =>
        simp
    | some ip =>
        rw [Option.some_or]
        dsimp only
        cases isOwn : compiled.lastStop? named with
        | none =>
            have differs :=
              @stopResult?_ne compiled ip _
                (isTrusted?_head connTrusted isOwn)
            constructor
            · intro same
              exact absurd same differs
            · intro agrees
              obtain ⟨own, isNone, -⟩ := agrees ip rfl
              nomatch isNone
        | some own =>
            dsimp only
            rw [stopResult?_eq_iff (isTrusted?_ne_of_lastStop? isOwn)
              (isTrusted?_ne_of_lastStop? isLater)]
            constructor
            · intro same other isOther
              cases isOther
              exact ⟨own, rfl, same⟩
            · intro agrees
              obtain ⟨found, isFound, same⟩ := agrees ip rfl
              cases isFound
              exact same
  · rw [if_neg recursive, if_neg recursive, if_neg recursive,
      List.getLast?_append, Option.some.injEq]
    cases later with
    | nil =>
        simp
    | cons head rest =>
        have isLast : ∃ last, (head :: rest).getLast? = some last :=
          ⟨_, List.getLast?_eq_some_getLast (List.cons_ne_nil head rest)⟩
        obtain ⟨last, isLast⟩ := isLast
        rw [isLast, Option.some_or]
        exact ⟨fun same _ => same, fun same => same (List.cons_ne_nil _ _)⟩

theorem clientOf?_eq_connection_iff
    (connTrusted : compiled.isTrusted? connIp = some true) :
    compiled.clientOf? connIp named = some connIp ↔
      GivesConnection compiled connIp named := by
  unfold CompiledRealIp.clientOf? GivesConnection
  by_cases recursive : compiled.recursive = true
  · rw [if_pos recursive, if_pos recursive]
    cases isStop : compiled.lastStop? named with
    | none =>
        simp
    | some ip =>
        have differs := @stopResult?_ne compiled ip _ connTrusted
        constructor
        · intro same
          exact absurd same.symm differs
        · rintro ⟨isNone, -⟩
          nomatch isNone
  · rw [if_neg recursive, if_neg recursive, Option.some.injEq]

end Lines

/-! ## The law of the joined line -/

/-- The name under which the header of a site is looked up. -/
def lookupName (compiled : CompiledRealIp) : String :=
  String.ofList (toAsciiLowercase compiled.header.toList)

/-- Joining the lines of the header changes no address of the client. -/
structure LinesMerge
    (exchange : BackendHeaders.Exchange)
    (compiled : CompiledRealIp) :
    Prop where
  router :
    effectiveClientIp? exchange.ipv6 exchange.realIp exchange.connIp
        exchange.headers =
      effectiveClientIp? exchange.ipv6 exchange.realIp exchange.connIp
        (joinLines (lookupName compiled) exchange.headers)
  fastcgi :
    exchange.remoteAddr? =
      { exchange with
        headers :=
          joinLines (lookupName compiled) exchange.headers }.remoteAddr?

section Law

variable
  {ipv6 : Ipv6Text}
  {compiled : CompiledRealIp}
  {connIp : IpAddr}
  {headers : HeaderMap}

theorem effectiveClientIp?_of_not_trusted
    (notTrusted : compiled.isTrusted? connIp ≠ some true)
    (headers : HeaderMap) :
    effectiveClientIp? ipv6 (some compiled) connIp headers =
      (compiled.isTrusted? connIp).map fun _ => connIp := by
  unfold effectiveClientIp? CompiledRealIp.extractRealIp?
  cases isTrust : compiled.isTrusted? connIp with
  | none =>
      simp [isTrust]
  | some trust =>
      cases trust with
      | false =>
          simp [isTrust]
      | true =>
          exact absurd isTrust notTrusted

theorem effectiveClientIp?_of_unread
    (connTrusted : compiled.isTrusted? connIp = some true)
    (unread :
      (HeaderMap.get? (lookupName compiled) headers).bind toStr? = none) :
    effectiveClientIp? ipv6 (some compiled) connIp headers =
      some connIp := by
  have noValue : headerValue? compiled headers = none := unread
  unfold effectiveClientIp? CompiledRealIp.extractRealIp?
  simp [connTrusted, noValue]

theorem effectiveClientIp?_of_text
    (isXff :
      eqIgnoreAsciiCase compiled.header.toList
        "X-Forwarded-For".toList = true)
    (connTrusted : compiled.isTrusted? connIp = some true)
    {text : List Char}
    (isText :
      (HeaderMap.get? (lookupName compiled) headers).bind toStr? =
        some text) :
    effectiveClientIp? ipv6 (some compiled) connIp headers =
      compiled.clientOf? connIp (namedIn ipv6 text) := by
  have isValue : headerValue? compiled headers = some text := isText
  rw [← extractRealIp?_eq_clientOf? isXff connTrusted, ← isValue]
  rfl

/-- The router finds the address of the joined line if the first decides. -/
theorem effectiveClientIp?_joinLines_iff
    (isXff :
      eqIgnoreAsciiCase compiled.header.toList
        "X-Forwarded-For".toList = true) :
    effectiveClientIp? ipv6 (some compiled) connIp headers =
        effectiveClientIp? ipv6 (some compiled) connIp
          (joinLines (lookupName compiled) headers) ↔
      FirstLineDecides ipv6 compiled connIp
        (linesOf (lookupName compiled) headers) := by
  cases isLines : linesOf (lookupName compiled) headers with
  | nil =>
      rw [joinLines, isLines]
      exact iff_of_true rfl trivial
  | cons first rest =>
      rw [FirstLineDecides]
      by_cases connTrusted : compiled.isTrusted? connIp = some true
      · have isFirst :
            HeaderMap.get? (lookupName compiled) headers = some first := by
          rw [get?_eq_head?, isLines]
          rfl
        have isJoined := get?_joinLines isLines
        have readJoined :
            (HeaderMap.get? (lookupName compiled)
                (joinLines (lookupName compiled) headers)).bind toStr? =
              toStr? (joinValues first rest) := by
          rw [isJoined, Option.bind_some]
        rw [toStr?_joinValues] at readJoined
        cases isText : toStr? first with
        | none =>
            rw [isText] at readJoined
            rw [effectiveClientIp?_of_unread connTrusted
                (by rw [isFirst]; exact isText),
              effectiveClientIp?_of_unread connTrusted readJoined]
            exact iff_of_true rfl fun _ _ isSome => nomatch isSome
        | some text =>
            have ownText :
                (HeaderMap.get? (lookupName compiled) headers).bind
                  toStr? = some text := by
              rw [isFirst]
              exact isText
            rw [isText, Option.bind_some] at readJoined
            rw [effectiveClientIp?_of_text isXff connTrusted ownText]
            cases areRest : readAll? rest with
            | none =>
                rw [areRest] at readJoined
                rw [effectiveClientIp?_of_unread connTrusted readJoined,
                  clientOf?_eq_connection_iff connTrusted]
                cases rest with
                | nil =>
                    nomatch areRest
                | cons next others =>
                    constructor
                    · rintro gives - _ isSome
                      cases isSome
                      exact gives
                    · intro decides
                      exact decides connTrusted text rfl
            | some texts =>
                rw [areRest] at readJoined
                rw [effectiveClientIp?_of_text isXff connTrusted readJoined,
                  namedIn_joined,
                  clientOf?_append_iff connTrusted (namedIn_ne_nil _ _)]
                cases rest with
                | nil =>
                    cases areRest
                    refine iff_of_true ?_ fun _ _ _ => trivial
                    unfold LaterAgree
                    split
                    · intro ip isStop
                      nomatch isStop
                    · intro nonempty
                      exact absurd rfl nonempty
                | cons next others =>
                    constructor
                    · rintro agrees - _ isSome
                      cases isSome
                      exact agrees
                    · intro decides
                      exact decides connTrusted text rfl
      · rw [effectiveClientIp?_of_not_trusted connTrusted,
          effectiveClientIp?_of_not_trusted connTrusted]
        exact iff_of_true rfl fun isTrusted => absurd isTrusted connTrusted

theorem linesMerge_iff
    (exchange : BackendHeaders.Exchange)
    (compiled : CompiledRealIp)
    (isSite : exchange.realIp = some compiled)
    (isXff :
      eqIgnoreAsciiCase compiled.header.toList
        "X-Forwarded-For".toList = true) :
    LinesMerge exchange compiled ↔
      FirstLineDecides exchange.ipv6 compiled exchange.connIp
        (linesOf (lookupName compiled) exchange.headers) := by
  rw [← effectiveClientIp?_joinLines_iff isXff]
  constructor
  · intro merges
    have sameAddress := merges.router
    rwa [isSite] at sameAddress
  · intro sameAddress
    rw [← isSite] at sameAddress
    constructor
    · exact sameAddress
    · rw [ClientAddress.remoteAddr_eq, ClientAddress.remoteAddr_eq,
        sameAddress]

end Law

/-- A site that trusts one private network. -/
def trustsPrivate : CompiledRealIp :=
  ⟨[⟨.v4 ⟨10, 0, 0, 0⟩, 8⟩], "X-Forwarded-For", true⟩

/-- A request that a proxy of this network forwards. -/
def forwarded (lines : List String) : BackendHeaders.Exchange :=
  { ClientAddress.sampleExchange
      (lines.map fun line =>
        ("x-forwarded-for", line.toList.map fun char =>
          UInt8.ofNat char.toNat)) with
    connIp := .v4 ⟨10, 0, 0, 1⟩
    realIp := some trustsPrivate }

/-- One line is already joined. -/
theorem linesMerge_one_line :
    LinesMerge (forwarded ["192.0.2.9"]) trustsPrivate := by
  refine (linesMerge_iff (forwarded ["192.0.2.9"]) trustsPrivate rfl
    (by decide)).mpr ?_
  have oneLine :
      linesOf (lookupName trustsPrivate)
          (forwarded ["192.0.2.9"]).headers =
        ["192.0.2.9".toList.map fun char => UInt8.ofNat char.toNat] := by
    decide
  rw [oneLine]
  exact fun _ _ _ => trivial

/-- The line of the proxy is ignored in favour of that of the client. -/
theorem not_linesMerge_appended :
    effectiveClientIp? CidrAgreement.noIpv6 (some trustsPrivate)
        (.v4 ⟨10, 0, 0, 1⟩)
        (forwarded ["198.51.100.6", "192.0.2.9"]).headers =
      some (.v4 ⟨198, 51, 100, 6⟩) ∧
    effectiveClientIp? CidrAgreement.noIpv6 (some trustsPrivate)
        (.v4 ⟨10, 0, 0, 1⟩)
        (joinLines (lookupName trustsPrivate)
          (forwarded ["198.51.100.6", "192.0.2.9"]).headers) =
      some (.v4 ⟨192, 0, 2, 9⟩) ∧
    ¬LinesMerge (forwarded ["198.51.100.6", "192.0.2.9"])
      trustsPrivate := by
  have ownLine :
      effectiveClientIp? CidrAgreement.noIpv6 (some trustsPrivate)
          (.v4 ⟨10, 0, 0, 1⟩)
          (forwarded ["198.51.100.6", "192.0.2.9"]).headers =
        some (.v4 ⟨198, 51, 100, 6⟩) := by
    decide
  have joinedLine :
      effectiveClientIp? CidrAgreement.noIpv6 (some trustsPrivate)
          (.v4 ⟨10, 0, 0, 1⟩)
          (joinLines (lookupName trustsPrivate)
            (forwarded ["198.51.100.6", "192.0.2.9"]).headers) =
        some (.v4 ⟨192, 0, 2, 9⟩) := by
    decide
  refine ⟨ownLine, joinedLine, fun merges => ?_⟩
  have same := ownLine.symm.trans (merges.router.trans joinedLine)
  nomatch same

end Sweety.RealIp
