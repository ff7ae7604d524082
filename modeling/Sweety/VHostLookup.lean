import Sweety.VHost

namespace Sweety.VHostLookup

open HttpText

/-!
# Lookups in a registry that is built afresh

A registry is built by storing one site after the other.  Storing a site first
takes its old entries away and then overwrites what other sites have at its
places; since the names of the sites differ, every place holds in the end the
last site that claims it.
-/

variable
  {Tls Other : Type}
  {lower : String → String}

/-! ## The rule -/

/-- The text has characters of ASCII only. -/
def IsAscii (text : String) : Prop :=
  ∀ char ∈ text.toList, char.toNat < 128

instance decidableIsAscii (text : String) : Decidable (IsAscii text) :=
  List.decidableBAll (fun char : Char => char.toNat < 128) text.toList

/-- `str::to_lowercase` on a text of ASCII. -/
def LowersAscii (lower : String → String) : Prop :=
  ∀ text,
    IsAscii text →
      lower text = String.ofList (toAsciiLowercase text.toList)

/-- One of the server names is the name, in whatever case. -/
def Declares (name : List Char) (site : SiteConfig Tls Other) : Prop :=
  ∃ serverName ∈ site.serverName,
    toAsciiLowercase serverName.toList = toAsciiLowercase name

instance decidableDeclares
    (name : List Char)
    (site : SiteConfig Tls Other) :
    Decidable (Declares name site) :=
  inferInstanceAs (Decidable (∃ serverName ∈ site.serverName,
    toAsciiLowercase serverName.toList = toAsciiLowercase name))

/-- The last site of the list with a property. -/
def lastSite?
    (property : SiteConfig Tls Other → Prop)
    [DecidablePred property]
    (sites : List (SiteConfig Tls Other)) :
    Option (SiteConfig Tls Other) :=
  sites.reverse.find? fun site => property site

/--
The site for a host: the last that declares it, or the last that declares `*.`
and what follows its first dot, or the last that is a fallback.
-/
def siteFor?
    (sites : List (SiteConfig Tls Other))
    (host : String) :
    Option (SiteConfig Tls Other) :=
  (lastSite? (Declares host.toList) sites).or
    (((splitOnce? '.' host.toList).bind fun parts =>
        lastSite? (Declares ('*' :: '.' :: parts.2)) sites).or
      (lastSite? (fun site => site.fallback = true) sites))

/-- `lookup_by_host`. -/
def lookupByHost
    (host : String)
    (inner : VHostInner Tls Other) :
    Option (SiteInfo Tls Other) :=
  inner.lookupInner host

/-! ## Letter case -/

section LetterCase

variable {name text : List Char}

/-- Lower case does not produce a character that is not a letter. -/
theorem toLower_eq_iff
    {char mark : Char}
    (isMark : mark.toNat < 65) :
    char.toLower = mark ↔ char = mark := by
  unfold Char.toLower
  split
  · next isUpper =>
      have range : 65 ≤ char.toNat ∧ char.toNat ≤ 90 := by
        simpa [UInt32.le_iff_toNat_le] using isUpper
      have shift : ('a'.val - 'A'.val).toNat = 32 := by
        decide
      constructor
      · intro isLower
        have isCode := congrArg Char.toNat isLower
        simp only [Char.toNat, UInt32.toNat_add, shift] at isCode isMark range
        omega
      · rintro rfl
        omega
  · exact Iff.rfl

theorem toAsciiLowercase_eq_wildcard_iff {rest : List Char} :
    toAsciiLowercase name = '*' :: '.' :: rest ↔
      ∃ suffix,
        name = '*' :: '.' :: suffix ∧ toAsciiLowercase suffix = rest := by
  have star {char : Char} : char.toLower = '*' ↔ char = '*' :=
    toLower_eq_iff (by decide)
  have dot {char : Char} : char.toLower = '.' ↔ char = '.' :=
    toLower_eq_iff (by decide)
  constructor
  · intro isLower
    cases name with
    | nil =>
        nomatch isLower
    | cons first others =>
        cases others with
        | nil =>
            nomatch (List.cons.inj isLower).2
        | cons second suffix =>
            obtain ⟨isStar, isRest⟩ := List.cons.inj isLower
            obtain ⟨isDot, isSuffix⟩ := List.cons.inj isRest
            rw [star.mp isStar, dot.mp isDot]
            exact ⟨suffix, rfl, isSuffix⟩
  · rintro ⟨suffix, rfl, rfl⟩
    rfl

theorem splitOnce?_toAsciiLowercase (text : List Char) :
    splitOnce? '.' (toAsciiLowercase text) =
      (splitOnce? '.' text).map fun parts =>
        (toAsciiLowercase parts.1, toAsciiLowercase parts.2) := by
  induction text with
  | nil =>
      rfl
  | cons char rest inductionHypothesis =>
      have dot : char.toLower = '.' ↔ char = '.' :=
        toLower_eq_iff (by decide)
      rw [toAsciiLowercase, List.map_cons, splitOnce?, splitOnce?]
      by_cases isDot : char = '.'
      · rw [if_pos (dot.mpr isDot), if_pos isDot]
        rfl
      · rw [if_neg (mt dot.mp isDot), if_neg isDot]
        rw [toAsciiLowercase] at inductionHypothesis
        rw [inductionHypothesis, Option.map_map, Option.map_map]
        rfl

end LetterCase

/-! ## Claims and declarations -/

section Claims

variable
  {site : SiteConfig Tls Other}
  {host suffix : List Char}

theorem wildcardSuffix?_eq_some_iff {serverName found : String} :
    wildcardSuffix? serverName = some found ↔
      serverName.toList = '*' :: '.' :: found.toList := by
  unfold wildcardSuffix?
  split
  · next rest isName =>
      rw [isName, Option.some.injEq]
      constructor
      · rintro rfl
        rw [String.toList_ofList]
      · intro same
        cases same
        exact String.ofList_toList
  · next notWildcard =>
      constructor
      · nofun
      · intro isName
        exact absurd isName (notWildcard found.toList)

theorem ofList_eq_iff {first second : List Char} :
    String.ofList first = String.ofList second ↔ first = second := by
  constructor
  · intro same
    have sameList := congrArg String.toList same
    rwa [String.toList_ofList, String.toList_ofList] at sameList
  · intro same
    rw [same]

/-- A suffix is claimed by declaring it behind `*.`. -/
theorem claims_wildcard_iff
    (lowers : LowersAscii lower)
    (ascii : ∀ serverName ∈ site.serverName, IsAscii serverName) :
    site.Claims lower
        (.wildcard (String.ofList (toAsciiLowercase suffix))) ↔
      Declares ('*' :: '.' :: suffix) site := by
  have isDeclared (serverName : String) :
      toAsciiLowercase serverName.toList =
          toAsciiLowercase ('*' :: '.' :: suffix) ↔
        ∃ found,
          serverName.toList = '*' :: '.' :: found ∧
            toAsciiLowercase found = toAsciiLowercase suffix :=
    toAsciiLowercase_eq_wildcard_iff
  have lowersSuffix
      {serverName : String}
      {found : String}
      (member : serverName ∈ site.serverName)
      (isWildcard : serverName.toList = '*' :: '.' :: found.toList) :
      lower found = String.ofList (toAsciiLowercase found.toList) := by
    apply lowers
    intro char inSuffix
    apply ascii serverName member
    rw [isWildcard]
    exact List.mem_cons_of_mem _ (List.mem_cons_of_mem _ inSuffix)
  simp only [SiteConfig.Claims, SiteConfig.wildcardKeys, List.mem_map,
    List.mem_filterMap, wildcardSuffix?_eq_some_iff]
  constructor
  · rintro ⟨found, ⟨serverName, member, isWildcard⟩, isKey⟩
    rw [lowersSuffix member isWildcard, ofList_eq_iff] at isKey
    exact ⟨serverName, member,
      (isDeclared serverName).mpr ⟨found.toList, isWildcard, isKey⟩⟩
  · rintro ⟨serverName, member, same⟩
    obtain ⟨found, isWildcard, isKey⟩ := (isDeclared serverName).mp same
    rw [← @String.toList_ofList found] at isWildcard isKey
    refine ⟨String.ofList found, ⟨serverName, member, isWildcard⟩, ?_⟩
    rw [lowersSuffix member isWildcard, isKey]

/-- Other names are claimed by declaring them. -/
theorem claims_exact_iff
    (lowers : LowersAscii lower)
    (ascii : ∀ serverName ∈ site.serverName, IsAscii serverName)
    (noWildcard : ∀ rest, host ≠ '*' :: '.' :: rest) :
    site.Claims lower (.exact (String.ofList (toAsciiLowercase host))) ↔
      Declares host site := by
  simp only [SiteConfig.Claims, SiteConfig.exactKeys, List.mem_map,
    List.mem_filter, Option.isNone_iff_eq_none]
  constructor
  · rintro ⟨serverName, ⟨member, -⟩, isKey⟩
    rw [lowers serverName (ascii serverName member), ofList_eq_iff] at isKey
    exact ⟨serverName, member, isKey⟩
  · rintro ⟨serverName, member, isKey⟩
    refine ⟨serverName, ⟨member, ?_⟩, ?_⟩
    · cases isSuffix : wildcardSuffix? serverName with
      | none =>
          rfl
      | some found =>
          rw [wildcardSuffix?_eq_some_iff.mp isSuffix] at isKey
          obtain ⟨rest, isHost, -⟩ :=
            toAsciiLowercase_eq_wildcard_iff.mp isKey.symm
          exact absurd isHost (noWildcard rest)
    · rw [lowers serverName (ascii serverName member), isKey]

/-- No place for exact names begins with `*.`. -/
theorem not_claims_exact_wildcard
    (lowers : LowersAscii lower)
    (ascii : ∀ serverName ∈ site.serverName, IsAscii serverName) :
    ¬ site.Claims lower
        (.exact (String.ofList
          (toAsciiLowercase ('*' :: '.' :: suffix)))) := by
  simp only [SiteConfig.Claims, SiteConfig.exactKeys, List.mem_map,
    List.mem_filter, Option.isNone_iff_eq_none]
  rintro ⟨serverName, ⟨member, noSuffix⟩, isKey⟩
  rw [lowers serverName (ascii serverName member), ofList_eq_iff] at isKey
  obtain ⟨found, isName, -⟩ := toAsciiLowercase_eq_wildcard_iff.mp isKey
  rw [← @String.toList_ofList found] at isName
  rw [wildcardSuffix?_eq_some_iff.mpr isName] at noSuffix
  nomatch noSuffix

end Claims

/-! ## The build -/

section Build

variable {sites : List (SiteConfig Tls Other)}

theorem lastSite?_append_singleton
    {property : SiteConfig Tls Other → Prop}
    [DecidablePred property]
    (site : SiteConfig Tls Other) :
    lastSite? property (sites ++ [site]) =
      if property site then some site else lastSite? property sites := by
  rw [lastSite?, List.reverse_append, List.reverse_singleton,
    List.singleton_append]
  by_cases holds : property site
  · rw [if_pos holds, List.find?_cons, decide_eq_true holds]
  · rw [if_neg holds, List.find?_cons, decide_eq_false holds, lastSite?]

theorem fromConfig_append_singleton (site : SiteConfig Tls Other) :
    VHostInner.fromConfig lower (sites ++ [site]) =
      (VHostInner.fromConfig lower sites).upsertSite lower site := by
  rw [VHostInner.fromConfig, List.foldl_append]
  rfl

/-- Every place holds the last site that claims it. -/
theorem read_fromConfig
    (names : (sites.map SiteConfig.name).Nodup)
    (slot : Slot) :
    (VHostInner.fromConfig lower sites).read slot =
      (lastSite? (SiteConfig.Claims lower slot) sites).map
        SiteInfo.fromConfig := by
  induction sites using List.reverseRecOn with
  | nil =>
      exact VHostInner.read_empty slot
  | append_singleton sites site inductionHypothesis =>
      rw [List.map_append, List.nodup_append] at names
      obtain ⟨namesBefore, -, apart⟩ := names
      rw [fromConfig_append_singleton, VHostInner.read_upsertSite,
        lastSite?_append_singleton, inductionHypothesis namesBefore]
      by_cases claims : site.Claims lower slot
      · rw [if_pos claims, if_pos claims]
        rfl
      · rw [if_neg claims, if_neg claims]
        split
        · rfl
        · cases isLast : lastSite? (SiteConfig.Claims lower slot) sites with
          | none =>
              rfl
          | some other =>
              have member : other ∈ sites :=
                List.mem_reverse.mp (List.mem_of_find?_eq_some isLast)
              have differs : other.name ≠ site.name :=
                apart other.name (List.mem_map_of_mem member) site.name
                  (List.mem_singleton_self _)
              rw [Option.map_some, Option.filter_some,
                SiteInfo.name_fromConfig, if_pos (bne_iff_ne.mpr differs)]

theorem lastSite?_congr
    {first second : SiteConfig Tls Other → Prop}
    [DecidablePred first]
    [DecidablePred second]
    (same : ∀ site ∈ sites, (first site ↔ second site)) :
    lastSite? first sites = lastSite? second sites := by
  rw [lastSite?, lastSite?, ← List.head?_filter, ← List.head?_filter]
  apply congrArg List.head?
  apply List.filter_congr
  intro site member
  exact decide_eq_decide.mpr (same site (List.mem_reverse.mp member))

theorem lastSite?_eq_none
    {property : SiteConfig Tls Other → Prop}
    [DecidablePred property]
    (never : ∀ site ∈ sites, ¬ property site) :
    lastSite? property sites = none := by
  rw [lastSite?, List.find?_eq_none]
  intro site member holds
  exact never site (List.mem_reverse.mp member) (of_decide_eq_true holds)

/-- A lookup reads the places of the host one after the other. -/
theorem lookupByHost_eq_or
    (host : String)
    (inner : VHostInner Tls Other) :
    lookupByHost host inner =
      (inner.read
          (.exact (String.ofList (toAsciiLowercase host.toList)))).or
        (((splitOnce? '.' host.toList).bind fun parts =>
            inner.read
              (.wildcard (String.ofList (toAsciiLowercase parts.2)))).or
          (inner.read .fallback)) := by
  rw [lookupByHost, VHostInner.lookupInner, splitOnce?_toAsciiLowercase]
  cases isExact :
      inner.read (.exact (String.ofList (toAsciiLowercase host.toList))) with
  | some info =>
      rw [VHostInner.read] at isExact
      rw [isExact]
      rfl
  | none =>
      rw [VHostInner.read] at isExact
      rw [isExact]
      cases splitOnce? '.' host.toList with
      | none =>
          rfl
      | some parts =>
          rfl

/-- A lookup in a registry that is built afresh follows the rule. -/
theorem lookupByHost_fromConfig
    (lowers : LowersAscii lower)
    (names : (sites.map SiteConfig.name).Nodup)
    (ascii :
      ∀ site ∈ sites, ∀ serverName ∈ site.serverName, IsAscii serverName)
    (host : String) :
    lookupByHost host (VHostInner.fromConfig lower sites) =
      (siteFor? sites host).map SiteInfo.fromConfig := by
  have wildcards (suffix : List Char) :
      lastSite?
          (SiteConfig.Claims lower
            (.wildcard (String.ofList (toAsciiLowercase suffix)))) sites =
        lastSite? (Declares ('*' :: '.' :: suffix)) sites :=
    lastSite?_congr fun site member =>
      claims_wildcard_iff lowers (ascii site member)
  have fallbacks :
      lastSite? (SiteConfig.Claims lower .fallback) sites =
        lastSite? (fun site => site.fallback = true) sites :=
    lastSite?_congr fun site _ => Iff.rfl
  have isLookup :
      lookupByHost host (VHostInner.fromConfig lower sites) =
        ((lastSite?
            (SiteConfig.Claims lower
              (.exact (String.ofList (toAsciiLowercase host.toList))))
            sites).or
          (((splitOnce? '.' host.toList).bind fun parts =>
              lastSite? (Declares ('*' :: '.' :: parts.2)) sites).or
            (lastSite? (fun site => site.fallback = true) sites))).map
          SiteInfo.fromConfig := by
    rw [lookupByHost_eq_or, Option.map_or, Option.map_or,
      read_fromConfig names, read_fromConfig names, fallbacks]
    cases splitOnce? '.' host.toList with
    | none =>
        rfl
    | some parts =>
        rw [Option.bind_some, Option.bind_some, read_fromConfig names,
          wildcards]
  rw [isLookup, siteFor?]
  by_cases isWildcard : ∃ rest, host.toList = '*' :: '.' :: rest
  · obtain ⟨rest, isHost⟩ := isWildcard
    -- The wildcard of such a host is the host itself.
    have isSplit : splitOnce? '.' host.toList = some (['*'], rest) := by
      rw [isHost]
      rfl
    have noExact :
        lastSite?
            (SiteConfig.Claims lower
              (.exact (String.ofList (toAsciiLowercase host.toList))))
            sites =
          none := by
      rw [isHost]
      exact lastSite?_eq_none fun site member =>
        not_claims_exact_wildcard lowers (ascii site member)
    rw [noExact, isSplit, Option.none_or, Option.bind_some, ← isHost,
      ← Option.or_assoc, Option.or_self]
  · have noWildcard : ∀ rest, host.toList ≠ '*' :: '.' :: rest :=
      fun rest isHost => isWildcard ⟨rest, isHost⟩
    have exacts :
        lastSite?
            (SiteConfig.Claims lower
              (.exact (String.ofList (toAsciiLowercase host.toList))))
            sites =
          lastSite? (Declares host.toList) sites :=
      lastSite?_congr fun site member =>
        claims_exact_iff lowers (ascii site member) noWildcard
    rw [exacts]

end Build

/-! ## Sites with a name in common -/

section Shared

/-- `str::to_lowercase`, for ASCII. -/
def asciiLower (text : String) : String :=
  String.ofList (toAsciiLowercase text.toList)

def namedSite (name : String) (serverName : List String) :
    SiteConfig Unit Unit where
  name := name
  serverName := serverName
  listenTls := []
  fallback := false
  tls := none
  accessLog := none
  accessLogFormat := none
  proxyCache := none
  fastcgiCache := none
  other := ()

def sharedSites : List (SiteConfig Unit Unit) :=
  [namedSite "first" ["WWW.a.org", "*.a.org"],
    namedSite "second" ["www.A.org", "*.A.org"]]

theorem lookupByHost_shared :
    lookupByHost "Api.a.ORG" (VHostInner.fromConfig asciiLower sharedSites) =
      some (.fromConfig (namedSite "second" ["www.A.org", "*.A.org"])) := by
  have isSite :
      siteFor? sharedSites "Api.a.ORG" =
        some (namedSite "second" ["www.A.org", "*.A.org"]) := by
    decide
  have isLookup :=
    @lookupByHost_fromConfig _ _ asciiLower sharedSites (fun _ _ => rfl)
      (by decide) (by decide) "Api.a.ORG"
  rw [isLookup, isSite]
  rfl

end Shared

end Sweety.VHostLookup
