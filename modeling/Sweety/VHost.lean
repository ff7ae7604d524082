import Sweety.HttpText
import Sweety.KeyedTable

namespace Sweety

open HttpText KeyedTable

/-!
# The registry of virtual hosts

Model of `dispatcher/vhost.rs`.  A snapshot of the registry has a table of exact
names, a table of wildcard suffixes and a fallback site; a mutation loads the
snapshot, changes a copy and stores it.

Of the settings of a site those that a modelled function reads are fields of
their own, the others are `other`.  A `SiteInfo` is computed from the settings
alone except for its runtime resources, so the settings stand for what is
computed from them.  `lower` is `str::to_lowercase`.
-/

/-- `struct ProxyCacheConfig`. -/
structure ProxyCacheConfig where
  path : Option String
  maxEntries : Nat
  ttl : Nat
  cacheableStatuses : List Nat
  cacheableMethods : List String
  bypassHeaders : List String
  ignoreHeaders : List String
  deriving Repr, DecidableEq

/-- `struct SiteConfig`. -/
structure SiteConfig (Tls Other : Type) where
  name : String
  serverName : List String
  listenTls : List Nat
  fallback : Bool
  tls : Option Tls
  accessLog : Option String
  accessLogFormat : Option String
  proxyCache : Option ProxyCacheConfig
  /-- `fastcgi.cache`. -/
  fastcgiCache : Option ProxyCacheConfig
  other : Other
  deriving Repr, DecidableEq

/-- An open access log. -/
structure AccessLogger where
  path : String
  format : Option String
  deriving Repr, DecidableEq

/--
The resources of a site; a cache is given by the settings it is built from.
-/
structure SiteResources where
  accessLogger : Option AccessLogger
  proxyCacheArc : Option ProxyCacheConfig
  fcgiCacheArc : Option ProxyCacheConfig
  deriving Repr, DecidableEq

/-- `struct SiteInfo`. -/
structure SiteInfo (Tls Other : Type) where
  config : SiteConfig Tls Other
  resources : SiteResources
  deriving Repr, DecidableEq

/-- `struct VHostInner`. -/
structure VHostInner (Tls Other : Type) where
  exact : Table String (SiteInfo Tls Other)
  wildcard : Table String (SiteInfo Tls Other)
  fallback : Option (SiteInfo Tls Other)

variable {Tls Other : Type}

namespace SiteInfo

def name (info : SiteInfo Tls Other) : String :=
  info.config.name

/-- `SiteInfo::from_config`; the resources are injected later. -/
def fromConfig (site : SiteConfig Tls Other) : SiteInfo Tls Other where
  config := site
  resources := ⟨none, none, none⟩

@[simp]
theorem name_fromConfig (site : SiteConfig Tls Other) :
    (fromConfig site).name = site.name :=
  rfl

end SiteInfo

/-! ## Names -/

/-- What follows `*.` in a wildcard name. -/
def wildcardSuffix? (serverName : String) : Option String :=
  match serverName.toList with
  | '*' :: '.' :: suffix =>
      some (String.ofList suffix)
  | _ =>
      none

/-- `strip_port`; an IPv6 address stands in brackets. -/
def stripPort (host : String) : String :=
  match host.toList with
  | '[' :: rest =>
      match splitOnce? ']' rest with
      | some (address, _) =>
          String.ofList ('[' :: address ++ [']'])
      | none =>
          stripLastColon host
  | _ =>
      stripLastColon host
where
  /-- Everything before the last colon. -/
  stripLastColon (host : String) : String :=
    match splitOnce? ':' host.toList.reverse with
    | some (_, before) =>
        String.ofList before.reverse
    | none =>
        host

namespace SiteConfig

/-- The keys of a site in the table of exact names. -/
def exactKeys (lower : String → String) (site : SiteConfig Tls Other) :
    List String :=
  (site.serverName.filter fun name => (wildcardSuffix? name).isNone).map
    lower

/-- The keys of a site in the table of wildcard suffixes. -/
def wildcardKeys (lower : String → String) (site : SiteConfig Tls Other) :
    List String :=
  (site.serverName.filterMap wildcardSuffix?).map lower

end SiteConfig

/-! ## Mutations of a snapshot -/

namespace VHostInner

/-- `VHostInner::default`. -/
def empty : VHostInner Tls Other where
  exact := ∅
  wildcard := ∅
  fallback := none

/-- The loop of `upsert_site` over the names of a site. -/
def insertNames
    (lower : String → String)
    (info : SiteInfo Tls Other)
    (names : List String)
    (tables :
      Table String (SiteInfo Tls Other) ×
        Table String (SiteInfo Tls Other)) :
    Table String (SiteInfo Tls Other) ×
      Table String (SiteInfo Tls Other) :=
  names.foldl
    (fun (exact, wildcard) serverName =>
      match wildcardSuffix? serverName with
      | some suffix =>
          (exact, wildcard.insert (lower suffix) info)
      | none =>
          (exact.insert (lower serverName) info, wildcard))
    tables

/-- `upsert_site`. -/
def upsertSite
    (lower : String → String)
    (site : SiteConfig Tls Other)
    (inner : VHostInner Tls Other) :
    VHostInner Tls Other :=
  let info := SiteInfo.fromConfig site
  let tables :=
    insertNames lower info site.serverName
      (inner.exact.retain fun other => other.name != site.name,
        inner.wildcard.retain fun other => other.name != site.name)
  { exact := tables.1
    wildcard := tables.2
    fallback := if site.fallback then some info else inner.fallback }

/-- `inject_site_resources`; a site without an exact name is not found. -/
def injectSiteResources
    (siteName : String)
    (resources : SiteResources)
    (inner : VHostInner Tls Other) :
    VHostInner Tls Other :=
  match inner.exact.values.find? fun info => info.name == siteName with
  | none =>
      inner
  | some found =>
      let updated : SiteInfo Tls Other :=
        { found with resources := resources }
      let change := fun info : SiteInfo Tls Other =>
        if info.name = siteName then updated else info
      { exact := inner.exact.mapValues change
        wildcard := inner.wildcard.mapValues change
        fallback := inner.fallback.map change }

/-- `remove_site`. -/
def removeSite
    (siteName : String)
    (inner : VHostInner Tls Other) :
    VHostInner Tls Other where
  exact := inner.exact.retain fun info => info.name != siteName
  wildcard := inner.wildcard.retain fun info => info.name != siteName
  fallback := inner.fallback.filter fun info => info.name != siteName

/-- `from_config`. -/
def fromConfig
    (lower : String → String)
    (sites : List (SiteConfig Tls Other)) :
    VHostInner Tls Other :=
  sites.foldl (fun inner site => inner.upsertSite lower site) empty

/-- The names of `all_sites`. -/
def allSites (inner : VHostInner Tls Other) : List String :=
  inner.exact.values.map SiteInfo.name

/-! ## Lookup -/

/-- `lookup_inner`. -/
def lookupInner
    (host : String)
    (inner : VHostInner Tls Other) :
    Option (SiteInfo Tls Other) :=
  let hostLower := toAsciiLowercase host.toList
  match inner.exact.get? (String.ofList hostLower) with
  | some info =>
      some info
  | none =>
      let found :=
        (splitOnce? '.' hostLower).bind fun parts =>
          inner.wildcard.get? (String.ofList parts.2)
      found.or inner.fallback

/-- `lookup`. -/
def lookup
    (host : String)
    (inner : VHostInner Tls Other) :
    Option (SiteInfo Tls Other) :=
  inner.lookupInner (stripPort host)

/-! ## What the mutations do to each entry -/

/-- The loop over names writes the keys of the site. -/
theorem insertNames_eq
    (lower : String → String)
    (info : SiteInfo Tls Other)
    (names : List String)
    (exact wildcard : Table String (SiteInfo Tls Other)) :
    insertNames lower info names (exact, wildcard) =
      (exact.insertAll
          ((names.filter fun name => (wildcardSuffix? name).isNone).map
            lower)
          info,
        wildcard.insertAll
          ((names.filterMap wildcardSuffix?).map lower) info) := by
  induction names generalizing exact wildcard with
  | nil =>
      rfl
  | cons name rest inductionHypothesis =>
      simp only [insertNames] at inductionHypothesis ⊢
      cases isSuffix : wildcardSuffix? name with
      | none =>
          simp only [List.foldl_cons, isSuffix, inductionHypothesis]
          simp [isSuffix, Table.insertAll]
      | some suffix =>
          simp only [List.foldl_cons, isSuffix, inductionHypothesis]
          simp [isSuffix, Table.insertAll]

@[simp]
theorem get?_exact_upsertSite
    (lower : String → String)
    (site : SiteConfig Tls Other)
    (inner : VHostInner Tls Other)
    (key : String) :
    (inner.upsertSite lower site).exact.get? key =
      if key ∈ site.exactKeys lower then
        some (.fromConfig site)
      else
        (inner.exact.get? key).filter fun info =>
          info.name != site.name := by
  simp only [upsertSite, insertNames_eq]
  rw [Table.get?_insertAll, Table.get?_retain]
  exact if_congr Iff.rfl rfl rfl

@[simp]
theorem get?_wildcard_upsertSite
    (lower : String → String)
    (site : SiteConfig Tls Other)
    (inner : VHostInner Tls Other)
    (key : String) :
    (inner.upsertSite lower site).wildcard.get? key =
      if key ∈ site.wildcardKeys lower then
        some (.fromConfig site)
      else
        (inner.wildcard.get? key).filter fun info =>
          info.name != site.name := by
  simp only [upsertSite, insertNames_eq]
  rw [Table.get?_insertAll, Table.get?_retain]
  exact if_congr Iff.rfl rfl rfl

@[simp]
theorem fallback_upsertSite
    (lower : String → String)
    (site : SiteConfig Tls Other)
    (inner : VHostInner Tls Other) :
    (inner.upsertSite lower site).fallback =
      if site.fallback then
        some (.fromConfig site)
      else
        inner.fallback :=
  rfl

end VHostInner

/-! ## Slots -/

/-- The places of a snapshot at which a site can stand. -/
inductive Slot where
  | exact (key : String)
  | wildcard (key : String)
  | fallback
  deriving Repr, DecidableEq

/-- The site at a place. -/
def VHostInner.read
    (slot : Slot)
    (inner : VHostInner Tls Other) :
    Option (SiteInfo Tls Other) :=
  match slot with
  | .exact key =>
      inner.exact.get? key
  | .wildcard key =>
      inner.wildcard.get? key
  | .fallback =>
      inner.fallback

/-- The places that the settings of a site claim for it. -/
def SiteConfig.Claims
    (lower : String → String)
    (slot : Slot)
    (site : SiteConfig Tls Other) :
    Prop :=
  match slot with
  | .exact key =>
      key ∈ site.exactKeys lower
  | .wildcard key =>
      key ∈ site.wildcardKeys lower
  | .fallback =>
      site.fallback = true

instance SiteConfig.decidableClaims
    (lower : String → String)
    (slot : Slot)
    (site : SiteConfig Tls Other) :
    Decidable (site.Claims lower slot) :=
  match slot with
  | .exact key =>
      inferInstanceAs (Decidable (key ∈ site.exactKeys lower))
  | .wildcard key =>
      inferInstanceAs (Decidable (key ∈ site.wildcardKeys lower))
  | .fallback =>
      inferInstanceAs (Decidable (site.fallback = true))

namespace VHostInner

variable {inner : VHostInner Tls Other}

@[simp]
theorem read_empty (slot : Slot) :
    (empty : VHostInner Tls Other).read slot = none := by
  cases slot <;> rfl

/-- The first of the sites at these places that a lookup finds. -/
def lookupSlots (host : String) : List Slot :=
  let hostLower := toAsciiLowercase host.toList
  .exact (String.ofList hostLower) ::
    (match splitOnce? '.' hostLower with
      | some (_, suffix) =>
          [.wildcard (String.ofList suffix)]
      | none =>
          []) ++
    [.fallback]

/-- A lookup reads a few places one after the other. -/
theorem lookupInner_eq (host : String) :
    inner.lookupInner host =
      (lookupSlots host).findSome? fun slot => inner.read slot := by
  unfold lookupInner lookupSlots
  cases isExact : inner.exact.get?
      (String.ofList (toAsciiLowercase host.toList)) with
  | some info =>
      simp [read, isExact]
  | none =>
      cases isSplit : splitOnce? '.' (toAsciiLowercase host.toList) with
      | none =>
          simp [read, isExact, isSplit]
      | some parts =>
          cases isWildcard : inner.wildcard.get? (String.ofList parts.2) with
          | none =>
              simp [read, isExact, isSplit, isWildcard]
          | some info =>
              simp [read, isExact, isSplit, isWildcard]

/-- Snapshots that agree at every place up to `view` agree on lookups. -/
theorem map_lookup_congr
    {View : Type}
    {first second : VHostInner Tls Other}
    (view : SiteInfo Tls Other → View)
    (same :
      ∀ slot, (first.read slot).map view = (second.read slot).map view)
    (host : String) :
    (first.lookup host).map view = (second.lookup host).map view := by
  rw [lookup, lookup, lookupInner_eq, lookupInner_eq]
  induction lookupSlots (stripPort host) with
  | nil =>
      rfl
  | cons slot rest inductionHypothesis =>
      have here := same slot
      rw [List.findSome?_cons, List.findSome?_cons]
      cases isFirst : first.read slot with
      | none =>
          rw [isFirst, Option.map_none] at here
          rw [Option.map_eq_none_iff.mp here.symm]
          exact inductionHypothesis
      | some info =>
          rw [isFirst, Option.map_some] at here
          obtain ⟨other, isOther, sameView⟩ :=
            Option.map_eq_some_iff.mp here.symm
          rw [isOther]
          exact congrArg some sameView.symm

/-- A lookup finds a site that stands at some place. -/
theorem exists_read_of_lookup
    {host : String}
    {info : SiteInfo Tls Other}
    (found : inner.lookup host = some info) :
    ∃ slot, inner.read slot = some info := by
  rw [lookup, lookupInner_eq] at found
  obtain ⟨slot, _, isRead⟩ := List.exists_of_findSome?_eq_some found
  exact ⟨slot, isRead⟩

/-- `upsert_site`, place by place; a fallback is never taken away. -/
theorem read_upsertSite
    (lower : String → String)
    (site : SiteConfig Tls Other)
    (inner : VHostInner Tls Other)
    (slot : Slot) :
    (inner.upsertSite lower site).read slot =
      if site.Claims lower slot then
        some (.fromConfig site)
      else if slot = .fallback then
        inner.read slot
      else
        (inner.read slot).filter fun info =>
          info.name != site.name := by
  cases slot with
  | exact key =>
      rw [if_neg (show Slot.exact key ≠ .fallback by simp)]
      exact get?_exact_upsertSite lower site inner key
  | wildcard key =>
      rw [if_neg (show Slot.wildcard key ≠ .fallback by simp)]
      exact get?_wildcard_upsertSite lower site inner key
  | fallback =>
      rw [if_pos rfl]
      exact fallback_upsertSite lower site inner

/-- `remove_site`, place by place. -/
@[simp]
theorem read_removeSite
    (siteName : String)
    (inner : VHostInner Tls Other)
    (slot : Slot) :
    (inner.removeSite siteName).read slot =
      (inner.read slot).filter fun info => info.name != siteName := by
  cases slot with
  | exact key =>
      exact Table.get?_retain _ inner.exact key
  | wildcard key =>
      exact Table.get?_retain _ inner.wildcard key
  | fallback =>
      rfl

/-- An entry is that of a stored site or was there before. -/
theorem cases_of_read_upsertAll
    {lower : String → String}
    {stored : List (SiteConfig Tls Other)}
    {slot : Slot}
    {info : SiteInfo Tls Other}
    (isRead :
      (stored.foldl (fun inner site => inner.upsertSite lower site)
        inner).read slot = some info) :
    (∃ site ∈ stored, info = .fromConfig site) ∨
      inner.read slot = some info := by
  induction stored generalizing inner with
  | nil =>
      exact .inr isRead
  | cons site rest inductionHypothesis =>
      rcases inductionHypothesis isRead with ⟨other, isOther, same⟩ | here
      · exact .inl ⟨other, List.mem_cons_of_mem site isOther, same⟩
      · rw [read_upsertSite] at here
        split at here
        · exact .inl
            ⟨site, List.mem_cons_self, (Option.some.inj here).symm⟩
        · split at here
          · exact .inr here
          · exact .inr (Option.filter_eq_some_iff.mp here).1

/-- An entry of a site that is not removed was there before. -/
theorem read_of_read_removeAll
    {gone : List String}
    {slot : Slot}
    {info : SiteInfo Tls Other}
    (isRead :
      (gone.foldl (fun inner name => inner.removeSite name)
        inner).read slot = some info) :
    inner.read slot = some info ∧ info.name ∉ gone := by
  induction gone generalizing inner with
  | nil =>
      exact ⟨isRead, List.not_mem_nil⟩
  | cons name rest inductionHypothesis =>
      obtain ⟨here, notInRest⟩ := inductionHypothesis isRead
      rw [read_removeSite] at here
      obtain ⟨wasRead, otherName⟩ := Option.filter_eq_some_iff.mp here
      refine ⟨wasRead, ?_⟩
      simp only [List.mem_cons, not_or]
      exact ⟨by simpa using otherName, notInRest⟩

/-- The site that `inject_site_resources` finds. -/
def injectable?
    (siteName : String)
    (inner : VHostInner Tls Other) :
    Option (SiteInfo Tls Other) :=
  inner.exact.values.find? fun info => info.name == siteName

/-- What `inject_site_resources` makes of a site. -/
def withResources
    (siteName : String)
    (found : SiteInfo Tls Other)
    (resources : SiteResources)
    (info : SiteInfo Tls Other) :
    SiteInfo Tls Other :=
  if info.name = siteName then
    { found with resources := resources }
  else
    info

/-- `inject_site_resources`, place by place. -/
theorem read_injectSiteResources
    (siteName : String)
    (resources : SiteResources)
    (inner : VHostInner Tls Other)
    (slot : Slot) :
    (inner.injectSiteResources siteName resources).read slot =
      match inner.injectable? siteName with
      | none =>
          inner.read slot
      | some found =>
          (inner.read slot).map
            (withResources siteName found resources) := by
  unfold injectSiteResources injectable?
  split
  · rfl
  · cases slot with
    | exact key =>
        exact Table.get?_mapValues _ inner.exact key
    | wildcard key =>
        exact Table.get?_mapValues _ inner.wildcard key
    | fallback =>
        rfl

/-- Nothing is injected into a site that is not found. -/
theorem injectSiteResources_of_none
    {siteName : String}
    (resources : SiteResources)
    (isNone : inner.injectable? siteName = none) :
    inner.injectSiteResources siteName resources = inner := by
  rw [injectable?] at isNone
  simp only [injectSiteResources, isNone]

/-- A site is found if it has an exact name. -/
theorem injectable?_eq_some
    {siteName : String}
    {found : SiteInfo Tls Other}
    (isFound : inner.injectable? siteName = some found) :
    found.name = siteName ∧
      ∃ key, inner.read (.exact key) = some found := by
  have sameName := List.find?_some isFound
  obtain ⟨key, isRead⟩ :=
    Table.mem_values_iff.mp (List.mem_of_find?_eq_some isFound)
  exact ⟨by simpa using sameName, key, isRead⟩

/-- No site is found if none has an exact name. -/
theorem injectable?_eq_none_iff {siteName : String} :
    inner.injectable? siteName = none ↔
      ∀ key info,
        inner.read (.exact key) = some info →
          info.name ≠ siteName := by
  constructor
  · intro isNone key info isRead sameName
    have member := Table.mem_values_iff.mpr ⟨key, isRead⟩
    have other := List.find?_eq_none.mp isNone info member
    simp [sameName] at other
  · intro others
    apply List.find?_eq_none.mpr
    intro info member
    obtain ⟨key, isRead⟩ := Table.mem_values_iff.mp member
    simpa using others key info isRead

/-- The names of all sites are those with an exact name. -/
theorem mem_allSites_iff {siteName : String} :
    siteName ∈ inner.allSites ↔
      ∃ key info,
        inner.read (.exact key) = some info ∧ info.name = siteName := by
  rw [allSites, List.mem_map]
  constructor
  · rintro ⟨info, member, rfl⟩
    obtain ⟨key, isRead⟩ := Table.mem_values_iff.mp member
    exact ⟨key, info, isRead, rfl⟩
  · rintro ⟨key, info, isRead, rfl⟩
    exact ⟨info, Table.mem_values_iff.mpr ⟨key, isRead⟩, rfl⟩

end VHostInner

/-- `to_ascii_lowercase`, which is `to_lowercase` on ASCII names. -/
def asciiLower (text : String) : String :=
  String.ofList (toAsciiLowercase text.toList)

/-- A site that has a name and server names only. -/
def namedSite (name : String) (serverName : List String) :
    SiteConfig Unit Unit where
  name := name
  serverName := serverName
  listenTls := []
  fallback := false
  tls := none
  accessLog := none
  accessLogFormat := none
  proxyCache := none
  fastcgiCache := none
  other := ()

/-- Exact names come before wildcards, and ports are ignored. -/
example :
    ((VHostInner.fromConfig asciiLower
        [namedSite "all" ["*.Example.com"],
          namedSite "www" ["www.example.com"]]).lookup
      "WWW.example.com:8080").map SiteInfo.name = some "www" := by
  decide

end Sweety
