import Sweety.HotReload
import Sweety.StepRun

namespace Sweety.RegistryAgreement

open StepRun

/-!
# The registry and the configuration in force

A registry represents a configuration if every place holds the site that claims
it.  A registry that is built afresh does, and so does one that is changed in
place, as long as every site that is gone was removed and every site that
differs was stored again.
-/

variable
  {Tls Other Cert : Type}
  {lower : String → String}
  {sites : List (SiteConfig Tls Other)}
  {registry : VHostInner Tls Other}
  {slot : Slot}

/-! ## Configurations and what represents them -/

/--
The names of sites are distinct, no two sites have a server name in common and
there is at most one fallback site.
-/
structure Valid
    (lower : String → String)
    (sites : List (SiteConfig Tls Other)) :
    Prop where
  names : (siteNames sites).Nodup
  apart :
    sites.Pairwise fun first second =>
      ∀ slot, first.Claims lower slot → ¬ second.Claims lower slot

/-- The site that claims a place. -/
def owner?
    (lower : String → String)
    (sites : List (SiteConfig Tls Other))
    (slot : Slot) :
    Option (SiteConfig Tls Other) :=
  sites.find? fun site => site.Claims lower slot

/-- The settings of the site at a place. -/
def configAt
    (slot : Slot)
    (registry : VHostInner Tls Other) :
    Option (SiteConfig Tls Other) :=
  (registry.read slot).map SiteInfo.config

/-- Every place holds the site that claims it. -/
def Represents
    (lower : String → String)
    (registry : VHostInner Tls Other)
    (sites : List (SiteConfig Tls Other)) :
    Prop :=
  ∀ slot, configAt slot registry = owner? lower sites slot

/-- Every lookup finds the site that a fresh registry finds. -/
def Agrees
    (lower : String → String)
    (live : Live Tls Other Cert) :
    Prop :=
  ∀ host,
    (live.registry.lookup host).map SiteInfo.config =
      ((VHostInner.fromConfig lower live.cfg).lookup host).map
        SiteInfo.config

/-- A place has at most one owner. -/
def OneOwner
    (lower : String → String)
    (sites : List (SiteConfig Tls Other))
    (slot : Slot) :
    Prop :=
  ∀ first ∈ sites, ∀ second ∈ sites,
    first.Claims lower slot → second.Claims lower slot → first = second

theorem Valid.oneOwner (valid : Valid lower sites) (slot : Slot) :
    OneOwner lower sites slot := by
  intro first isFirst second isSecond firstClaims secondClaims
  by_contra different
  have symmetric :
      Std.Symm fun first second : SiteConfig Tls Other =>
        ∀ slot, first.Claims lower slot → ¬ second.Claims lower slot :=
    ⟨fun _ _ apart slot isSecond isFirst => apart slot isFirst isSecond⟩
  exact valid.apart.forall isFirst isSecond different slot firstClaims
    secondClaims

theorem mem_of_owner?
    {site : SiteConfig Tls Other}
    (isOwner : owner? lower sites slot = some site) :
    site ∈ sites ∧ site.Claims lower slot := by
  have claims := List.find?_some isOwner
  exact ⟨List.mem_of_find?_eq_some isOwner, by simpa using claims⟩

theorem not_claims_of_owner?_none
    (isNone : owner? lower sites slot = none)
    {site : SiteConfig Tls Other}
    (member : site ∈ sites) :
    ¬ site.Claims lower slot := by
  simpa using List.find?_eq_none.mp isNone site member

theorem owner?_eq_none
    (unclaimed : ∀ site ∈ sites, ¬ site.Claims lower slot) :
    owner? lower sites slot = none := by
  apply List.find?_eq_none.mpr
  intro site member
  simpa using unclaimed site member

/-- The owner of a place is the site that claims it. -/
theorem OneOwner.owner?_eq_some
    (oneOwner : OneOwner lower sites slot)
    {site : SiteConfig Tls Other}
    (member : site ∈ sites)
    (claims : site.Claims lower slot) :
    owner? lower sites slot = some site := by
  cases isOwner : owner? lower sites slot with
  | none =>
      exact absurd claims (not_claims_of_owner?_none isOwner member)
  | some other =>
      obtain ⟨isOther, otherClaims⟩ := mem_of_owner? isOwner
      rw [oneOwner other isOther site member otherClaims claims]

theorem OneOwner.of_part
    (oneOwner : OneOwner lower sites slot)
    {part : List (SiteConfig Tls Other)}
    (within : ∀ site ∈ part, site ∈ sites) :
    OneOwner lower part slot := by
  intro first isFirst second isSecond
  exact oneOwner first (within first isFirst) second (within second isSecond)

/-- The places that a site claims. -/
def claimedSlots
    (lower : String → String)
    (site : SiteConfig Tls Other) :
    List Slot :=
  (site.exactKeys lower).map .exact ++
    (site.wildcardKeys lower).map .wildcard ++
    if site.fallback then [.fallback] else []

theorem mem_claimedSlots_iff {site : SiteConfig Tls Other} :
    slot ∈ claimedSlots lower site ↔ site.Claims lower slot := by
  cases slot <;> simp [claimedSlots, SiteConfig.Claims]

/-- Whether a configuration is valid can be computed. -/
instance decidableValid
    (lower : String → String)
    (sites : List (SiteConfig Tls Other)) :
    Decidable (Valid lower sites) :=
  decidable_of_iff
    ((siteNames sites).Nodup ∧
      sites.Pairwise fun first second =>
        ∀ slot ∈ claimedSlots lower first, ¬ second.Claims lower slot) <| by
    simp only [mem_claimedSlots_iff]
    exact ⟨fun ⟨names, apart⟩ => ⟨names, apart⟩,
      fun ⟨names, apart⟩ => ⟨names, apart⟩⟩

/-! ## Several mutations in a row -/

theorem configAt_upsertSite (site : SiteConfig Tls Other) :
    configAt slot (registry.upsertSite lower site) =
      if site.Claims lower slot then
        some site
      else if slot = .fallback then
        configAt slot registry
      else
        (configAt slot registry).filter fun other =>
          other.name != site.name := by
  rw [configAt, configAt, VHostInner.read_upsertSite]
  split
  · rfl
  · split
    · rfl
    · cases registry.read slot with
      | none =>
          rfl
      | some info =>
          simp only [Option.filter_some, SiteInfo.name, Option.map_some]
          split <;> rfl

theorem configAt_removeSite (name : String) :
    configAt slot (registry.removeSite name) =
      (configAt slot registry).filter fun site => site.name != name := by
  rw [configAt, configAt, VHostInner.read_removeSite]
  cases registry.read slot with
  | none =>
      rfl
  | some info =>
      simp only [Option.filter_some, SiteInfo.name, Option.map_some]
      split <;> rfl

/-- The places after several sites are removed. -/
theorem configAt_removeAll
    (names : List String)
    (registry : VHostInner Tls Other) :
    configAt slot
        (names.foldl (fun registry name => registry.removeSite name)
          registry) =
      (configAt slot registry).filter fun site => site.name ∉ names := by
  induction names generalizing registry with
  | nil =>
      cases isRead : configAt slot registry with
      | none =>
          simp [isRead]
      | some site =>
          simp [isRead, Option.filter_some]
  | cons name rest inductionHypothesis =>
      rw [List.foldl_cons, inductionHypothesis, configAt_removeSite,
        Option.filter_filter]
      congr 1
      funext site
      by_cases isName : site.name = name
      · simp [isName]
      · simp [isName]

/-- The places after several sites of one configuration are stored. -/
theorem configAt_upsertAll
    (names : (siteNames sites).Nodup)
    (oneOwner : OneOwner lower sites slot)
    (stored : List (SiteConfig Tls Other))
    (within : ∀ site ∈ stored, site ∈ sites)
    (registry : VHostInner Tls Other) :
    configAt slot
        (stored.foldl (fun registry site => registry.upsertSite lower site)
          registry) =
      (owner? lower stored slot).or
        (if slot = .fallback then
          configAt slot registry
        else
          (configAt slot registry).filter fun site =>
            site.name ∉ siteNames stored) := by
  induction stored generalizing registry with
  | nil =>
      cases isRead : configAt slot registry with
      | none =>
          simp [owner?, isRead]
      | some site =>
          simp [owner?, siteNames, isRead, Option.filter_some]
  | cons site rest inductionHypothesis =>
      have isSite := within site List.mem_cons_self
      have restWithin : ∀ other ∈ rest, other ∈ sites :=
        fun other member => within other (List.mem_cons_of_mem site member)
      rw [List.foldl_cons, inductionHypothesis restWithin,
        configAt_upsertSite]
      cases isOwner : owner? lower rest slot with
      | some other =>
          obtain ⟨isOther, otherClaims⟩ := mem_of_owner? isOwner
          by_cases claims : site.Claims lower slot
          · have same :=
              oneOwner site isSite other (restWithin other isOther) claims
                otherClaims
            simp [owner?, same, otherClaims]
          · have isOwnerAfter :
                owner? lower (site :: rest) slot = some other := by
              rw [owner?, List.find?_cons_of_neg (by simpa using claims)]
              exact isOwner
            simp [isOwnerAfter]
      | none =>
          by_cases claims : site.Claims lower slot
          · have lastOfName : site.name ∉ siteNames rest := by
              intro inRest
              have isRest :=
                mem_of_mem_siteNames names restWithin isSite inRest
              exact not_claims_of_owner?_none isOwner isRest claims
            simp [owner?, claims, lastOfName]
          · have isOwnerAfter :
                owner? lower (site :: rest) slot = none := by
              rw [owner?, List.find?_cons_of_neg (by simpa using claims)]
              exact isOwner
            simp only [isOwnerAfter, claims, Option.none_or]
            by_cases isFallback : slot = .fallback
            · simp [isFallback]
            · simp only [isFallback]
              rw [if_neg (by simp), if_neg (by simp), if_neg (by simp),
                Option.filter_filter]
              congr 1
              funext other
              by_cases sameName : other.name = site.name
              · simp [siteNames, sameName]
              · simp [siteNames, sameName]

/-! ## Keeping a registry that represents the configuration -/

section Changes

variable
  {before after stored : List (SiteConfig Tls Other)}
  {gone : List String}

/--
A place that holds its owner in `before` holds its owner in `after` once the
sites that are gone are removed and the sites that differ are stored.  A site
that gives up the fallback has to leave it to another one, because storing a
site never clears it.
-/
theorem configAt_change
    (here : configAt slot registry = owner? lower before slot)
    (namesBefore : (siteNames before).Nodup)
    (ownerBefore : OneOwner lower before slot)
    (namesAfter : (siteNames after).Nodup)
    (ownerAfter : OneOwner lower after slot)
    (within : ∀ site ∈ stored, site ∈ after)
    (kept : ∀ site ∈ after, site ∉ stored → site ∈ before)
    (removed : ∀ name ∈ gone, name ∉ siteNames after)
    (allRemoved :
      ∀ site ∈ before,
        site.Claims lower slot →
        site.name ∉ siteNames after →
          site.name ∈ gone)
    (handedOver :
      slot = .fallback →
      ∀ site ∈ before, site.fallback = true →
        site.name ∈ siteNames after →
          ∃ other ∈ after, other.fallback = true) :
    configAt slot
        (stored.foldl (fun registry site => registry.upsertSite lower site)
          (gone.foldl (fun registry name => registry.removeSite name)
            registry)) =
      owner? lower after slot := by
  rw [configAt_upsertAll namesAfter ownerAfter stored within,
    configAt_removeAll, here]
  cases isOwner : owner? lower after slot with
  | some site =>
      obtain ⟨isAfter, claims⟩ := mem_of_owner? isOwner
      by_cases isStored : site ∈ stored
      · have isStoredOwner : owner? lower stored slot = some site :=
          (ownerAfter.of_part within).owner?_eq_some isStored claims
        rw [isStoredOwner, Option.some_or]
      · have isBefore := kept site isAfter isStored
        have noStoredOwner : owner? lower stored slot = none := by
          apply owner?_eq_none
          intro other isOther otherClaims
          have same :=
            ownerAfter other (within other isOther) site isAfter
              otherClaims claims
          exact isStored (same ▸ isOther)
        have notGone : site.name ∉ gone :=
          fun isGone =>
            removed site.name isGone (mem_siteNames_of_mem isAfter)
        have notStoredName : site.name ∉ siteNames stored :=
          fun inStored =>
            isStored (mem_of_mem_siteNames namesAfter within isAfter inStored)
        rw [noStoredOwner, ownerBefore.owner?_eq_some isBefore claims]
        simp [Option.filter_some, notGone, notStoredName]
  | none =>
      have noStoredOwner : owner? lower stored slot = none :=
        owner?_eq_none fun site isStored =>
          not_claims_of_owner?_none isOwner (within site isStored)
      rw [noStoredOwner, Option.none_or]
      cases wasOwner : owner? lower before slot with
      | none =>
          simp
      | some site =>
          obtain ⟨isBefore, claims⟩ := mem_of_owner? wasOwner
          by_cases isGone : site.name ∈ gone
          · simp [Option.filter_some, isGone]
          · have inAfter : site.name ∈ siteNames after := by
              by_contra notAfter
              exact isGone (allRemoved site isBefore claims notAfter)
            by_cases isFallback : slot = .fallback
            · subst isFallback
              obtain ⟨other, isOther, otherFallback⟩ :=
                handedOver rfl site isBefore claims inAfter
              exact absurd otherFallback
                (not_claims_of_owner?_none isOwner isOther)
            · have inStored : site.name ∈ siteNames stored := by
                obtain ⟨other, isOther, sameName⟩ :=
                  exists_of_mem_siteNames inAfter
                by_contra notStored
                have isOtherBefore : other ∈ before := by
                  apply kept other isOther
                  intro isStored
                  exact notStored
                    (sameName ▸ mem_siteNames_of_mem isStored)
                have same :=
                  eq_of_sameName namesBefore isOtherBefore isBefore
                    sameName
                exact not_claims_of_owner?_none isOwner isOther
                  (same ▸ claims)
              simp [Option.filter_some, isFallback, isGone, inStored]

/-- A fresh registry holds the owner of a place. -/
theorem configAt_fromConfig
    (names : (siteNames sites).Nodup)
    (oneOwner : OneOwner lower sites slot) :
    configAt slot (VHostInner.fromConfig lower sites) =
      owner? lower sites slot := by
  rw [VHostInner.fromConfig, configAt_upsertAll names oneOwner sites
    (fun _ member => member)]
  simp [configAt]

/-- A fresh registry represents its configuration. -/
theorem represents_fromConfig (valid : Valid lower sites) :
    Represents lower (VHostInner.fromConfig lower sites) sites :=
  fun slot => configAt_fromConfig valid.names (valid.oneOwner slot)

/-- Every entry is that of a site of the configuration. -/
def Within
    (sites : List (SiteConfig Tls Other))
    (registry : VHostInner Tls Other) :
    Prop :=
  ∀ slot info, registry.read slot = some info → info.config ∈ sites

theorem within_fromConfig :
    Within sites (VHostInner.fromConfig lower sites) := by
  intro slot info isRead
  rcases VHostInner.cases_of_read_upsertAll isRead with
    ⟨site, isSite, rfl⟩ | wasEmpty
  · exact isSite
  · rw [VHostInner.read_empty] at wasEmpty
    cases wasEmpty

/-- Resources do not change the settings at any place. -/
theorem Within.configAt_inject
    (within : Within sites registry)
    (names : (siteNames sites).Nodup)
    (siteName : String)
    (resources : SiteResources)
    (slot : Slot) :
    configAt slot (registry.injectSiteResources siteName resources) =
      configAt slot registry := by
  rw [configAt, configAt, VHostInner.read_injectSiteResources]
  cases isFound : registry.injectable? siteName with
  | none =>
      rfl
  | some found =>
      obtain ⟨foundName, key, foundAt⟩ :=
        VHostInner.injectable?_eq_some isFound
      cases isRead : registry.read slot with
      | none =>
          rfl
      | some info =>
          simp only [Option.map_some, VHostInner.withResources]
          split
          · next sameName =>
              have same :=
                eq_of_sameName names (within _ found foundAt)
                  (within slot info isRead)
                  (foundName.trans sameName.symm)
              rw [← same]
          · rfl

theorem Within.inject
    (within : Within sites registry)
    (names : (siteNames sites).Nodup)
    (siteName : String)
    (resources : SiteResources) :
    Within sites (registry.injectSiteResources siteName resources) := by
  intro slot info isRead
  have here := within.configAt_inject names siteName resources slot
  rw [configAt, isRead, Option.map_some] at here
  obtain ⟨before, wasRead, same⟩ := Option.map_eq_some_iff.mp here.symm
  rw [← same]
  exact within slot before wasRead

/-- The settings at all places at the start are those of a fresh registry. -/
theorem configAt_startupRegistry
    (env : Externals Tls Other Cert)
    (names : (siteNames sites).Nodup)
    (slot : Slot) :
    configAt slot (env.startupRegistry sites) =
      configAt slot (VHostInner.fromConfig env.lower sites) := by
  have injectAll :
      ∀ (injected : List (SiteConfig Tls Other))
        (registry : VHostInner Tls Other),
        Within sites registry →
          configAt slot
              (injected.foldl
                (fun registry site =>
                  registry.injectSiteResources site.name
                    (env.startupResources site))
                registry) =
            configAt slot registry := by
    intro injected
    induction injected with
    | nil =>
        exact fun _ _ => rfl
    | cons site rest inductionHypothesis =>
        intro registry within
        rw [List.foldl_cons,
          inductionHypothesis _ (within.inject names _ _),
          within.configAt_inject names]
  exact injectAll sites _ within_fromConfig

theorem represents_startupRegistry
    (env : Externals Tls Other Cert)
    (valid : Valid env.lower sites) :
    Represents env.lower (env.startupRegistry sites) sites := by
  intro slot
  rw [configAt_startupRegistry env valid.names]
  exact represents_fromConfig valid slot

/-- A registry that represents the configuration in force agrees with it. -/
theorem agrees_of_represents
    {live : Live Tls Other Cert}
    (valid : Valid lower live.cfg)
    (represents : Represents lower live.registry live.cfg) :
    Agrees lower live := by
  intro host
  apply VHostInner.map_lookup_congr
  intro slot
  exact (represents slot).trans (represents_fromConfig valid slot).symm

end Changes

/-! ## Runs -/

section Runs

variable {env : Externals Tls Other Cert}

/--
A site that is the fallback does not become an ordinary one while there is no
other fallback.
-/
def FallbackStays
    (before after : List (SiteConfig Tls Other)) :
    Prop :=
  ∀ site ∈ before, site.fallback = true →
    site.name ∈ siteNames after →
      ∃ other ∈ after, other.fallback = true

/--
What a step must meet.

A reload compares with the configuration that it has seen last, so a site that
it does not see in there must not be gone, and one that it takes for unchanged
must be what is in force.  An update by the administrator finds the sites that
are gone by their exact names.  The deletion of a site does not change the
configuration.
-/
def Meets
    (env : Externals Tls Other Cert)
    (live : Live Tls Other Cert) :
    ConfigEvent Tls Other → Prop
  | .hotReload new _ =>
      (∀ site ∈ live.cfg,
        site.name ∉ siteNames new →
          site.name ∈ siteNames live.currentConfig) ∧
      (∀ site ∈ new, ∀ seen ∈ siteNamed? live.currentConfig site.name,
        env.siteChanged seen site = false → site ∈ live.cfg) ∧
      FallbackStays live.cfg new
  | .applyConfig new =>
      (∀ site ∈ live.cfg,
        site.name ∉ siteNames new →
        site.exactKeys env.lower = [] →
          ∀ slot, ¬ site.Claims env.lower slot) ∧
      FallbackStays live.cfg new
  | .siteDelete name =>
      ∀ site ∈ live.cfg,
        site.name = name →
          site.exactKeys env.lower = []

/-- The new configuration of a step is valid. -/
def ValidEvent (lower : String → String) : ConfigEvent Tls Other → Prop
  | .hotReload new _ =>
      Valid lower new
  | .applyConfig new =>
      Valid lower new
  | .siteDelete _ =>
      True

/-- The configuration in force is valid and the registry represents it. -/
structure Settled
    (env : Externals Tls Other Cert)
    (live : Live Tls Other Cert) :
    Prop where
  valid : Valid env.lower live.cfg
  represents : Represents env.lower live.registry live.cfg

variable
  {live : Live Tls Other Cert}
  {new : List (SiteConfig Tls Other)}
  {order : DiffOrder}

/-- A site that a reload does not store is not reported changed. -/
theorem seen_of_not_upserted
    (names : (siteNames new).Nodup)
    (fits : order.Fits live.currentConfig new)
    {site : SiteConfig Tls Other}
    (isNew : site ∈ new)
    (notStored :
      site ∉ env.upsertedSites live.currentConfig new order) :
    ∃ seen,
      siteNamed? live.currentConfig site.name = some seen ∧
        env.siteChanged seen site = false := by
  by_contra changed
  apply notStored
  refine (Externals.mem_upsertedSites_iff fits).mpr
    ⟨siteNamed?_eq_some names isNew, ?_⟩
  intro seen isSeen
  by_contra isUnchanged
  exact changed ⟨seen, isSeen, by simpa using isUnchanged⟩

/-- A site that was seen and is not in the new configuration is removed. -/
theorem mem_removed_of_seen
    (fits : order.Fits live.currentConfig new)
    {name : String}
    (isSeen : name ∈ siteNames live.currentConfig)
    (notNew : name ∉ siteNames new) :
    name ∈ siteNames (removedSites live.currentConfig order) := by
  obtain ⟨seen, isNamed⟩ := exists_siteNamed? isSeen
  obtain ⟨_, rfl⟩ := mem_of_siteNamed? isNamed
  exact mem_siteNames_of_mem
    ((mem_removedSites_iff fits).mpr ⟨isNamed, notNew⟩)

/-- A reload keeps the owner at a place. -/
theorem configAt_hotReload
    (here : configAt slot live.registry = owner? env.lower live.cfg slot)
    (namesBefore : (siteNames live.cfg).Nodup)
    (ownerBefore : OneOwner env.lower live.cfg slot)
    (namesAfter : (siteNames new).Nodup)
    (ownerAfter : OneOwner env.lower new slot)
    (fits : order.Fits live.currentConfig new)
    (seenGone :
      ∀ site ∈ live.cfg,
        site.name ∉ siteNames new →
          site.name ∈ siteNames live.currentConfig)
    (seenKept :
      ∀ site ∈ new, ∀ seen ∈ siteNamed? live.currentConfig site.name,
        env.siteChanged seen site = false → site ∈ live.cfg)
    (fallbackStays : slot = .fallback → FallbackStays live.cfg new) :
    configAt slot (env.applyDiff new order live).registry =
      owner? env.lower new slot := by
  rw [Externals.registry_applyDiff]
  refine configAt_change here namesBefore ownerBefore namesAfter ownerAfter
    ?_ ?_ ?_ ?_ fallbackStays
  · intro site isStored
    exact (mem_of_siteNamed?
      ((Externals.mem_upsertedSites_iff fits).mp isStored).1).1
  · intro site isNew notStored
    obtain ⟨seen, isSeen, isUnchanged⟩ :=
      seen_of_not_upserted namesAfter fits isNew notStored
    exact seenKept site isNew seen isSeen isUnchanged
  · intro name isGone
    obtain ⟨site, isRemoved, rfl⟩ := exists_of_mem_siteNames isGone
    exact ((mem_removedSites_iff fits).mp isRemoved).2
  · intro site isLive _ notNew
    exact mem_removed_of_seen fits (seenGone site isLive notNew) notNew

/-- A reload keeps the registry in agreement. -/
theorem Settled.hotReload
    (settled : Settled env live)
    (valid : Valid env.lower new)
    (fits : order.Fits live.currentConfig new)
    (meets : Meets env live (.hotReload new order)) :
    Represents env.lower (env.applyDiff new order live).registry new := by
  obtain ⟨seenGone, seenKept, fallbackStays⟩ := meets
  intro slot
  exact configAt_hotReload (settled.represents slot) settled.valid.names
    (settled.valid.oneOwner slot) valid.names (valid.oneOwner slot) fits
    seenGone seenKept (fun _ => fallbackStays)

/-- An update by the administrator keeps the registry in agreement. -/
theorem Settled.applyConfig
    (settled : Settled env live)
    (valid : Valid env.lower new)
    (meets : Meets env live (.applyConfig new)) :
    Represents env.lower (env.applyConfig new live).registry new := by
  obtain ⟨foundByName, fallbackStays⟩ := meets
  intro slot
  refine configAt_change (settled.represents slot) settled.valid.names
    (settled.valid.oneOwner slot) valid.names (valid.oneOwner slot)
    (fun _ member => member)
    (fun _ member notStored => absurd member notStored) ?_ ?_
    (fun _ => fallbackStays)
  · intro name isGone
    simpa using (List.mem_filter.mp isGone).2
  · intro site isLive claims notNew
    cases isKeys : site.exactKeys env.lower with
    | nil =>
        exact absurd claims (foundByName site isLive notNew isKeys slot)
    | cons key rest =>
        have claimsKey : site.Claims env.lower (.exact key) := by
          change key ∈ site.exactKeys env.lower
          rw [isKeys]
          exact List.mem_cons_self
        have atKey := settled.represents (.exact key)
        rw [(settled.valid.oneOwner _).owner?_eq_some isLive claimsKey,
          configAt] at atKey
        obtain ⟨info, isRead, isConfig⟩ := Option.map_eq_some_iff.mp atKey
        have listed : site.name ∈ live.registry.allSites :=
          VHostInner.mem_allSites_iff.mpr
            ⟨key, info, isRead, congrArg SiteConfig.name isConfig⟩
        exact List.mem_filter.mpr ⟨listed, by simpa using notNew⟩

/-- The deletion of a site that is not listed does nothing. -/
theorem Settled.siteDelete
    (settled : Settled env live)
    {name : String}
    (meets : Meets env live (.siteDelete name)) :
    live.routeSiteDelete name = live := by
  have notListed : name ∉ live.registry.allSites := by
    intro isListed
    obtain ⟨key, info, isRead, sameName⟩ :=
      VHostInner.mem_allSites_iff.mp isListed
    have atKey := settled.represents (.exact key)
    rw [configAt, isRead, Option.map_some] at atKey
    obtain ⟨isLive, claims⟩ := mem_of_owner? atKey.symm
    have noKeys := meets info.config isLive sameName
    change key ∈ info.config.exactKeys env.lower at claims
    rw [noKeys] at claims
    exact List.not_mem_nil claims
  exact if_neg notListed

/-- A step that meets the condition keeps the registry in agreement. -/
theorem Settled.step
    (settled : Settled env live)
    {event : ConfigEvent Tls Other}
    {next : Live Tls Other Cert}
    (taken : env.step? live event = some next)
    (validEvent : ValidEvent env.lower event)
    (meets : Meets env live event) :
    Settled env next := by
  cases event with
  | hotReload new order =>
      obtain ⟨fits, rfl⟩ := Externals.fits_of_step?_hotReload taken
      have represents := settled.hotReload validEvent fits meets
      refine ⟨?_, ?_⟩
      · rw [Externals.cfg_applyDiff]
        exact validEvent
      · rw [Externals.cfg_applyDiff]
        exact represents
  | applyConfig new =>
      obtain rfl := Option.some.inj taken
      exact ⟨validEvent, settled.applyConfig validEvent meets⟩
  | siteDelete name =>
      obtain rfl := Option.some.inj taken
      rw [settled.siteDelete meets]
      exact settled

/--
The registry agrees with the configuration in force at the start and after every
step, along every run of steps that meet the condition.
-/
theorem agrees_along_run
    (env : Externals Tls Other Cert)
    (sites : List (SiteConfig Tls Other))
    (events : List (ConfigEvent Tls Other))
    (validStart : Valid env.lower sites)
    (guarded :
      Along env.step?
        (fun live event _ =>
          ValidEvent env.lower event ∧ Meets env live event)
        (env.startup sites) events) :
    Agrees env.lower (env.startup sites) ∧
      Along env.step? (fun _ _ next => Agrees env.lower next)
        (env.startup sites) events := by
  have settled : Settled env (env.startup sites) :=
    ⟨validStart, represents_startupRegistry env validStart⟩
  refine ⟨agrees_of_represents settled.valid settled.represents, ?_⟩
  apply along_of_guarded _ _ settled guarded
  · intro live event next settledBefore taken
    rintro ⟨validEvent, meets⟩
    exact settledBefore.step taken validEvent meets
  · intro _ _ next settledAfter
    exact agrees_of_represents settledAfter.valid settledAfter.represents

end Runs

/-- A reload that adds a site. -/
theorem agrees_after_adding_site :
    ∃ next,
      plainExternals.step?
          (plainExternals.startup [namedSite "a" ["a.example"]])
          (.hotReload
            [namedSite "a" ["a.example"], namedSite "b" ["*.example"]]
            ⟨[], ["b"], ["a"]⟩) = some next ∧
        Agrees plainExternals.lower next := by
  have fits :
      DiffOrder.Fits
        [namedSite "a" ["a.example"]]
        [namedSite "a" ["a.example"], namedSite "b" ["*.example"]]
        ⟨[], ["b"], ["a"]⟩ := by
    decide
  have taken :=
    plainExternals.step?_hotReload
      (show DiffOrder.Fits
        (plainExternals.startup
          [namedSite "a" ["a.example"]]).currentConfig _ _ from fits)
  have along :=
    (agrees_along_run plainExternals [namedSite "a" ["a.example"]]
      [.hotReload
        [namedSite "a" ["a.example"], namedSite "b" ["*.example"]]
        ⟨[], ["b"], ["a"]⟩]
      (by decide) ?_).2
  · exact ⟨_, taken, (along _ taken).1⟩
  · intro next _
    refine ⟨⟨show Valid asciiLower _ by decide, ?_, ?_, ?_⟩,
      trivial⟩
    · decide
    · decide
    · change ∀ site ∈ [namedSite "a" ["a.example"]], _
      decide

/-- A deleted site is still configured. -/
theorem not_agrees_after_delete :
    Valid plainExternals.lower [namedSite "a" ["a.example"]] ∧
      ∃ next,
        plainExternals.step?
            (plainExternals.startup [namedSite "a" ["a.example"]])
            (.siteDelete "a") = some next ∧
          ¬ Agrees plainExternals.lower next := by
  refine ⟨by decide, _, rfl, ?_⟩
  intro agrees
  have atName := agrees "a.example"
  revert atName
  decide

end Sweety.RegistryAgreement
