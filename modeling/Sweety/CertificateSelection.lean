import Mathlib.Data.Finset.Sort
import Mathlib.Data.String.Basic
import Sweety.ResolverReload
import Sweety.StepRun

namespace Sweety.CertificateSelection

open KeyedTable RegistryAgreement ResolverReload StepRun

/-!
# Certificates and routes after reloads

The registry is changed by what differs in a whole site, the resolvers by what
differs in its TLS settings, and names are erased from the resolvers by the old
settings alone.  So the two can drift apart, and what the resolvers hold can
depend on the order in which a reload goes through the sites.
-/

variable
  {Tls Other Cert : Type}
  {env : Externals Tls Other Cert}
  {live : Live Tls Other Cert}
  {sites new : List (SiteConfig Tls Other)}
  {order : DiffOrder}

/-- The names of sites are distinct and no server name belongs to two sites. -/
structure NamesApart
    (lower : String → String)
    (sites : List (SiteConfig Tls Other)) :
    Prop where
  names : (siteNames sites).Nodup
  owners : ∀ slot, slot ≠ .fallback → OneOwner lower sites slot

/-- The site that a host is routed to by an exact or a wildcard name. -/
def routeByName
    (host : String)
    (registry : VHostInner Tls Other) :
    Option (SiteInfo Tls Other) :=
  { registry with fallback := none }.lookupInner host

/--
A host that is routed by its name to a site with certificates is answered with
these, at every port that the site listens on.
-/
def Follows
    (env : Externals Tls Other Cert)
    (live : Live Tls Other Cert) :
    Prop :=
  ∀ host port resolver info site keys fits,
    live.sniResolvers.get? port = some resolver →
    routeByName host live.registry = some info →
    siteNamed? live.cfg info.name = some site →
    env.certificates? site = some keys →
    port ∈ site.listenTls →
      resolver.resolve fits (some host) = SniResolver.choose fits keys

/-- What the resolvers hold after a reload does not depend on its loops. -/
def OrderFree
    (env : Externals Tls Other Cert)
    (live : Live Tls Other Cert)
    (new : List (SiteConfig Tls Other)) :
    Prop :=
  ∀ order other port first second,
    order.Fits live.currentConfig new →
    other.Fits live.currentConfig new →
    (env.applyDiff new order live).sniResolvers.get? port = some first →
    (env.applyDiff new other live).sniResolvers.get? port = some second →
      SameContents first second

/-- A reload changes the TLS settings of a site. -/
def ChangesTls
    (env : Externals Tls Other Cert)
    (old : List (SiteConfig Tls Other))
    (site : SiteConfig Tls Other) :
    Prop :=
  ∃ seen ∈ siteNamed? old site.name,
    env.siteChanged seen site = true ∧ env.tlsChanged seen site = true

/--
What a reload must meet.

A site that is not reported changed is the same.  A site with certificates that
is reported changed, but not in its TLS settings, keeps its certificates and its
names and listens on no other bound port.  No name of a site whose TLS settings
change goes to another site with certificates.  The TLS settings of at most one
site change; if none do, the fallback of a port does not depend on which of the
added sites comes first.
-/
structure MeetsReload
    (env : Externals Tls Other Cert)
    (live : Live Tls Other Cert)
    (new : List (SiteConfig Tls Other)) :
    Prop where
  unchanged :
    ∀ site ∈ new, ∀ seen ∈ siteNamed? live.currentConfig site.name,
      env.siteChanged seen site = false → seen = site
  sameTls :
    ∀ site ∈ new, ∀ seen ∈ siteNamed? live.currentConfig site.name,
      env.siteChanged seen site = true →
      env.tlsChanged seen site = false →
        env.certificates? seen = env.certificates? site ∧
          (env.certificates? site ≠ none →
            (∀ slot, slot ≠ .fallback →
              (seen.Claims env.lower slot ↔
                site.Claims env.lower slot)) ∧
            ∀ port ∈ site.listenTls,
              (live.sniResolvers.get? port).isSome = true →
                port ∈ seen.listenTls)
  keepsNames :
    ∀ port resolver,
      live.sniResolvers.get? port = some resolver →
        ∀ slot, slot ≠ .fallback →
          KeepsName env live.currentConfig new port slot
  oneChange :
    ∀ first ∈ new, ∀ second ∈ new,
      ChangesTls env live.currentConfig first →
      ChangesTls env live.currentConfig second →
        first = second
  oneFirst :
    (∀ site ∈ new, ¬ ChangesTls env live.currentConfig site) →
      ∀ port resolver,
        live.sniResolvers.get? port = some resolver →
          OneFirst env live.currentConfig new port resolver

/--
The registry and the resolvers serve the configuration in force: every name has
its owner in the registry, the names of a site have its certificates at the
ports it listens on, and every entry belongs to a site with these certificates.
-/
structure Served
    (env : Externals Tls Other Cert)
    (live : Live Tls Other Cert) :
    Prop where
  seen : live.currentConfig = live.cfg
  apart : NamesApart env.lower live.cfg
  routed :
    ∀ slot, slot ≠ .fallback →
      configAt slot live.registry = owner? env.lower live.cfg slot
  filled :
    ∀ port resolver,
      live.sniResolvers.get? port = some resolver → Filled resolver
  written :
    ∀ port resolver site slot keys,
      live.sniResolvers.get? port = some resolver →
      site ∈ live.cfg →
      slot ≠ .fallback →
      site.Claims env.lower slot →
      offered? env port site = some keys →
        resolver.readName slot = some keys
  owned :
    ∀ port resolver slot keys,
      live.sniResolvers.get? port = some resolver →
      resolver.readName slot = some keys →
        ∃ site ∈ live.cfg,
          site.Claims env.lower slot ∧
            env.certificates? site = some keys

/-! ## Routes and certificates -/

theorem routeByName_eq
    (host : String)
    (registry : VHostInner Tls Other) :
    routeByName host registry =
      (VHostInner.lookupSlots host).findSome? fun slot =>
        if slot = .fallback then none else registry.read slot := by
  rw [routeByName, VHostInner.lookupInner_eq]
  congr 1
  funext slot
  cases slot <;> rfl

/-- The places of a lookup are answered by the resolver as by the registry. -/
theorem Served.findSome?_readName
    (served : Served env live)
    {port : Nat}
    {resolver : SniResolver Cert}
    (bound : live.sniResolvers.get? port = some resolver)
    {slots : List Slot}
    {info : SiteInfo Tls Other}
    {keys : List Cert}
    (isRoute :
      (slots.findSome? fun slot =>
        if slot = .fallback then none else live.registry.read slot) =
          some info)
    (offers : offered? env port info.config = some keys) :
    (slots.findSome? fun slot => resolver.readName slot) = some keys := by
  induction slots with
  | nil =>
      cases isRoute
  | cons slot rest inductionHypothesis =>
      rw [List.findSome?_cons] at isRoute ⊢
      by_cases isName : slot = .fallback
      · subst isName
        exact inductionHypothesis isRoute
      · rw [if_neg isName] at isRoute
        have here := served.routed slot isName
        cases isRead : live.registry.read slot with
        | none =>
            rw [isRead] at isRoute
            have noEntry : resolver.readName slot = none := by
              cases isEntry : resolver.readName slot with
              | none =>
                  rfl
              | some others =>
                  obtain ⟨site, isSite, claims, _⟩ :=
                    served.owned port resolver slot others bound isEntry
                  rw [configAt, isRead,
                    (served.apart.owners slot isName).owner?_eq_some isSite
                      claims] at here
                  cases here
            rw [noEntry]
            exact inductionHypothesis isRoute
        | some found =>
            rw [isRead] at isRoute
            obtain rfl := Option.some.inj isRoute
            rw [configAt, isRead, Option.map_some] at here
            obtain ⟨isSite, claims⟩ := mem_of_owner? here.symm
            rw [served.written port resolver found.config slot keys bound
              isSite isName claims offers]

theorem Served.follows (served : Served env live) : Follows env live := by
  intro host port resolver info site keys fits bound isRoute isSite isKeys
    listens
  rw [routeByName_eq] at isRoute
  have isConfig : info.config = site := by
    obtain ⟨slot, _, isRead⟩ := List.exists_of_findSome?_eq_some isRoute
    by_cases isName : slot = .fallback
    · rw [if_pos isName] at isRead
      cases isRead
    · rw [if_neg isName] at isRead
      have here := served.routed slot isName
      rw [configAt, isRead, Option.map_some] at here
      obtain ⟨isConfig, _⟩ := mem_of_owner? here.symm
      obtain ⟨isLive, sameName⟩ := mem_of_siteNamed? isSite
      exact eq_of_sameName served.apart.names isConfig isLive sameName.symm
  have offers : offered? env port info.config = some keys := by
    rw [isConfig, offered?, if_pos listens, isKeys]
  rw [SniResolver.resolve, SniResolver.lookup_eq,
    served.findSome?_readName bound isRoute offers, Option.getD_some]

/-! ## Reloads -/

/-- A site that is not refreshed was there before. -/
theorem seen_of_not_refreshed
    {old : List (SiteConfig Tls Other)}
    {site : SiteConfig Tls Other}
    (isNamed : siteNamed? new site.name = some site)
    (notRefreshed : ¬ Refreshed env old new site) :
    ∃ seen,
      siteNamed? old site.name = some seen ∧
        ¬ (env.siteChanged seen site = true ∧
          env.tlsChanged seen site = true) := by
  by_contra none
  apply notRefreshed
  refine ⟨isNamed, ?_⟩
  intro seen isSeen
  by_contra unchanged
  exact none ⟨seen, isSeen, unchanged⟩

/-- A site whose certificates stay as they are was offered before as well. -/
theorem MeetsReload.offered_before
    (meets : MeetsReload env live new)
    {site seen : SiteConfig Tls Other}
    (isNew : site ∈ new)
    (isSeen : siteNamed? live.currentConfig site.name = some seen)
    (unchanged :
      ¬ (env.siteChanged seen site = true ∧
        env.tlsChanged seen site = true))
    {port : Nat}
    {resolver : SniResolver Cert}
    (bound : live.sniResolvers.get? port = some resolver)
    {keys : List Cert}
    (offers : offered? env port site = some keys)
    {slot : Slot}
    (isName : slot ≠ .fallback) :
    (site.Claims env.lower slot → seen.Claims env.lower slot) ∧
      offered? env port seen = some keys := by
  by_cases siteChanged : env.siteChanged seen site = true
  · have tlsSame : env.tlsChanged seen site = false := by
      simpa using fun changed => unchanged ⟨siteChanged, changed⟩
    obtain ⟨sameKeys, ifKeys⟩ :=
      meets.sameTls site isNew seen isSeen siteChanged tlsSame
    rw [offered?] at offers
    split at offers
    · next listens =>
        obtain ⟨sameNames, noOtherPort⟩ := ifKeys (by simp [offers])
        have listened :=
          noOtherPort port listens (Option.isSome_of_eq_some bound)
        refine ⟨(sameNames slot isName).mpr, ?_⟩
        rw [offered?, if_pos listened, sameKeys, offers]
    · cases offers
  · obtain rfl :=
      meets.unchanged site isNew seen isSeen (by simpa using siteChanged)
    exact ⟨id, offers⟩

/-- A name that is refreshed by nobody and whose owner stays is not touched. -/
theorem Served.undropped
    (served : Served env live)
    {seen : SiteConfig Tls Other}
    (isSeen : siteNamed? live.currentConfig seen.name = some seen)
    (notDropped : ¬ Dropped env live.currentConfig new seen)
    {slot : Slot}
    (isName : slot ≠ .fallback)
    (claims : seen.Claims env.lower slot)
    {dropped : SiteConfig Tls Other}
    (isDropped : Dropped env live.currentConfig new dropped) :
    ¬ dropped.Claims env.lower slot := by
  intro droppedClaims
  have isSite := (mem_of_siteNamed? isSeen).1
  have isOther := (mem_of_siteNamed? isDropped.1).1
  rw [served.seen] at isSite isOther
  have same :=
    served.apart.owners slot isName dropped isOther seen isSite
      droppedClaims claims
  exact notDropped (same ▸ isDropped)

/-- A site that is not dropped is there afterwards. -/
theorem next_of_not_dropped
    {old : List (SiteConfig Tls Other)}
    {site : SiteConfig Tls Other}
    (isNamed : siteNamed? old site.name = some site)
    (notDropped : ¬ Dropped env old new site) :
    ∃ next,
      siteNamed? new site.name = some next ∧
        ¬ (env.siteChanged site next = true ∧
          env.tlsChanged site next = true) := by
  by_contra none
  apply notDropped
  refine ⟨isNamed, ?_⟩
  intro next isNext
  by_contra unchanged
  exact none ⟨next, isNext, unchanged⟩

/-- Certificates that stay as they are belong to the site afterwards as well. -/
theorem MeetsReload.owned_after
    (meets : MeetsReload env live new)
    {site seen : SiteConfig Tls Other}
    (isNew : site ∈ new)
    (isSeen : siteNamed? live.currentConfig site.name = some seen)
    (unchanged :
      ¬ (env.siteChanged seen site = true ∧
        env.tlsChanged seen site = true))
    {keys : List Cert}
    (isKeys : env.certificates? seen = some keys)
    {slot : Slot}
    (isName : slot ≠ .fallback)
    (claims : seen.Claims env.lower slot) :
    site.Claims env.lower slot ∧ env.certificates? site = some keys := by
  by_cases siteChanged : env.siteChanged seen site = true
  · have tlsSame : env.tlsChanged seen site = false := by
      simpa using fun changed => unchanged ⟨siteChanged, changed⟩
    obtain ⟨sameKeys, ifKeys⟩ :=
      meets.sameTls site isNew seen isSeen siteChanged tlsSame
    rw [isKeys] at sameKeys
    obtain ⟨sameNames, _⟩ := ifKeys (by simp [← sameKeys])
    exact ⟨(sameNames slot isName).mp claims, sameKeys.symm⟩
  · obtain rfl :=
      meets.unchanged site isNew seen isSeen (by simpa using siteChanged)
    exact ⟨claims, isKeys⟩

section HotReload

variable
  {port : Nat}
  {resolver : SniResolver Cert}
  {site : SiteConfig Tls Other}
  {slot : Slot}
  {keys : List Cert}

/-- After a reload a name of a site has the certificates of the site. -/
theorem Served.written_hotReload
    (served : Served env live)
    (apart : NamesApart env.lower new)
    (fits : order.Fits live.currentConfig new)
    (meets : MeetsReload env live new)
    (bound : live.sniResolvers.get? port = some resolver)
    (isSite : site ∈ new)
    (isName : slot ≠ .fallback)
    (claims : site.Claims env.lower slot)
    (offers : offered? env port site = some keys) :
    ((env.diff live.currentConfig new order).foldl (editAt env port)
      resolver).readName slot = some keys := by
  have isNamed := siteNamed?_eq_some apart.names isSite
  by_cases refreshed : Refreshed env live.currentConfig new site
  · exact readName_of_refreshed fits isName (apart.owners slot isName)
      (meets.keepsNames port resolver bound slot isName) refreshed claims offers
  · obtain ⟨seen, isSeen, unchanged⟩ :=
      seen_of_not_refreshed isNamed refreshed
    obtain ⟨claimed, offered⟩ :=
      meets.offered_before isSite isSeen unchanged bound offers isName
    obtain ⟨isOld, sameName⟩ := mem_of_siteNamed? isSeen
    rw [readName_of_untouched fits isName]
    · rw [served.seen] at isOld
      exact served.written port resolver seen slot keys bound isOld isName
        (claimed claims) offered
    · intro other otherRefreshed otherClaims
      have isOther := (mem_of_siteNamed? otherRefreshed.1).1
      obtain rfl :=
        apart.owners slot isName other isOther site isSite otherClaims claims
      exact absurd otherRefreshed refreshed
    · intro dropped isDropped
      have isSeenNamed :
          siteNamed? live.currentConfig seen.name = some seen := by
        rw [sameName]
        exact isSeen
      refine served.undropped isSeenNamed ?_ isName (claimed claims) isDropped
      intro seenDropped
      refine unchanged (seenDropped.2 site ?_)
      rw [sameName]
      exact isNamed

/-- After a reload an entry belongs to a site with its certificates. -/
theorem Served.owned_hotReload
    (served : Served env live)
    (apart : NamesApart env.lower new)
    (fits : order.Fits live.currentConfig new)
    (meets : MeetsReload env live new)
    (bound : live.sniResolvers.get? port = some resolver)
    (isRead :
      ((env.diff live.currentConfig new order).foldl (editAt env port)
        resolver).readName slot = some keys) :
    ∃ site ∈ new,
      site.Claims env.lower slot ∧ env.certificates? site = some keys := by
  have isName : slot ≠ .fallback := by
    rintro rfl
    cases isRead
  by_cases written :
      ∃ site others,
        Refreshed env live.currentConfig new site ∧
          site.Claims env.lower slot ∧
          offered? env port site = some others
  · obtain ⟨site, others, refreshed, claims, offers⟩ := written
    rw [readName_of_refreshed fits isName (apart.owners slot isName)
      (meets.keepsNames port resolver bound slot isName) refreshed claims
      offers] at isRead
    obtain rfl := Option.some.inj isRead
    refine ⟨site, (mem_of_siteNamed? refreshed.1).1, claims, ?_⟩
    rw [offered?] at offers
    split at offers
    · exact offers
    · cases offers
  · have unwritten :
        ∀ site,
          Refreshed env live.currentConfig new site →
          site.Claims env.lower slot →
            offered? env port site = none := by
      intro site refreshed claims
      by_contra offers
      obtain ⟨others, isOthers⟩ := Option.ne_none_iff_exists'.mp offers
      exact written ⟨site, others, refreshed, claims, isOthers⟩
    by_cases erased :
        ∃ site,
          Dropped env live.currentConfig new site ∧
            site.Claims env.lower slot
    · obtain ⟨site, dropped, claims⟩ := erased
      rw [readName_of_dropped fits isName unwritten dropped claims] at isRead
      cases isRead
    · rw [readName_of_untouched fits isName unwritten
        fun site dropped claims => erased ⟨site, dropped, claims⟩] at isRead
      obtain ⟨site, isSite, claims, isKeys⟩ :=
        served.owned port resolver slot keys bound isRead
      have isNamed :
          siteNamed? live.currentConfig site.name = some site := by
        rw [served.seen]
        exact siteNamed?_eq_some served.apart.names isSite
      obtain ⟨next, isNext, unchanged⟩ :=
        next_of_not_dropped isNamed
          fun dropped => erased ⟨site, dropped, claims⟩
      obtain ⟨isNew, sameName⟩ := mem_of_siteNamed? isNext
      have isSeen :
          siteNamed? live.currentConfig next.name = some site := by
        rw [sameName]
        exact isNamed
      exact ⟨next, isNew,
        meets.owned_after isNew isSeen unchanged isKeys isName claims⟩

end HotReload

/-- A reload that keeps to its conditions is served again. -/
theorem Served.hotReload
    (served : Served env live)
    (hashOrder : HashOrder env.first)
    (apart : NamesApart env.lower new)
    (fits : order.Fits live.currentConfig new)
    (meets : MeetsReload env live new) :
    Served env
      { env.applyDiff new order live with currentConfig := new } where
  seen := Externals.cfg_applyDiff.symm
  apart := by
    rw [Externals.cfg_applyDiff]
    exact apart
  routed := by
    intro slot isName
    rw [Externals.cfg_applyDiff]
    apply configAt_hotReload (served.routed slot isName)
      served.apart.names (served.apart.owners slot isName) apart.names
      (apart.owners slot isName) fits
    · intro site isLive _
      rw [served.seen]
      exact mem_siteNames_of_mem isLive
    · intro site isNew seen isSeen unchanged
      obtain rfl := meets.unchanged site isNew seen isSeen unchanged
      rw [← served.seen]
      exact (mem_of_siteNamed? isSeen).1
    · exact fun isFallback => absurd isFallback isName
  filled := by
    intro port resolver bound
    rw [get?_applyDiff] at bound
    obtain ⟨before, wasBound, rfl⟩ := Option.map_eq_some_iff.mp bound
    exact (served.filled port before wasBound).foldl_editAt hashOrder _
  written := by
    intro port resolver site slot keys bound isSite isName claims offers
    rw [get?_applyDiff] at bound
    obtain ⟨before, wasBound, rfl⟩ := Option.map_eq_some_iff.mp bound
    rw [Externals.cfg_applyDiff] at isSite
    exact served.written_hotReload apart fits meets wasBound isSite isName
      claims offers
  owned := by
    intro port resolver slot keys bound isRead
    rw [get?_applyDiff] at bound
    obtain ⟨before, wasBound, rfl⟩ := Option.map_eq_some_iff.mp bound
    rw [Externals.cfg_applyDiff]
    exact served.owned_hotReload apart fits meets wasBound isRead

/-- A reload does not depend on the order of its loops. -/
theorem Served.orderFree
    (served : Served env live)
    (hashOrder : HashOrder env.first)
    (apart : NamesApart env.lower new)
    (meets : MeetsReload env live new) :
    OrderFree env live new := by
  intro order other port first second fits otherFits isFirst isSecond
  rw [get?_applyDiff] at isFirst isSecond
  obtain ⟨before, wasBound, rfl⟩ := Option.map_eq_some_iff.mp isFirst
  rw [wasBound] at isSecond
  obtain rfl := Option.some.inj isSecond
  have changes_of_mem :
      ∀ {sites : SiteConfig Tls Other × SiteConfig Tls Other},
        sites ∈ tlsChanges env live.currentConfig new order →
          sites.2 ∈ new ∧
            siteNamed? live.currentConfig sites.2.name = some sites.1 ∧
            ChangesTls env live.currentConfig sites.2 := by
    rintro ⟨seen, site⟩ member
    obtain ⟨isChanged, tlsChanged⟩ := List.mem_filter.mp member
    obtain ⟨isSeen, isNew, siteChanged⟩ :=
      (Externals.mem_changedSites_iff fits).mp isChanged
    exact ⟨(mem_of_siteNamed? isNew).1, isSeen,
      ⟨seen, isSeen, siteChanged, tlsChanged⟩⟩
  apply sameContents_of_fits hashOrder fits otherFits apart.owners
    (meets.keepsNames port before wasBound)
  · intro left isLeft right isRight
    obtain ⟨leftNew, leftSeen, leftChanges⟩ := changes_of_mem isLeft
    obtain ⟨rightNew, rightSeen, rightChanges⟩ := changes_of_mem isRight
    have same :=
      meets.oneChange left.2 leftNew right.2 rightNew leftChanges
        rightChanges
    rw [same, rightSeen] at leftSeen
    exact Prod.ext (Option.some.inj leftSeen).symm same
  · intro noChange
    refine meets.oneFirst ?_ port before wasBound
    rintro site isNew ⟨seen, isSeen, siteChanged, tlsChanged⟩
    have isNamed := siteNamed?_eq_some apart.names isNew
    have isChanged :=
      (Externals.mem_changedSites_iff fits).mpr
        ⟨isSeen, isNamed, siteChanged⟩
    have member :
        (seen, site) ∈ tlsChanges env live.currentConfig new order :=
      List.mem_filter.mpr ⟨isChanged, tlsChanged⟩
    rw [noChange] at member
    cases member
  · exact served.filled port before wasBound

/-! ## Startup -/

/-- A site as if it listened on one port. -/
def onlyAt (port : Nat) (site : SiteConfig Tls Other) :
    SiteConfig Tls Other :=
  { site with listenTls := [port] }

theorem offered?_onlyAt {port : Nat} {site : SiteConfig Tls Other} :
    offered? env port (onlyAt port site) = env.certificates? site :=
  if_pos List.mem_cons_self

/-- At the start the sites of a port are added one after the other. -/
theorem eq_of_buildSniServerConfig
    (port : Nat)
    {resolver : SniResolver Cert}
    (isResolver : env.buildSniServerConfig sites = some resolver) :
    resolver =
      ((sites.map (onlyAt port)).map Edit.add).foldl (editAt env port)
        .empty := by
  rw [Externals.buildSniServerConfig] at isResolver
  split at isResolver
  · cases isResolver
  · obtain rfl := Option.some.inj isResolver
    rw [SniResolver.new, List.foldl_filterMap, List.map_map,
      List.foldl_map]
    congr 1
    funext resolver site
    have same :
        env.certificates? (onlyAt port site) = env.certificates? site :=
      rfl
    change _ = upsertAt env port (onlyAt port site) resolver
    rw [upsertAt, same]
    cases env.certificates? site with
    | none =>
        rfl
    | some keys =>
        simp [onlyAt]

/-- A resolver of the start was built for its port. -/
theorem buildSniServerConfig_of_startupResolvers
    {port : Nat}
    {resolver : SniResolver Cert}
    (bound : (env.startupResolvers sites).get? port = some resolver) :
    env.buildSniServerConfig (Externals.sitesOfPort sites port) =
      some resolver := by
  revert bound
  unfold Externals.startupResolvers
  refine
    List.foldlRecOn
      (motive := fun resolvers : Table Nat (SniResolver Cert) =>
        ∀ port resolver,
          resolvers.get? port = some resolver →
          env.buildSniServerConfig (Externals.sitesOfPort sites port) =
            some resolver)
      _ _ ?_ ?_ port resolver
  · intro port resolver isBound
    rw [Table.get?_empty] at isBound
    cases isBound
  · intro resolvers already first _ port resolver isBound
    cases isFirst : env.buildSniServerConfig
        (Externals.sitesOfPort sites first) with
    | none =>
        simp only [isFirst] at isBound
        exact already port resolver isBound
    | some found =>
        simp only [isFirst, Table.get?_insert] at isBound
        split at isBound
        · next isPort =>
            rw [isPort, isFirst, isBound]
        · exact already port resolver isBound

theorem mem_sitesOfPort_iff
    {port : Nat}
    {site : SiteConfig Tls Other} :
    site ∈ Externals.sitesOfPort sites port ↔
      site ∈ sites ∧ site.tls.isSome = true ∧ port ∈ site.listenTls := by
  rw [Externals.sitesOfPort, List.mem_flatMap]
  constructor
  · rintro ⟨listed, isListed, member⟩
    obtain ⟨inSites, hasTls⟩ := List.mem_filter.mp isListed
    obtain ⟨other, isOther, rfl⟩ := List.mem_map.mp member
    obtain ⟨listens, isPort⟩ := List.mem_filter.mp isOther
    exact ⟨inSites, hasTls, beq_iff_eq.mp isPort ▸ listens⟩
  · rintro ⟨inSites, hasTls, listens⟩
    refine ⟨site, List.mem_filter.mpr ⟨inSites, hasTls⟩, ?_⟩
    exact List.mem_map.mpr
      ⟨port, List.mem_filter.mpr ⟨listens, beq_self_eq_true port⟩, rfl⟩

theorem isSome_tls_of_certificates?
    {site : SiteConfig Tls Other}
    {keys : List Cert}
    (isKeys : env.certificates? site = some keys) :
    site.tls.isSome = true := by
  obtain ⟨isMapped, _⟩ := Option.filter_eq_some_iff.mp isKeys
  obtain ⟨tls, isTls, _⟩ := Option.map_eq_some_iff.mp isMapped
  exact Option.isSome_of_eq_some isTls

/-- At the start the names of a site have its certificates. -/
theorem readName_startup
    (apart : NamesApart env.lower sites)
    {port : Nat}
    {resolver : SniResolver Cert}
    (bound : (env.startupResolvers sites).get? port = some resolver)
    {slot : Slot}
    (isName : slot ≠ .fallback)
    {site : SiteConfig Tls Other}
    (isSite : site ∈ sites)
    (claims : site.Claims env.lower slot)
    {keys : List Cert}
    (offers : offered? env port site = some keys) :
    resolver.readName slot = some keys := by
  rw [eq_of_buildSniServerConfig port
    (buildSniServerConfig_of_startupResolvers bound),
    readName_foldl_editAt isName]
  rw [offered?] at offers
  split at offers
  · next listens =>
      have hasTls := isSome_tls_of_certificates? offers
      have isListed : site ∈ Externals.sitesOfPort sites port :=
        mem_sitesOfPort_iff.mpr ⟨isSite, hasTls, listens⟩
      have writes :
          (touchAt env port slot (.add (onlyAt port site))).writes =
            some keys := by
        change (if site.Claims env.lower slot then _ else none) = _
        rw [if_pos claims, offered?_onlyAt, offers]
      apply Touch.foldl_of_written
      · refine ⟨touchAt env port slot (.add (onlyAt port site)), ?_,
          writes⟩
        exact List.mem_map_of_mem
          (List.mem_map_of_mem (List.mem_map_of_mem isListed))
      · intro touch isTouch
        simp only [List.map_map, List.mem_map] at isTouch
        obtain ⟨other, isOther, rfl⟩ := isTouch
        by_cases otherClaims : other.Claims env.lower slot
        · have inSites := (mem_sitesOfPort_iff.mp isOther).1
          obtain rfl :=
            apart.owners slot isName other inSites site isSite otherClaims
              claims
          exact .inr writes
        · left
          refine ⟨rfl, ?_⟩
          change (if other.Claims env.lower slot then _ else none) = _
          rw [if_neg otherClaims]
  · cases offers

theorem served_startup
    (hashOrder : HashOrder env.first)
    (apart : NamesApart env.lower sites) :
    Served env (env.startup sites) where
  seen := rfl
  apart := apart
  routed := by
    intro slot isName
    exact (configAt_startupRegistry env apart.names slot).trans
      (configAt_fromConfig apart.names (apart.owners slot isName))
  filled := by
    intro port resolver bound
    rw [eq_of_buildSniServerConfig port
      (buildSniServerConfig_of_startupResolvers bound)]
    have filledEmpty : Filled (SniResolver.empty : SniResolver Cert) := by
      constructor <;>
        · intro slot keys isRead
          rw [SniResolver.readName_empty] at isRead
          cases isRead
    exact filledEmpty.foldl_editAt hashOrder _
  written := by
    intro port resolver site slot keys bound isSite isName claims offers
    exact readName_startup apart bound isName isSite claims offers
  owned := by
    intro port resolver slot keys bound isRead
    have isName : slot ≠ .fallback := by
      rintro rfl
      cases isRead
    by_cases written :
        ∃ site ∈ Externals.sitesOfPort sites port,
          ∃ others,
            site.Claims env.lower slot ∧
              env.certificates? site = some others
    · obtain ⟨site, isListed, others, claims, isOthers⟩ := written
      obtain ⟨isSite, _, listens⟩ := mem_sitesOfPort_iff.mp isListed
      have offers : offered? env port site = some others := by
        rw [offered?, if_pos listens, isOthers]
      rw [readName_startup apart bound isName isSite claims offers]
        at isRead
      obtain rfl := Option.some.inj isRead
      exact ⟨site, isSite, claims, isOthers⟩
    · rw [eq_of_buildSniServerConfig port
        (buildSniServerConfig_of_startupResolvers bound),
        readName_foldl_editAt isName, Touch.foldl_of_erased ?_
          (.inl SniResolver.readName_empty)] at isRead
      · cases isRead
      · intro touch isTouch
        simp only [List.map_map, List.mem_map] at isTouch
        obtain ⟨site, isListed, rfl⟩ := isTouch
        change (if site.Claims env.lower slot then _ else none) = none
        split
        · next claims =>
            rw [offered?_onlyAt]
            by_contra isKeys
            obtain ⟨others, isOthers⟩ :=
              Option.ne_none_iff_exists'.mp isKeys
            exact written ⟨site, isListed, others, claims, isOthers⟩
        · rfl

/-! ## Runs -/

/-- The value of the least key. -/
def leastFirst (table : Table String (List String)) :
    Option (List String) :=
  (table.keys.toFinset.sort (fun left right => left ≤ right)).head?.bind
    fun key => table.get? key

theorem hashOrder_leastFirst : HashOrder leastFirst where
  congr := by
    intro table same sameEntries
    have sameKeys : table.keys.toFinset = same.keys.toFinset := by
      ext key
      rw [List.mem_toFinset, List.mem_toFinset, ← AList.mem_keys,
        ← AList.mem_keys, ← AList.lookup_isSome, ← AList.lookup_isSome]
      exact iff_of_eq (congrArg (fun entry => entry.isSome = true)
        (sameEntries key))
    rw [leastFirst, leastFirst, sameKeys]
    congr 1
    funext key
    exact sameEntries key
  value := by
    intro table keys isFirst
    obtain ⟨key, _, isKeys⟩ := Option.bind_eq_some_iff.mp isFirst
    exact ⟨key, isKeys⟩
  empty := by
    intro table isNone key
    by_contra isEntry
    obtain ⟨keys, isKeys⟩ := Option.ne_none_iff_exists'.mp isEntry
    cases isHead :
        (table.keys.toFinset.sort (fun left right => left ≤ right)).head?
        with
    | none =>
        have noKeys := List.head?_eq_none_iff.mp isHead
        have isKey : key ∈ table.keys := by
          rw [← AList.mem_keys, ← AList.lookup_isSome]
          exact Option.isSome_of_eq_some isKeys
        have sorted :
            key ∈ table.keys.toFinset.sort fun left right => left ≤ right := by
          rw [Finset.mem_sort, List.mem_toFinset]
          exact isKey
        rw [noKeys] at sorted
        cases sorted
    | some least =>
        rw [leastFirst, isHead] at isNone
        have isLeast := List.mem_of_head? isHead
        rw [Finset.mem_sort, List.mem_toFinset, ← AList.mem_keys,
          ← AList.lookup_isSome] at isLeast
        have noLeast : table.get? least = none := isNone
        rw [Table.get?] at noLeast
        rw [noLeast] at isLeast
        cases isLeast

/-- A site at the port 443, with a certificate that is called like it. -/
def secureSite (name : String) (serverName : List String) :
    SiteConfig String Unit where
  name := name
  serverName := serverName
  listenTls := [443]
  fallback := false
  tls := some name
  accessLog := none
  accessLogFormat := none
  proxyCache := none
  fastcgiCache := none
  other := ()

/-- Sites that differ in their names at most. -/
def secureExternals : Externals String Unit String where
  lower := asciiLower
  siteToml := fun site =>
    some (String.intercalate "\n" (site.name :: site.serverName))
  tlsToml := id
  certifiedKeys := fun tls _ => [tls]
  opensLog := fun _ => false
  first := leastFirst

theorem namesApart_of_valid
    {lower : String → String}
    (valid : Valid lower sites) :
    NamesApart lower sites :=
  ⟨valid.names, fun slot _ => valid.oneOwner slot⟩

/-- A reload that only adds one site meets the condition. -/
theorem meetsReload_of_one_added
    {added : SiteConfig Tls Other}
    (same :
      ∀ site ∈ new, ∀ seen ∈ siteNamed? live.currentConfig site.name,
        env.siteChanged seen site = false ∧ seen = site)
    (one :
      ∀ site ∈ new,
        site.name ∉ siteNames live.currentConfig → site = added) :
    MeetsReload env live new where
  unchanged := fun site isNew seen isSeen _ =>
    (same site isNew seen isSeen).2
  sameTls := by
    intro site isNew seen isSeen changed
    rw [(same site isNew seen isSeen).1] at changed
    cases changed
  keepsNames := by
    intro port resolver _ slot _ site isNew seen isSeen changed
    rw [(same site isNew seen isSeen).1] at changed
    cases changed
  oneChange := by
    rintro first isFirst second _ ⟨seen, isSeen, changed, _⟩
    rw [(same first isFirst seen isSeen).1] at changed
    cases changed
  oneFirst := by
    intro _ port resolver _
    right
    intro first isFirst second isSecond freshFirst freshSecond _ _
    rw [one first isFirst freshFirst, one second isSecond freshSecond]

end Sweety.CertificateSelection
