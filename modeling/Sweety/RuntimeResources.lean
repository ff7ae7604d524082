import Sweety.HotReload
import Sweety.StepRun

namespace Sweety.RuntimeResources

open StepRun

/-!
# Logs and caches of the sites

At the start the access log and the caches of a site are opened and injected
into its entries of the registry.  A reload that stores a site again builds its
entries afresh, without them.
-/

variable
  {Tls Other Cert : Type}
  {lower : String → String}
  {registry : VHostInner Tls Other}
  {slot : Slot}
  {info : SiteInfo Tls Other}
  {siteName : String}

/-! ## Kinds of resources -/

/-- The resources that a site can have. -/
inductive Resource where
  | accessLog
  | proxyCache
  | fastcgiCache
  deriving Repr, DecidableEq

/-- The settings of a site ask for a resource. -/
def Enables (site : SiteConfig Tls Other) : Resource → Prop
  | .accessLog =>
      site.accessLog.isSome = true
  | .proxyCache =>
      site.proxyCache.isSome = true
  | .fastcgiCache =>
      site.fastcgiCache.isSome = true

/-- A resource is there. -/
def Has (resources : SiteResources) : Resource → Prop
  | .accessLog =>
      resources.accessLogger.isSome = true
  | .proxyCache =>
      resources.proxyCacheArc.isSome = true
  | .fastcgiCache =>
      resources.fcgiCacheArc.isSome = true

/-- Every site that a lookup finds has the resources that it asks for. -/
def Carried (live : Live Tls Other Cert) : Prop :=
  ∀ host info site resource,
    live.registry.lookup host = some info →
    siteNamed? live.cfg info.name = some site →
    Enables site resource →
      Has info.resources resource

/-! ## Entries after an injection -/

/-- An entry after an injection, and the entry that it was before. -/
theorem exists_of_read_inject
    {resources : SiteResources}
    (isRead :
      (registry.injectSiteResources siteName resources).read slot =
        some info) :
    ∃ before,
      registry.read slot = some before ∧
        before.name = info.name ∧
        (info.name ≠ siteName → before = info) ∧
        (info.name = siteName →
          siteName ∈ registry.allSites →
            info.resources = resources) := by
  rw [VHostInner.read_injectSiteResources] at isRead
  cases isFound : registry.injectable? siteName with
  | none =>
      rw [isFound] at isRead
      refine ⟨info, isRead, rfl, fun _ => rfl, ?_⟩
      intro _ listed
      obtain ⟨key, other, otherRead, otherName⟩ :=
        VHostInner.mem_allSites_iff.mp listed
      exact absurd otherName
        (VHostInner.injectable?_eq_none_iff.mp isFound key other otherRead)
  | some found =>
      rw [isFound] at isRead
      obtain ⟨before, wasRead, rfl⟩ := Option.map_eq_some_iff.mp isRead
      obtain ⟨foundName, _⟩ := VHostInner.injectable?_eq_some isFound
      refine ⟨before, wasRead, ?_, ?_, ?_⟩
      · rw [VHostInner.withResources]
        split
        · next sameName =>
            exact sameName.trans foundName.symm
        · rfl
      · rw [VHostInner.withResources]
        split
        · intro otherName
          exact absurd foundName otherName
        · exact fun _ => rfl
      · rw [VHostInner.withResources]
        split
        · exact fun _ _ => rfl
        · next otherName =>
            exact fun sameName => absurd sameName otherName

/-- An injection keeps the names at all places. -/
theorem exists_read_inject
    {resources : SiteResources}
    (wasRead : registry.read slot = some info) :
    ∃ after,
      (registry.injectSiteResources siteName resources).read slot =
          some after ∧
        after.name = info.name := by
  rw [VHostInner.read_injectSiteResources]
  cases isFound : registry.injectable? siteName with
  | none =>
      exact ⟨info, wasRead, rfl⟩
  | some found =>
      obtain ⟨foundName, _⟩ := VHostInner.injectable?_eq_some isFound
      refine ⟨_, by rw [wasRead]; rfl, ?_⟩
      rw [VHostInner.withResources]
      split
      · next sameName =>
          exact foundName.trans sameName.symm
      · rfl

theorem mem_allSites_inject
    {resources : SiteResources}
    {name : String}
    (listed : name ∈ registry.allSites) :
    name ∈
      (registry.injectSiteResources siteName resources).allSites := by
  obtain ⟨key, info, isRead, rfl⟩ := VHostInner.mem_allSites_iff.mp listed
  obtain ⟨after, isAfter, sameName⟩ := exists_read_inject isRead
  exact VHostInner.mem_allSites_iff.mpr ⟨key, after, isAfter, sameName⟩

/-! ## Startup -/

section Startup

variable
  {env : Externals Tls Other Cert}
  {sites injected : List (SiteConfig Tls Other)}
  {site : SiteConfig Tls Other}

variable (env) in
/-- The loop that injects the resources at the start. -/
def injectAll
    (injected : List (SiteConfig Tls Other))
    (registry : VHostInner Tls Other) :
    VHostInner Tls Other :=
  injected.foldl
    (fun registry site =>
      registry.injectSiteResources site.name (env.startupResources site))
    registry

theorem injectAll_append_singleton :
    injectAll env (injected ++ [site]) registry =
      (injectAll env injected registry).injectSiteResources site.name
        (env.startupResources site) := by
  rw [injectAll, List.foldl_append]
  rfl

/-- The last site of a name is the one that counts. -/
theorem siteNamed?_append_singleton :
    siteNamed? (sites ++ [site]) siteName =
      if site.name = siteName then
        some site
      else
        siteNamed? sites siteName := by
  rw [siteNamed?, List.reverse_append]
  by_cases sameName : site.name = siteName
  · simp [sameName]
  · simp [sameName, siteNamed?]

theorem mem_allSites_injectAll
    (listed : siteName ∈ registry.allSites) :
    siteName ∈ (injectAll env injected registry).allSites := by
  induction injected using List.reverseRecOn with
  | nil =>
      exact listed
  | append_singleton rest site inductionHypothesis =>
      rw [injectAll_append_singleton]
      exact mem_allSites_inject inductionHypothesis

/-- The entries of a listed site have the resources of the last site. -/
theorem resources_injectAll
    (listed : info.name ∈ registry.allSites)
    (isRead :
      (injectAll env injected registry).read slot = some info)
    (isSite : siteNamed? injected info.name = some site) :
    info.resources = env.startupResources site := by
  induction injected using List.reverseRecOn generalizing info with
  | nil =>
      cases isSite
  | append_singleton rest last inductionHypothesis =>
      rw [injectAll_append_singleton] at isRead
      rw [siteNamed?_append_singleton] at isSite
      obtain ⟨before, wasRead, sameName, unchanged, injected⟩ :=
        exists_of_read_inject isRead
      by_cases isLast : last.name = info.name
      · rw [if_pos isLast] at isSite
        obtain rfl := Option.some.inj isSite
        apply injected isLast.symm
        rw [isLast]
        exact mem_allSites_injectAll listed
      · rw [if_neg isLast] at isSite
        obtain rfl := unchanged (Ne.symm isLast)
        exact inductionHypothesis listed wasRead isSite

/-- Injections keep the name at a place. -/
theorem exists_of_read_injectAll
    (isRead :
      (injectAll env injected registry).read slot = some info) :
    ∃ before,
      registry.read slot = some before ∧ before.name = info.name := by
  induction injected using List.reverseRecOn generalizing info with
  | nil =>
      exact ⟨info, isRead, rfl⟩
  | append_singleton rest last inductionHypothesis =>
      rw [injectAll_append_singleton] at isRead
      obtain ⟨middle, middleRead, sameName, _⟩ :=
        exists_of_read_inject isRead
      obtain ⟨before, wasRead, beforeName⟩ :=
        inductionHypothesis middleRead
      exact ⟨before, wasRead, beforeName.trans sameName⟩

/--
What the start must meet: a site that asks for a resource is listed, which it is
by its exact names only, and its access log can be opened.
-/
def MeetsAtStart
    (env : Externals Tls Other Cert)
    (sites : List (SiteConfig Tls Other)) :
    Prop :=
  ∀ site resource,
    siteNamed? sites site.name = some site →
    Enables site resource →
      site.name ∈ (VHostInner.fromConfig env.lower sites).allSites ∧
        ∀ path, site.accessLog = some path → env.opensLog path = true

/-- What a site asks for is made, if its log can be opened. -/
theorem has_startupResources
    {resource : Resource}
    (enables : Enables site resource)
    (opens :
      ∀ path, site.accessLog = some path → env.opensLog path = true) :
    Has (env.startupResources site) resource := by
  cases resource with
  | accessLog =>
      obtain ⟨path, isPath⟩ := Option.isSome_iff_exists.mp enables
      simp [Has, Externals.startupResources, isPath, opens path isPath,
        Option.filter_some]
  | proxyCache =>
      exact enables
  | fastcgiCache =>
      exact enables

end Startup

/-! ## Runs -/

section Runs

variable
  {env : Externals Tls Other Cert}
  {live : Live Tls Other Cert}
  {new : List (SiteConfig Tls Other)}
  {order : DiffOrder}

/--
Every entry belongs to a site of the configuration in force and has the
resources that this site asks for.
-/
structure Equipped (live : Live Tls Other Cert) : Prop where
  seen : live.currentConfig = live.cfg
  known :
    ∀ slot info,
      live.registry.read slot = some info →
        info.name ∈ siteNames live.cfg
  carries :
    ∀ slot info site resource,
      live.registry.read slot = some info →
      siteNamed? live.cfg info.name = some site →
      Enables site resource →
        Has info.resources resource

theorem Equipped.carried (equipped : Equipped live) : Carried live := by
  intro host info site resource found isSite enables
  obtain ⟨slot, isRead⟩ := VHostInner.exists_read_of_lookup found
  exact equipped.carries slot info site resource isRead isSite enables

theorem equipped_startup
    {sites : List (SiteConfig Tls Other)}
    (meets : MeetsAtStart env sites) :
    Equipped (env.startup sites) where
  seen := rfl
  known := by
    intro slot info isRead
    obtain ⟨before, wasRead, sameName⟩ := exists_of_read_injectAll isRead
    rcases VHostInner.cases_of_read_upsertAll wasRead with
      ⟨site, isSite, rfl⟩ | wasEmpty
    · rw [← sameName]
      exact mem_siteNames_of_mem isSite
    · rw [VHostInner.read_empty] at wasEmpty
      cases wasEmpty
  carries := by
    intro slot info site resource isRead isSite enables
    obtain ⟨_, sameName⟩ := mem_of_siteNamed? isSite
    have isLast : siteNamed? sites site.name = some site := by
      rw [sameName]
      exact isSite
    obtain ⟨listed, opens⟩ := meets site resource isLast enables
    rw [sameName] at listed
    have resources := resources_injectAll listed isRead isSite
    rw [resources]
    exact has_startupResources enables opens

/--
What a reload must meet: every site that asks for a resource is as it was seen
last and has asked for the resource before.
-/
def MeetsReload
    (env : Externals Tls Other Cert)
    (live : Live Tls Other Cert)
    (new : List (SiteConfig Tls Other)) :
    Prop :=
  ∀ site resource,
    siteNamed? new site.name = some site →
    Enables site resource →
      ∃ seen,
        siteNamed? live.currentConfig site.name = some seen ∧
          env.siteChanged seen site = false ∧
          Enables seen resource

theorem Equipped.hotReload
    (equipped : Equipped live)
    (fits : order.Fits live.currentConfig new)
    (meets : MeetsReload env live new) :
    Equipped
      { env.applyDiff new order live with currentConfig := new } where
  seen := Externals.cfg_applyDiff.symm
  known := by
    intro slot info isRead
    simp only [Externals.registry_applyDiff] at isRead
    rw [Externals.cfg_applyDiff]
    rcases VHostInner.cases_of_read_upsertAll isRead with
      ⟨site, isStored, rfl⟩ | wasRead
    · have isNew := (Externals.mem_upsertedSites_iff fits).mp isStored
      exact mem_siteNames_of_mem (mem_of_siteNamed? isNew.1).1
    · obtain ⟨wasThere, notGone⟩ := VHostInner.read_of_read_removeAll wasRead
      have wasKnown := equipped.known slot info wasThere
      rw [← equipped.seen] at wasKnown
      by_contra notNew
      obtain ⟨old, isOld⟩ := exists_siteNamed? wasKnown
      obtain ⟨_, oldName⟩ := mem_of_siteNamed? isOld
      rw [← oldName] at isOld notNew notGone
      exact notGone (mem_siteNames_of_mem
        ((mem_removedSites_iff fits).mpr ⟨isOld, notNew⟩))
  carries := by
    intro slot info site resource isRead isSite enables
    simp only [Externals.registry_applyDiff] at isRead
    rw [Externals.cfg_applyDiff] at isSite
    obtain ⟨_, sameName⟩ := mem_of_siteNamed? isSite
    have isNamed : siteNamed? new site.name = some site := by
      rw [sameName]
      exact isSite
    obtain ⟨seen, isSeen, unchanged, wasEnabled⟩ :=
      meets site resource isNamed enables
    rcases VHostInner.cases_of_read_upsertAll isRead with
      ⟨stored, isStored, rfl⟩ | wasRead
    · -- A stored site is reported changed, so it is not the one that asks.
      obtain ⟨isNew, changed⟩ :=
        (Externals.mem_upsertedSites_iff fits).mp isStored
      rw [SiteInfo.name_fromConfig, isNew] at isSite
      obtain rfl := Option.some.inj isSite
      rw [changed seen isSeen] at unchanged
      cases unchanged
    · obtain ⟨wasThere, _⟩ := VHostInner.read_of_read_removeAll wasRead
      rw [equipped.seen, sameName] at isSeen
      exact equipped.carries slot info seen resource wasThere isSeen
        wasEnabled

/--
Every site that a lookup finds has the resources that its settings ask for, at
the start and after every reload, along every run of reloads that meet the
condition.
-/
theorem carried_along_run
    (env : Externals Tls Other Cert)
    (sites : List (SiteConfig Tls Other))
    (reloads : List (List (SiteConfig Tls Other) × DiffOrder))
    (meetsAtStart : MeetsAtStart env sites)
    (meetsReloads :
      Along (fun live reload => env.step? live (.hotReload reload.1 reload.2))
        (fun live reload _ => MeetsReload env live reload.1)
        (env.startup sites) reloads) :
    Carried (env.startup sites) ∧
      Along (fun live reload => env.step? live (.hotReload reload.1 reload.2))
        (fun _ _ next => Carried next)
        (env.startup sites) reloads := by
  have equipped := equipped_startup meetsAtStart
  refine ⟨equipped.carried, ?_⟩
  apply along_of_guarded _ _ equipped meetsReloads
  · rintro live ⟨new, order⟩ next equippedBefore taken meets
    obtain ⟨fits, rfl⟩ := Externals.fits_of_step?_hotReload taken
    exact equippedBefore.hotReload fits meets
  · intro _ _ next equippedAfter
    exact equippedAfter.carried

end Runs

/-- A site that is logged. -/
def loggedSite (serverName : List String) : SiteConfig Unit Unit where
  name := "a"
  serverName := serverName
  listenTls := []
  fallback := false
  tls := none
  accessLog := some "a.log"
  accessLogFormat := none
  proxyCache := none
  fastcgiCache := none
  other := ()

/-- Every log can be opened. -/
def loggingExternals : Externals Unit Unit Unit :=
  { plainExternals with opensLog := fun _ => true }

theorem meetsAtStart_loggedSite :
    MeetsAtStart loggingExternals [loggedSite ["a.example"]] := by
  intro site resource isSite _
  obtain ⟨isLogged, _⟩ := mem_of_siteNamed? isSite
  obtain rfl := List.mem_singleton.mp isLogged
  exact ⟨by decide, fun _ _ => rfl⟩

/-- A logged site keeps its log when another site is added. -/
theorem carried_after_adding_site :
    ∃ next,
      loggingExternals.step?
          (loggingExternals.startup [loggedSite ["a.example"]])
          (.hotReload
            [loggedSite ["a.example"], namedSite "b" ["b.example"]]
            ⟨[], ["b"], ["a"]⟩) = some next ∧
        Carried next := by
  have fits :
      DiffOrder.Fits
        [loggedSite ["a.example"]]
        [loggedSite ["a.example"], namedSite "b" ["b.example"]]
        ⟨[], ["b"], ["a"]⟩ := by
    decide
  have taken :=
    loggingExternals.step?_hotReload
      (show DiffOrder.Fits
        (loggingExternals.startup
          [loggedSite ["a.example"]]).currentConfig _ _ from fits)
  have along :=
    (carried_along_run loggingExternals [loggedSite ["a.example"]]
      [([loggedSite ["a.example"], namedSite "b" ["b.example"]],
        ⟨[], ["b"], ["a"]⟩)]
      meetsAtStart_loggedSite ?_).2
  · exact ⟨_, taken, (along _ taken).1⟩
  · intro next _
    refine ⟨?_, trivial⟩
    intro site resource isSite enables
    obtain ⟨isNew, _⟩ := mem_of_siteNamed? isSite
    rcases List.mem_cons.mp isNew with rfl | isPlain
    · exact ⟨loggedSite ["a.example"], by decide,
        by decide, enables⟩
    · obtain rfl := List.mem_singleton.mp isPlain
      cases resource <;> cases enables

/-- A logged site that gets another name has lost its log. -/
theorem not_carried_after_new_name :
    ∃ next,
      loggingExternals.step?
          (loggingExternals.startup [loggedSite ["a.example"]])
          (.hotReload [loggedSite ["a.example", "b.example"]]
            ⟨[], [], ["a"]⟩) = some next ∧
        ¬ Carried next := by
  have fits :
      DiffOrder.Fits
        [loggedSite ["a.example"]]
        [loggedSite ["a.example", "b.example"]]
        ⟨[], [], ["a"]⟩ := by
    decide
  refine ⟨_, loggingExternals.step?_hotReload fits, ?_⟩
  intro carried
  have atName :=
    carried "a.example"
      (.fromConfig (loggedSite ["a.example", "b.example"]))
      (loggedSite ["a.example", "b.example"]) .accessLog
      (by decide) (by decide) rfl
  cases atName

end Sweety.RuntimeResources
