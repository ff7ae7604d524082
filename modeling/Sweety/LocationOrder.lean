import Sweety.ConfigModel
import Sweety.FirstMaximum
import Sweety.Router
import Sweety.StableSort

namespace Sweety.Router

open HttpText Rewrite StableSort FirstMaximum

/-!
# The order of the locations

Model of `CompiledLocation::new` in `dispatcher/location.rs` and of the sorting
in `SiteInfo::from_config` of `dispatcher/vhost.rs`.  The first round of
`match_location` takes the first location with a prefix that has priority, not
the one with the longest; sorting does not make up for that, since it orders the
locations by their kinds only.
-/

/-! ## Compilation -/

/-- `HandlerType`, with the text of a name as a list. -/
def handlerOf : ConfigModel.HandlerType → HandlerType
  | .static =>
      .static
  | .fastcgi =>
      .fastcgi
  | .websocket =>
      .websocket
  | .reverseProxy =>
      .reverseProxy
  | .grpc =>
      .grpc
  | .plugin name =>
      .plugin name.toList

/-- The kind of a location with a regular expression, if it can be built. -/
def regexKind (built : Option Regex) : LocationKind :=
  match built with
  | some regex =>
      .regex regex
  | none =>
      .prefixed

/-- The kind that the path of a declaration asks for. -/
def kindOf (build : List Char → Option Regex) (path : List Char) :
    LocationKind :=
  match path.dropPrefix? "~* ".toList, path.dropPrefix? "~ ".toList,
      path.dropPrefix? "= ".toList, path.dropPrefix? "^~ ".toList with
  | some pattern, _, _, _ =>
      regexKind (build ("(?i)".toList ++ pattern))
  | none, some pattern, _, _ =>
      regexKind (build pattern)
  | none, none, some exactPath, _ =>
      .exact exactPath
  | none, none, none, some start =>
      .prefixPriority start
  | none, none, none, none =>
      .prefixed

/-- `CompiledLocation::new`. -/
def CompiledLocation.new
    (build : List Char → Option Regex)
    (config : ConfigModel.LocationConfig) :
    CompiledLocation where
  path := config.path.toList
  kind := kindOf build config.path.toList
  handler := handlerOf config.handler
  root := config.root.map String.toList
  tryFiles := config.tryFiles.map String.toList

/-- `location_priority`. -/
def locationPriority (path : List Char) : Nat :=
  if "= ".toList.isPrefixOf path then
    1
  else if "^~ ".toList.isPrefixOf path then
    2
  else if "~ ".toList.isPrefixOf path || "~* ".toList.isPrefixOf path then
    3
  else
    4

/-- The default of a location. -/
def defaultLocation : ConfigModel.LocationConfig where
  path := ""
  handler := .static
  root := none
  upstream := none
  cacheControl := none
  returnCode := none
  maxConnections := none
  stripCookieSecure := false
  proxyCookieDomain := none
  proxyRedirectFrom := none
  proxyRedirectTo := none
  proxySetHeaders := []
  addHeaders := []
  proxyHideHeaders := []
  accessRules := []
  cacheRules := []
  returnUrl := none
  returnBody := none
  returnContentType := none
  limitConn := 0
  proxyBuffering := false
  tryFiles := []
  subFilter := []
  authRequest := none
  authFailureStatus := 401
  authRequestHeaders := []

/-- `effective_locations`: a site with a root alone serves its files. -/
def effectiveLocations (site : ConfigModel.SiteConfig) :
    List ConfigModel.LocationConfig :=
  if site.locations.isEmpty && site.root.isSome then
    [{ defaultLocation with path := "/", handler := .static }]
  else
    site.locations

/-- The compiled locations of a site, in the order of their declarations. -/
def declaredLocations
    (build : List Char → Option Regex)
    (site : ConfigModel.SiteConfig) :
    List CompiledLocation :=
  (effectiveLocations site).map (CompiledLocation.new build)

/-- The locations of `SiteInfo::from_config`. -/
def compiledLocations
    (build : List Char → Option Regex)
    (site : ConfigModel.SiteConfig) :
    List CompiledLocation :=
  sortByKey (fun location => locationPriority location.path)
    (declaredLocations build site)

/-! ## The order that is promised -/

/-- An exact location for the path. -/
def CompiledLocation.isExact (path : List Char) (location : CompiledLocation) :
    Bool :=
  match location.kind with
  | .exact exactPath =>
      exactPath == path
  | .prefixPriority _ | .regex _ | .prefixed =>
      false

/-- A location with a prefix of the path that has priority. -/
def CompiledLocation.isPriority
    (path : List Char)
    (location : CompiledLocation) :
    Bool :=
  match location.kind with
  | .prefixPriority start =>
      start.isPrefixOf path
  | .exact _ | .regex _ | .prefixed =>
      false

/--
The choice between declarations: exact, longest prefix with priority, first
regular expression, longest prefix.
-/
def nginxOrder (locations : List CompiledLocation) (path : List Char) :
    Option CompiledLocation :=
  (locations.find? (·.isExact path)).or
    ((longest (locations.filter (·.isPriority path))).or
      ((locations.find? (·.isRegexMatch path)).or
        (longest (locations.filter (·.isPrefixMatch path)))))

/--
The first matching location with priority is a longest one, where no exact
location decides.
-/
def LongestFirst (locations : List CompiledLocation) (path : List Char) :
    Prop :=
  (∃ location ∈ locations, location.isExact path = true) ∨
    ∀ first, locations.find? (·.isPriority path) = some first →
      ∀ other ∈ locations, other.isPriority path = true →
        byteLength other.path ≤ byteLength first.path

/-- The location has a regular expression. -/
def CompiledLocation.isRegex (location : CompiledLocation) : Bool :=
  match location.kind with
  | .regex _ =>
      true
  | .exact _ | .prefixPriority _ | .prefixed =>
      false

/--
The lists have the same locations; those with one path, and those with regular
expressions, in the same order.
-/
structure Rearranged (locations others : List CompiledLocation) : Prop where
  samePaths :
    ∀ path,
      locations.filter (fun location => location.path = path) =
        others.filter fun location => location.path = path
  sameRegexes :
    locations.filter (·.isRegex) = others.filter (·.isRegex)

/-- The kind of a location is what its path asks for. -/
def Compiled
    (build : List Char → Option Regex)
    (locations : List CompiledLocation) :
    Prop :=
  ∀ location ∈ locations, location.kind = kindOf build location.path

section Kinds

variable
  {build : List Char → Option Regex}
  {path : List Char}
  {locations : List CompiledLocation}
  {location : CompiledLocation}

theorem compiled_declaredLocations
    (build : List Char → Option Regex)
    (site : ConfigModel.SiteConfig) :
    Compiled build (declaredLocations build site) := by
  intro location member
  obtain ⟨config, -, rfl⟩ := List.mem_map.mp member
  rfl

theorem regexKind_ne_exact
    {built : Option Regex}
    {exactPath : List Char} :
    regexKind built ≠ .exact exactPath := by
  cases built with
  | none =>
      nofun
  | some regex =>
      nofun

theorem regexKind_ne_prefixPriority
    {built : Option Regex}
    {start : List Char} :
    regexKind built ≠ .prefixPriority start := by
  cases built with
  | none =>
      nofun
  | some regex =>
      nofun

theorem path_of_exact
    {exactPath : List Char}
    (isKind : kindOf build path = .exact exactPath) :
    path = "= ".toList ++ exactPath := by
  unfold kindOf at isKind
  split at isKind
  · exact absurd isKind regexKind_ne_exact
  · exact absurd isKind regexKind_ne_exact
  · cases isKind
    have isDropped : path.dropPrefix? "= ".toList = some exactPath := by
      assumption
    exact dropPrefix?_eq_some_iff_append.mp isDropped
  · nomatch isKind
  · nomatch isKind

theorem path_of_prefixPriority
    {start : List Char}
    (isKind : kindOf build path = .prefixPriority start) :
    path = "^~ ".toList ++ start := by
  unfold kindOf at isKind
  split at isKind
  · exact absurd isKind regexKind_ne_prefixPriority
  · exact absurd isKind regexKind_ne_prefixPriority
  · nomatch isKind
  · cases isKind
    have isDropped : path.dropPrefix? "^~ ".toList = some start := by
      assumption
    exact dropPrefix?_eq_some_iff_append.mp isDropped
  · nomatch isKind

theorem locationPriority_of_regex
    {regex : Regex}
    (isKind : kindOf build path = .regex regex) :
    locationPriority path = 3 := by
  unfold kindOf at isKind
  split at isKind
  · rename_i pattern isDropped
    rw [dropPrefix?_eq_some_iff_append.mp isDropped]
    rfl
  · rename_i pattern _ isDropped
    rw [dropPrefix?_eq_some_iff_append.mp isDropped]
    rfl
  · nomatch isKind
  · nomatch isKind
  · nomatch isKind

theorem isExact_iff :
    location.isExact path = true ↔ location.kind = .exact path := by
  unfold CompiledLocation.isExact
  cases location.kind with
  | exact exactPath =>
      rw [beq_iff_eq, LocationKind.exact.injEq]
  | prefixPriority start =>
      exact iff_of_false Bool.false_ne_true nofun
  | regex regex =>
      exact iff_of_false Bool.false_ne_true nofun
  | prefixed =>
      exact iff_of_false Bool.false_ne_true nofun

theorem isPriority_iff :
    location.isPriority path = true ↔
      ∃ start, location.kind = .prefixPriority start ∧ start <+: path := by
  unfold CompiledLocation.isPriority
  cases location.kind with
  | prefixPriority start =>
      rw [List.isPrefixOf_iff_prefix]
      constructor
      · intro isPrefix
        exact ⟨start, rfl, isPrefix⟩
      · rintro ⟨other, isKind, isPrefix⟩
        cases isKind
        exact isPrefix
  | exact exactPath =>
      exact iff_of_false Bool.false_ne_true nofun
  | regex regex =>
      exact iff_of_false Bool.false_ne_true nofun
  | prefixed =>
      exact iff_of_false Bool.false_ne_true nofun

theorem isRegex_iff :
    location.isRegex = true ↔ ∃ regex, location.kind = .regex regex := by
  unfold CompiledLocation.isRegex
  cases location.kind with
  | regex regex =>
      exact iff_of_true rfl ⟨regex, rfl⟩
  | exact exactPath =>
      exact iff_of_false Bool.false_ne_true nofun
  | prefixPriority start =>
      exact iff_of_false Bool.false_ne_true nofun
  | prefixed =>
      exact iff_of_false Bool.false_ne_true nofun

theorem path_of_isExact
    (isKind : location.kind = kindOf build location.path)
    (isExact : location.isExact path = true) :
    location.path = "= ".toList ++ path :=
  path_of_exact (isKind.symm.trans (isExact_iff.mp isExact))

/-- The priority of the locations of a kind. -/
theorem locationPriority_of_isExact
    (isKind : location.kind = kindOf build location.path)
    (isExact : location.isExact path = true) :
    locationPriority location.path = 1 := by
  rw [path_of_isExact isKind isExact]
  rfl

theorem exists_of_isPriority
    (isKind : location.kind = kindOf build location.path)
    (isPriority : location.isPriority path = true) :
    ∃ start, location.path = "^~ ".toList ++ start ∧ start <+: path := by
  obtain ⟨start, isPriorityKind, isPrefix⟩ := isPriority_iff.mp isPriority
  exact ⟨start, path_of_prefixPriority (isKind.symm.trans isPriorityKind),
    isPrefix⟩

theorem locationPriority_of_isPriority
    (isKind : location.kind = kindOf build location.path)
    (isPriority : location.isPriority path = true) :
    locationPriority location.path = 2 := by
  obtain ⟨start, isPath, -⟩ := exists_of_isPriority isKind isPriority
  rw [isPath]
  rfl

theorem locationPriority_of_isRegex
    (isKind : location.kind = kindOf build location.path)
    (isRegex : location.isRegex = true) :
    locationPriority location.path = 3 := by
  obtain ⟨regex, isRegexKind⟩ := isRegex_iff.mp isRegex
  exact locationPriority_of_regex (isKind.symm.trans isRegexKind)

theorem isRegex_of_isRegexMatch
    (isMatch : location.isRegexMatch path = true) :
    location.isRegex = true := by
  unfold CompiledLocation.isRegexMatch at isMatch
  unfold CompiledLocation.isRegex
  cases isKind : location.kind with
  | regex regex =>
      rfl
  | exact exactPath =>
      rw [isKind] at isMatch
      nomatch isMatch
  | prefixPriority start =>
      rw [isKind] at isMatch
      nomatch isMatch
  | prefixed =>
      rw [isKind] at isMatch
      nomatch isMatch

theorem prefix_of_isPrefixMatch
    (isMatch : location.isPrefixMatch path = true) :
    location.path <+: path := by
  unfold CompiledLocation.isPrefixMatch at isMatch
  split at isMatch
  · exact List.isPrefixOf_iff_prefix.mp isMatch
  · nomatch isMatch
  · nomatch isMatch
  · nomatch isMatch

end Kinds

/-! ## Lengths of prefixes -/

theorem byteLength_append (front rest : List Char) :
    byteLength (front ++ rest) = byteLength front + byteLength rest := by
  simp [byteLength]

/-- A text is determined by its length among the prefixes of another. -/
theorem prefix_unique
    {first second path : List Char}
    (isFirst : first <+: path)
    (isSecond : second <+: path)
    (sameLength : byteLength first = byteLength second) :
    first = second := by
  have noMore
      {shorter more : List Char}
      (isSame : byteLength shorter = byteLength (shorter ++ more)) :
      more = [] := by
    cases more with
    | nil =>
        rfl
    | cons char rest =>
        have positive := Char.utf8Size_pos char
        rw [byteLength_append] at isSame
        simp only [byteLength, List.map_cons, List.sum_cons] at isSame
        omega
  rcases List.prefix_or_prefix_of_prefix isFirst isSecond with
    ⟨more, rfl⟩ | ⟨more, rfl⟩
  · rw [noMore sameLength, List.append_nil]
  · rw [noMore sameLength.symm, List.append_nil]

/-! ## Rearrangements -/

section Order

variable
  {build : List Char → Option Regex}
  {path : List Char}
  {locations others : List CompiledLocation}

theorem longest_eq (locations : List CompiledLocation) :
    longest locations =
      firstMaximum (fun location => byteLength location.path)
        locations := by
  unfold longest firstMaximum
  congr 1
  funext best location
  cases best with
  | none =>
      rfl
  | some before =>
      rfl

theorem filter_path_comm
    (isMatch : CompiledLocation → Bool)
    (locations : List CompiledLocation)
    (value : List Char) :
    (locations.filter isMatch).filter
        (fun location => location.path = value) =
      (locations.filter fun location => location.path = value).filter
        isMatch := by
  rw [List.filter_filter, List.filter_filter]
  apply List.filter_congr
  intro location _
  exact Bool.and_comm _ _

/-- Rearranging does not change which matching prefix is the longest. -/
theorem Rearranged.longest_filter
    {isMatch : CompiledLocation → Bool}
    (rearranged : Rearranged locations others)
    (samePath :
      ∀ first ∈ locations, ∀ second ∈ locations,
        isMatch first = true → isMatch second = true →
          byteLength first.path = byteLength second.path →
            first.path = second.path) :
    longest (locations.filter isMatch) = longest (others.filter isMatch) := by
  rw [longest_eq, longest_eq]
  apply @firstMaximum_congr _ _ _ _ _ _ _ _ CompiledLocation.path
  · intro first second same
    rw [same]
  · intro first inFirst second inSecond sameLength
    obtain ⟨isFirst, matchesFirst⟩ := List.mem_filter.mp inFirst
    obtain ⟨isSecond, matchesSecond⟩ := List.mem_filter.mp inSecond
    exact samePath first isFirst second isSecond matchesFirst matchesSecond
      sameLength
  · intro value
    rw [filter_path_comm, filter_path_comm, rearranged.samePaths value]

/-- Nor which exact location is the first. -/
theorem Rearranged.find?_isExact
    (compiled : Compiled build locations)
    (compiledOthers : Compiled build others)
    (rearranged : Rearranged locations others) :
    locations.find? (·.isExact path) = others.find? (·.isExact path) := by
  have inClass
      {listed : List CompiledLocation}
      (compiledListed : Compiled build listed) :
      listed.filter (·.isExact path) =
        (listed.filter fun location =>
          location.path = "= ".toList ++ path).filter (·.isExact path) := by
    rw [List.filter_filter]
    apply List.filter_congr
    intro location member
    cases isExact : location.isExact path with
    | false =>
        rfl
    | true =>
        have isPath : location.path = "= ".toList ++ path :=
          path_of_isExact (compiledListed location member) isExact
        rw [isPath]
        simp
  rw [← List.head?_filter, ← List.head?_filter, inClass compiled,
    inClass compiledOthers, rearranged.samePaths]

/-- Nor which regular expression is the first to match. -/
theorem Rearranged.find?_isRegexMatch
    (rearranged : Rearranged locations others) :
    locations.find? (·.isRegexMatch path) =
      others.find? (·.isRegexMatch path) := by
  have inClass (listed : List CompiledLocation) :
      listed.filter (·.isRegexMatch path) =
        (listed.filter (·.isRegex)).filter (·.isRegexMatch path) := by
    rw [List.filter_filter]
    apply List.filter_congr
    intro location _
    cases isMatch : location.isRegexMatch path with
    | false =>
        rfl
    | true =>
        rw [isRegex_of_isRegexMatch isMatch]
        rfl
  rw [← List.head?_filter, ← List.head?_filter, inClass locations,
    inClass others, rearranged.sameRegexes]

/-- The promised choice does not depend on such a rearrangement. -/
theorem nginxOrder_congr
    (compiled : Compiled build locations)
    (compiledOthers : Compiled build others)
    (rearranged : Rearranged locations others) :
    nginxOrder locations path = nginxOrder others path := by
  have samePriority :
      longest (locations.filter (·.isPriority path)) =
        longest (others.filter (·.isPriority path)) := by
    apply rearranged.longest_filter
    intro first inFirst second inSecond isFirst isSecond sameLength
    obtain ⟨start, isPath, isPrefix⟩ :=
      exists_of_isPriority (compiled first inFirst) isFirst
    obtain ⟨startOther, isPathOther, isPrefixOther⟩ :=
      exists_of_isPriority (compiled second inSecond) isSecond
    rw [isPath, isPathOther, byteLength_append, byteLength_append,
      Nat.add_left_cancel_iff] at sameLength
    rw [isPath, isPathOther,
      prefix_unique isPrefix isPrefixOther sameLength]
  have samePrefixed :
      longest (locations.filter (·.isPrefixMatch path)) =
        longest (others.filter (·.isPrefixMatch path)) := by
    apply rearranged.longest_filter
    intro first _ second _ isFirst isSecond sameLength
    exact prefix_unique (prefix_of_isPrefixMatch isFirst)
      (prefix_of_isPrefixMatch isSecond) sameLength
  rw [nginxOrder, nginxOrder,
    rearranged.find?_isExact compiled compiledOthers, samePriority,
    rearranged.find?_isRegexMatch, samePrefixed]

/-- Sorting by priority is such a rearrangement. -/
theorem rearranged_sortByKey (compiled : Compiled build locations) :
    Rearranged
      (sortByKey (fun location => locationPriority location.path) locations)
      locations := by
  constructor
  · intro value
    apply filter_sortByKey_of_key
    · intro location _ isPath
      rw [of_decide_eq_true isPath]
  · apply filter_sortByKey_of_key
    · intro location member isRegex
      exact locationPriority_of_isRegex (compiled location member) isRegex

theorem compiled_sortByKey (compiled : Compiled build locations) :
    Compiled build
      (sortByKey (fun location => locationPriority location.path)
        locations) := by
  intro location member
  exact compiled location (mem_sortByKey.mp member)

/-! ## The first round -/

/-- The first round takes exact locations before those with priority. -/
theorem find?_isFirst_sorted (compiled : Compiled build locations) :
    (sortByKey (fun location => locationPriority location.path)
        locations).find? (·.isFirst path) =
      (locations.find? (·.isExact path)).or
        (locations.find? (·.isPriority path)) := by
  have isEither (location : CompiledLocation) :
      location.isFirst path =
        (location.isExact path || location.isPriority path) := by
    unfold CompiledLocation.isFirst CompiledLocation.isExact
      CompiledLocation.isPriority
    cases location.kind with
    | exact exactPath =>
        exact (Bool.or_false _).symm
    | prefixPriority start =>
        rfl
    | regex regex =>
        rfl
    | prefixed =>
        rfl
  have compiledSorted := compiled_sortByKey compiled
  have sorted := keysSorted_sortByKey
    (fun location : CompiledLocation => locationPriority location.path)
    locations
  have keyOfExact :
      ∀ location ∈ locations, location.isExact path = true →
        locationPriority location.path = 1 :=
    fun location member isExact =>
      locationPriority_of_isExact (compiled location member) isExact
  have keyOfPriority :
      ∀ location ∈ locations, location.isPriority path = true →
        locationPriority location.path = 2 :=
    fun location member isPriority =>
      locationPriority_of_isPriority (compiled location member) isPriority
  simp only [isEither]
  rw [sorted.find?_or, find?_sortByKey_of_key keyOfExact,
    find?_sortByKey_of_key keyOfPriority]
  intro first inFirst second inSecond isExact isPriority
  rw [keyOfExact first (mem_sortByKey.mp inFirst) isExact,
    keyOfPriority second (mem_sortByKey.mp inSecond) isPriority]
  decide

/-- The code's choice, in terms of the declarations. -/
theorem matchLocation_sorted (compiled : Compiled build locations) :
    matchLocation
        (sortByKey (fun location => locationPriority location.path)
          locations) path =
      ((locations.find? (·.isExact path)).or
        (locations.find? (·.isPriority path))).or
        ((locations.find? (·.isRegexMatch path)).or
          (longest (locations.filter (·.isPrefixMatch path)))) := by
  have rearranged := rearranged_sortByKey compiled
  have samePrefixed :
      longest
          ((sortByKey (fun location => locationPriority location.path)
            locations).filter (·.isPrefixMatch path)) =
        longest (locations.filter (·.isPrefixMatch path)) := by
    apply rearranged.longest_filter
    intro first _ second _ isFirst isSecond sameLength
    exact prefix_unique (prefix_of_isPrefixMatch isFirst)
      (prefix_of_isPrefixMatch isSecond) sameLength
  rw [matchLocation, find?_isFirst_sorted compiled,
    rearranged.find?_isRegexMatch, samePrefixed]

/-- The first location with priority is the longest if no other is longer. -/
theorem find?_eq_longest_iff :
    locations.find? (·.isPriority path) =
        longest (locations.filter (·.isPriority path)) ↔
      ∀ first, locations.find? (·.isPriority path) = some first →
        ∀ other ∈ locations, other.isPriority path = true →
          byteLength other.path ≤ byteLength first.path := by
  rw [← List.head?_filter]
  cases isMatches : locations.filter (·.isPriority path) with
  | nil =>
      exact iff_of_true rfl nofun
  | cons first rest =>
      have isMatch (other : CompiledLocation) :
          other ∈ first :: rest ↔
            other ∈ locations ∧ other.isPriority path = true := by
        rw [← isMatches, List.mem_filter]
      rw [List.head?_cons, longest_eq, eq_comm,
        firstMaximum_cons_eq_head_iff]
      constructor
      · intro notLonger head isHead other inLocations isPriority
        cases isHead
        rcases List.mem_cons.mp ((isMatch other).mpr
          ⟨inLocations, isPriority⟩) with rfl | inRest
        · exact Nat.le_refl _
        · exact notLonger other inRest
      · intro notLonger other inRest
        obtain ⟨inLocations, isPriority⟩ :=
          (isMatch other).mp (List.mem_cons_of_mem _ inRest)
        exact notLonger first rfl other inLocations isPriority

/-- Without an exact location the first round is the priority alone. -/
theorem matchLocation_of_isPriority
    {first : CompiledLocation}
    (compiled : Compiled build locations)
    (noExact : ∀ location ∈ locations, ¬ location.isExact path = true)
    (isFirst : locations.find? (·.isPriority path) = some first) :
    matchLocation
        (sortByKey (fun location => locationPriority location.path)
          locations) path =
      some first := by
  have noneExact : locations.find? (·.isExact path) = none :=
    List.find?_eq_none.mpr noExact
  rw [matchLocation_sorted compiled, noneExact, isFirst]
  rfl

/-- The code keeps the promised order where the first is a longest. -/
theorem matchLocation_eq_nginxOrder_iff (compiled : Compiled build locations) :
    matchLocation
        (sortByKey (fun location => locationPriority location.path)
          locations) path =
        nginxOrder locations path ↔
      LongestFirst locations path := by
  rw [matchLocation_sorted compiled, nginxOrder, Option.or_assoc]
  cases isExact : locations.find? (·.isExact path) with
  | some location =>
      have exact : LongestFirst locations path :=
        Or.inl ⟨location, List.mem_of_find?_eq_some isExact,
          List.find?_some isExact⟩
      exact iff_of_true rfl exact
  | none =>
      have noExact := List.find?_eq_none.mp isExact
      have sameChoice :
          LongestFirst locations path ↔
            ∀ first, locations.find? (·.isPriority path) = some first →
              ∀ other ∈ locations, other.isPriority path = true →
                byteLength other.path ≤ byteLength first.path :=
        or_iff_right fun ⟨location, member, exact⟩ =>
          noExact location member exact
      rw [sameChoice, ← find?_eq_longest_iff, Option.none_or, Option.none_or]
      cases isPriority : locations.find? (·.isPriority path) with
      | some first =>
          obtain ⟨rest, isMatches⟩ :=
            List.head?_eq_some_iff.mp (List.head?_filter.trans isPriority)
          obtain ⟨best, isBest, -⟩ :=
            @exists_firstMaximum _ _ _
              (fun location : CompiledLocation => byteLength location.path)
              first rest
          have isLongest : longest (first :: rest) = some best :=
            (longest_eq _).trans isBest
          rw [isMatches, isLongest]
          exact Iff.rfl
      | none =>
          have noMatches : locations.filter (·.isPriority path) = [] :=
            List.filter_eq_nil_iff.mpr (List.find?_eq_none.mp isPriority)
          rw [noMatches]
          exact iff_of_true rfl rfl

end Order

/-! ## The order of the declarations -/

/--
The matching locations with priority have one path, or an exact one decides.
-/
def OneStart (locations : List CompiledLocation) (path : List Char) : Prop :=
  (∃ location ∈ locations, location.isExact path = true) ∨
    ∀ first ∈ locations, ∀ second ∈ locations,
      first.isPriority path = true → second.isPriority path = true →
        first.path = second.path

/-- The declarations with a path, and then the others. -/
def movedFirst
    (value : List Char)
    (declarations : List ConfigModel.LocationConfig) :
    List ConfigModel.LocationConfig :=
  declarations.filter (fun config => config.path.toList = value) ++
    declarations.filter fun config => config.path.toList ≠ value

section Moved

variable
  {build : List Char → Option Regex}
  {site other : ConfigModel.SiteConfig}
  {path : List Char}
  {locations others : List CompiledLocation}

theorem Rearranged.mem_iff
    {location : CompiledLocation}
    (rearranged : Rearranged locations others) :
    location ∈ locations ↔ location ∈ others := by
  have inBoth :=
    congrArg (location ∈ ·) (rearranged.samePaths location.path)
  simpa using inBoth

theorem OneStart.of_rearranged
    (oneStart : OneStart locations path)
    (rearranged : Rearranged others locations) :
    OneStart others path := by
  rcases oneStart with ⟨location, member, exact⟩ | samePath
  · exact Or.inl ⟨location, rearranged.mem_iff.mpr member, exact⟩
  · refine Or.inr fun first inFirst second inSecond => ?_
    exact samePath first (rearranged.mem_iff.mp inFirst) second
      (rearranged.mem_iff.mp inSecond)

theorem OneStart.longestFirst (oneStart : OneStart locations path) :
    LongestFirst locations path := by
  rcases oneStart with exact | samePath
  · exact Or.inl exact
  · refine Or.inr fun first isFirst other member isPriority => ?_
    have isSame := samePath other member first
      (List.mem_of_find?_eq_some isFirst) isPriority
      (List.find?_some isFirst)
    rw [isSame]

/-- The site with the declarations of a path moved to the front. -/
def movedSite (value : List Char) (site : ConfigModel.SiteConfig) :
    ConfigModel.SiteConfig :=
  { site with locations := movedFirst value (effectiveLocations site) }

theorem declaredLocations_movedSite
    {location : CompiledLocation}
    (member : location ∈ declaredLocations build site) :
    declaredLocations build (movedSite location.path site) =
      (declaredLocations build site).filter
          (fun other => other.path = location.path) ++
        (declaredLocations build site).filter
          fun other => other.path ≠ location.path := by
  have isMoved :
      declaredLocations build (movedSite location.path site) =
        (movedFirst location.path (effectiveLocations site)).map
          (CompiledLocation.new build) := by
    obtain ⟨config, inDeclared, rfl⟩ := List.mem_map.mp member
    have inMoved :
        config ∈ movedFirst config.path.toList (effectiveLocations site) :=
      List.mem_append_left _ (List.mem_filter.mpr ⟨inDeclared, by simp⟩)
    unfold declaredLocations effectiveLocations
    rw [if_neg]
    · rfl
    · intro isEmpty
      have noneMoved := List.isEmpty_iff.mp (Bool.and_eq_true_iff.mp isEmpty).1
      exact List.ne_nil_of_mem inMoved noneMoved
  rw [isMoved, movedFirst, List.map_append, declaredLocations,
    List.filter_map, List.filter_map]
  rfl

/-- Moving the declarations of a prefix is a rearrangement. -/
theorem rearranged_movedSite
    {location : CompiledLocation}
    (member : location ∈ declaredLocations build site)
    (isPriority : location.isPriority path = true) :
    Rearranged (declaredLocations build (movedSite location.path site))
      (declaredLocations build site) := by
  have compiled := compiled_declaredLocations build site
  rw [declaredLocations_movedSite member]
  constructor
  · intro value
    rw [List.filter_append, List.filter_filter, List.filter_filter]
    by_cases isSame : value = location.path
    · cases isSame
      have noOther :
          (declaredLocations build site).filter
              (fun other => decide (other.path = location.path) &&
                decide (other.path ≠ location.path)) =
            [] := by
        rw [List.filter_eq_nil_iff]
        simp
      rw [noOther, List.append_nil]
      simp
    · have noneMoved :
          (declaredLocations build site).filter
              (fun other => decide (other.path = value) &&
                decide (other.path = location.path)) =
            [] := by
        rw [List.filter_eq_nil_iff]
        intro other _ isBoth
        obtain ⟨isValue, isPath⟩ := Bool.and_eq_true_iff.mp isBoth
        exact isSame ((of_decide_eq_true isValue).symm.trans
          (of_decide_eq_true isPath))
      rw [noneMoved, List.nil_append]
      apply List.filter_congr
      intro other _
      by_cases isValue : other.path = value
      · simp [isValue, isSame]
      · simp [isValue]
  · have notMoved :
        ∀ other ∈ declaredLocations build site,
          other.isRegex = true → other.path ≠ location.path := by
      intro other inDeclared isRegex isPath
      have priority :=
        locationPriority_of_isPriority (compiled location member) isPriority
      rw [← isPath, locationPriority_of_isRegex (compiled other inDeclared)
        isRegex] at priority
      nomatch priority
    have noneMoved :
        (declaredLocations build site).filter
            (fun other => other.isRegex &&
              decide (other.path = location.path)) =
          [] := by
      rw [List.filter_eq_nil_iff]
      intro other inDeclared isBoth
      obtain ⟨isRegex, isPath⟩ := Bool.and_eq_true_iff.mp isBoth
      exact notMoved other inDeclared isRegex (of_decide_eq_true isPath)
    rw [List.filter_append, List.filter_filter, List.filter_filter,
      noneMoved, List.nil_append]
    apply List.filter_congr
    intro other inDeclared
    cases isRegex : other.isRegex with
    | false =>
        rfl
    | true =>
        rw [decide_eq_true (notMoved other inDeclared isRegex)]
        rfl

/-- Moved to the front, a matching prefix with priority is chosen. -/
theorem matchLocation_movedSite
    {location : CompiledLocation}
    (noExact :
      ∀ location ∈ declaredLocations build site,
        ¬ location.isExact path = true)
    (member : location ∈ declaredLocations build site)
    (isPriority : location.isPriority path = true) :
    ∃ chosen,
      matchLocation
          (compiledLocations build (movedSite location.path site)) path =
        some chosen ∧
        chosen.path = location.path := by
  have rearranged := rearranged_movedSite member isPriority
  have isMoved := declaredLocations_movedSite member
  have inMoved :
      location ∈ (declaredLocations build site).filter
        (fun other => other.path = location.path) :=
    List.mem_filter.mpr ⟨member, by simp⟩
  cases isFound :
      ((declaredLocations build site).filter
        (fun other => other.path = location.path)).find?
        (·.isPriority path) with
  | none =>
      exact absurd isPriority (List.find?_eq_none.mp isFound location inMoved)
  | some chosen =>
      refine ⟨chosen, ?_, ?_⟩
      · apply matchLocation_of_isPriority (compiled_declaredLocations build _)
        · intro other inDeclared
          exact noExact other (rearranged.mem_iff.mp inDeclared)
        · rw [isMoved, List.find?_append, isFound]
          rfl
      · have inFilter := List.mem_of_find?_eq_some isFound
        exact of_decide_eq_true (List.mem_filter.mp inFilter).2

/-- The order of the declarations counts where two prefixes have priority. -/
theorem matchLocation_rearranged_iff :
    (∀ other : ConfigModel.SiteConfig,
        Rearranged (declaredLocations build other)
            (declaredLocations build site) →
          matchLocation (compiledLocations build other) path =
            matchLocation (compiledLocations build site) path) ↔
      OneStart (declaredLocations build site) path := by
  have compiled := compiled_declaredLocations build site
  constructor
  · intro sameChoice
    by_cases exact :
        ∃ location ∈ declaredLocations build site,
          location.isExact path = true
    · exact Or.inl exact
    · have noExact :
          ∀ location ∈ declaredLocations build site,
            ¬ location.isExact path = true :=
        fun location member isExact => exact ⟨location, member, isExact⟩
      refine Or.inr fun first inFirst second inSecond isFirst isSecond => ?_
      obtain ⟨chosen, isChosen, isPath⟩ :=
        matchLocation_movedSite noExact inFirst isFirst
      obtain ⟨chosenOther, isChosenOther, isPathOther⟩ :=
        matchLocation_movedSite noExact inSecond isSecond
      rw [sameChoice _ (rearranged_movedSite inFirst isFirst)] at isChosen
      rw [sameChoice _ (rearranged_movedSite inSecond isSecond),
        isChosen] at isChosenOther
      cases isChosenOther
      exact isPath.symm.trans isPathOther
  · intro oneStart other rearranged
    have compiledOther := compiled_declaredLocations build other
    have sameOrder :=
      @nginxOrder_congr _ path _ _ compiledOther compiled rearranged
    have inOrder :=
      (matchLocation_eq_nginxOrder_iff compiled).mpr oneStart.longestFirst
    have inOrderOther :=
      (matchLocation_eq_nginxOrder_iff compiledOther).mpr
        (oneStart.of_rearranged rearranged).longestFirst
    exact (inOrderOther.trans sameOrder).trans inOrder.symm

/--
The choice is the promised one exactly where a longest prefix with priority is
declared first, and it does not depend on the order of the declarations exactly
where all of these prefixes are the same.
-/
theorem nginxOrder_iff
    (build : List Char → Option Regex)
    (site : ConfigModel.SiteConfig)
    (path : List Char) :
    (matchLocation (compiledLocations build site) path =
          nginxOrder (declaredLocations build site) path ↔
        LongestFirst (declaredLocations build site) path) ∧
      ((∀ other : ConfigModel.SiteConfig,
          Rearranged (declaredLocations build other)
              (declaredLocations build site) →
            matchLocation (compiledLocations build other) path =
              matchLocation (compiledLocations build site) path) ↔
        OneStart (declaredLocations build site) path) := by
  have compiled := compiled_declaredLocations build site
  exact ⟨matchLocation_eq_nginxOrder_iff compiled,
    matchLocation_rearranged_iff⟩

end Moved

/-- A site with two prefixes that have priority, the shorter one first. -/
def nestedSite : ConfigModel.SiteConfig where
  name := "nested"
  serverName := ["a"]
  listen := [80]
  listenTls := []
  root := none
  index := []
  accessLog := none
  accessLogFormat := none
  errorLog := none
  tls := none
  fastcgi := none
  upstreams := []
  locations :=
    [{ defaultLocation with path := "^~ /a" },
      { defaultLocation with path := "^~ /a/b" }]
  rewrites := []
  rateLimit := none
  hsts := none
  fallback := false
  gzip := none
  gzipCompLevel := none
  compress := ⟨none, none, none, none, none, none, none⟩
  websocket := true
  forceHttps := false
  realIp := none
  proxyProtocol := false
  errorPages := ∅
  proxyCache := none
  preset := none
  phpFastcgi := none
  acmeEmail := none

/-- The code takes `^~ /a` for `/a/b/c`, and the promise is `^~ /a/b`. -/
theorem not_nginxOrder_nested :
    ¬ matchLocation (compiledLocations (fun _ => none) nestedSite)
          "/a/b/c".toList =
        nginxOrder (declaredLocations (fun _ => none) nestedSite)
          "/a/b/c".toList := by
  intro sameChoice
  have samePath := congrArg (Option.map CompiledLocation.path) sameChoice
  have isFirst :
      (matchLocation (compiledLocations (fun _ => none) nestedSite)
          "/a/b/c".toList).map CompiledLocation.path =
        some "^~ /a".toList := by
    decide
  have isLongest :
      (nginxOrder (declaredLocations (fun _ => none) nestedSite)
          "/a/b/c".toList).map CompiledLocation.path =
        some "^~ /a/b".toList := by
    decide
  rw [isFirst, isLongest] at samePath
  nomatch samePath

end Sweety.Router
