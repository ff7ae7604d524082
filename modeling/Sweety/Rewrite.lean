import Sweety.ProxyResponse
import Sweety.SensitivePath

namespace Sweety.Rewrite

open HttpText

/-!
# The rewrite rules

Model of `dispatcher/rewrite.rs` and of what `multi_site_handler` in
`server/router.rs` makes of its result.  A redirect is handed from the one to
the other as a text: a marker, and the target behind it.  The router takes every
text that begins with a marker for a redirect, also when no rule asked for one.

Regular expressions and the state of the file system are parameters.
-/

/-! ## The rules -/

/-- A compiled `Regex`; group 0 of a match is the whole match. -/
structure Regex where
  isMatch : List Char → Bool
  captures : List Char → Option (Nat → Option (List Char))

/-- `RewriteFlag`. -/
inductive RewriteFlag where
  | last
  | breaks
  | redirect
  | permanent
  deriving Repr, DecidableEq

/-- `RewriteRule`; its pattern is compiled. -/
structure RewriteRule where
  target : List Char
  flag : RewriteFlag
  condition : Option (List Char)
  deriving Repr, DecidableEq

/-- `CompiledRewrite`. -/
structure CompiledRewrite where
  rule : RewriteRule
  regex : Regex

/-- `CachedMeta`, without the time. -/
structure CachedMeta where
  existing : Bool
  isFile : Bool
  isDir : Bool
  isExecutable : Bool
  deriving Repr, DecidableEq

/-- The text of `Path::join` with a relative path. -/
def joinPath (root relative : List Char) : List Char :=
  if root.isEmpty || root.getLast? == some '/' then
    root ++ relative
  else
    root ++ '/' :: relative

/-- The checks of `evaluate_condition`. -/
inductive FileCheck where
  | file
  | directory
  | existing
  | executable
  deriving Repr, DecidableEq

namespace FileCheck

/-- The check that a text names. -/
def ofText? (text : List Char) : Option FileCheck :=
  if text = "-f".toList then
    some .file
  else if text = "-d".toList then
    some .directory
  else if text = "-e".toList then
    some .existing
  else if text = "-x".toList then
    some .executable
  else
    none

/-- Whether a file passes the check. -/
def holds : FileCheck → CachedMeta → Bool
  | .file, info =>
      info.existing && info.isFile
  | .directory, info =>
      info.existing && info.isDir
  | .existing, info =>
      info.existing
  | .executable, info =>
      info.existing && info.isFile && info.isExecutable

end FileCheck

section Engine

variable
  (statCached : List Char → CachedMeta)
  (docRoot : Option (List Char))

/-- `evaluate_condition`. -/
def evaluateCondition (condition path : List Char) : Bool :=
  let cond := trim condition
  let negated := cond.head? == some '!'
  let check := if negated then cond.drop 1 else cond
  match FileCheck.ofText? check with
  | none =>
      -- An unknown condition never holds, negated or not.
      false
  | some check =>
      match docRoot with
      | none =>
          negated
      | some root =>
          let relative := (pathOnly path).dropWhile (· == '/')
          if relative.isEmpty then
            negated != check.holds (statCached root)
          else if hasTraversal relative then
            negated
          else
            negated != check.holds (statCached (joinPath root relative))

/-- `$` and the number of a group. -/
def placeholder (index : Nat) : List Char :=
  '$' :: toDecimal index

/-- `regex_replace`. -/
def regexReplace (regex : Regex) (input template : List Char) : List Char :=
  match regex.captures input with
  | none =>
      input
  | some groups =>
      let whole :=
        match groups 0 with
        | some text =>
            replace (placeholder 0) text template
        | none =>
            template
      [1, 2, 3, 4, 5, 6, 7, 8, 9].foldl
        (fun result index =>
          if contains result (placeholder index) then
            replace (placeholder index) ((groups index).getD []) result
          else
            result)
        whole

/-- The text before the target of a redirect. -/
def redirectMarker (status : Nat) : List Char :=
  "REDIRECT:".toList ++ toDecimal status ++ [':']

/-- Whether a rule applies to a path. -/
def CompiledRewrite.applies (path : List Char) (compiled : CompiledRewrite) :
    Bool :=
  compiled.rule.condition.all
      (fun condition => evaluateCondition statCached docRoot condition path) &&
    compiled.regex.isMatch path

/-- The path that a rule makes of a path. -/
def CompiledRewrite.substituted
    (compiled : CompiledRewrite)
    (path : List Char) :
    List Char :=
  regexReplace compiled.regex path compiled.rule.target

/-- What `apply_rewrites` returns for a path that a rule applies to. -/
def CompiledRewrite.rewritten
    (compiled : CompiledRewrite)
    (path : List Char) :
    List Char :=
  match compiled.rule.flag with
  | .last | .breaks =>
      compiled.substituted path
  | .redirect =>
      redirectMarker 302 ++ compiled.substituted path
  | .permanent =>
      redirectMarker 301 ++ compiled.substituted path

/--
`apply_rewrites`; every flag ends the loop, so a path changes once at most.
-/
def applyRewrites (path : List Char) :
    List CompiledRewrite → Option (List Char)
  | [] =>
      none
  | compiled :: rest =>
      if compiled.applies statCached docRoot path then
        some (compiled.rewritten path)
      else
        applyRewrites path rest

/-! ## The router -/

/-- What the router does next. -/
inductive RewriteOutcome where
  /-- `make_redirect_resp` with this location and status. -/
  | redirect (location : List Char) (status : Nat)
  | serve (effectivePath : List Char)
  deriving Repr, DecidableEq

/-- The router's reading of what `apply_rewrites` returned. -/
def outcomeOf (path : List Char) (rewritten : Option (List Char)) :
    RewriteOutcome :=
  match rewritten.bind (List.dropPrefix? · (redirectMarker 301)) with
  | some location =>
      .redirect location 301
  | none =>
      match rewritten.bind (List.dropPrefix? · (redirectMarker 302)) with
      | some location =>
          .redirect location 302
      | none =>
          .serve (rewritten.getD path)

/-- The rewrite stage of `multi_site_handler`. -/
def rewriteStage (rules : List CompiledRewrite) (path : List Char) :
    RewriteOutcome :=
  outcomeOf path (applyRewrites statCached docRoot path rules)

/-- The first rule that applies decides. -/
theorem applyRewrites_eq (path : List Char) (rules : List CompiledRewrite) :
    applyRewrites statCached docRoot path rules =
      (rules.find? (·.applies statCached docRoot path)).map
        (·.rewritten path) := by
  induction rules with
  | nil =>
      rfl
  | cons compiled rest inductionHypothesis =>
      rw [applyRewrites, List.find?_cons]
      cases compiled.applies statCached docRoot path with
      | true =>
          rfl
      | false =>
          exact inductionHypothesis

end Engine

/-! ## Redirects -/

/-- The router takes the text for a redirect. -/
def Marked (text : List Char) : Prop :=
  redirectMarker 301 <+: text ∨ redirectMarker 302 <+: text

/-- No text begins with both markers. -/
theorem dropPrefix?_marker_302_append (rest : List Char) :
    (redirectMarker 302 ++ rest).dropPrefix? (redirectMarker 301) = none :=
  rfl

theorem outcomeOf_append_301 (path rest : List Char) :
    outcomeOf path (some (redirectMarker 301 ++ rest)) =
      .redirect rest 301 := by
  have found :
      (redirectMarker 301 ++ rest).dropPrefix? (redirectMarker 301) =
        some rest :=
    dropPrefix?_eq_some_iff_append.mpr rfl
  rw [outcomeOf, Option.bind_some, found]

theorem outcomeOf_append_302 (path rest : List Char) :
    outcomeOf path (some (redirectMarker 302 ++ rest)) =
      .redirect rest 302 := by
  have found :
      (redirectMarker 302 ++ rest).dropPrefix? (redirectMarker 302) =
        some rest :=
    dropPrefix?_eq_some_iff_append.mpr rfl
  rw [outcomeOf, Option.bind_some, dropPrefix?_marker_302_append,
    Option.bind_some, found]

/-- Only a marked text is taken for a redirect. -/
theorem outcomeOf_some_eq_redirect_iff
    {path text location : List Char}
    {status : Nat} :
    outcomeOf path (some text) = .redirect location status ↔
      (status = 301 ∧ text = redirectMarker 301 ++ location) ∨
        (status = 302 ∧ text = redirectMarker 302 ++ location) := by
  constructor
  · intro isRedirect
    rw [outcomeOf, Option.bind_some, Option.bind_some] at isRedirect
    split at isRedirect
    case h_1 rest found =>
      cases isRedirect
      exact .inl ⟨rfl, dropPrefix?_eq_some_iff_append.mp found⟩
    case h_2 =>
      split at isRedirect
      case h_1 rest found =>
        cases isRedirect
        exact .inr ⟨rfl, dropPrefix?_eq_some_iff_append.mp found⟩
      case h_2 =>
        cases isRedirect
  · rintro (⟨rfl, rfl⟩ | ⟨rfl, rfl⟩)
    · exact outcomeOf_append_301 path location
    · exact outcomeOf_append_302 path location

/-- The status that a flag asks for. -/
def RewriteFlag.status? : RewriteFlag → Option Nat
  | .last | .breaks =>
      none
  | .redirect =>
      some 302
  | .permanent =>
      some 301

section Unambiguous

variable
  (statCached : List Char → CachedMeta)
  (docRoot : Option (List Char))
  (rules : List CompiledRewrite)
  (path : List Char)

/--
A redirect comes from a rule that applies and has a redirect flag, with the
status of the flag and the target that the rule makes of the path; and such a
rule always redirects.
-/
def Unambiguous : Prop :=
  ∀ location status,
    rewriteStage statCached docRoot rules path =
        .redirect location status ↔
      ∃ compiled,
        rules.find? (·.applies statCached docRoot path) = some compiled ∧
          compiled.rule.flag.status? = some status ∧
          location = compiled.substituted path

/--
A rule without a redirect flag makes no text that is taken for a redirect.
-/
def TargetsUnmarked : Prop :=
  ∀ compiled,
    rules.find? (·.applies statCached docRoot path) = some compiled →
    compiled.rule.flag.status? = none →
    ¬ Marked (compiled.substituted path)

end Unambiguous

/-- What a rule returns begins with the marker of its flag. -/
theorem CompiledRewrite.rewritten_of_status
    {compiled : CompiledRewrite}
    {status : Nat}
    (isStatus : compiled.rule.flag.status? = some status)
    (path : List Char) :
    compiled.rewritten path =
        redirectMarker status ++ compiled.substituted path ∧
      (status = 301 ∨ status = 302) := by
  rw [rewritten]
  cases isFlag : compiled.rule.flag <;> rw [isFlag] at isStatus <;>
    cases isStatus <;> simp

theorem CompiledRewrite.rewritten_of_no_status
    {compiled : CompiledRewrite}
    (noStatus : compiled.rule.flag.status? = none)
    (path : List Char) :
    compiled.rewritten path = compiled.substituted path := by
  rw [rewritten]
  cases isFlag : compiled.rule.flag <;> rw [isFlag] at noStatus <;>
    cases noStatus

/-- The stage, for the rule that applies. -/
theorem rewriteStage_of_find
    {statCached : List Char → CachedMeta}
    {docRoot : Option (List Char)}
    {rules : List CompiledRewrite}
    {path : List Char}
    {compiled : CompiledRewrite}
    (found :
      rules.find? (·.applies statCached docRoot path) = some compiled) :
    rewriteStage statCached docRoot rules path =
      outcomeOf path (some (compiled.rewritten path)) := by
  rw [rewriteStage, applyRewrites_eq, found, Option.map_some]

theorem rewriteStage_of_find_none
    {statCached : List Char → CachedMeta}
    {docRoot : Option (List Char)}
    {rules : List CompiledRewrite}
    {path : List Char}
    (found : rules.find? (·.applies statCached docRoot path) = none) :
    rewriteStage statCached docRoot rules path = .serve path := by
  rw [rewriteStage, applyRewrites_eq, found]
  rfl

/-- A redirect flag is always obeyed, with the target of its rule. -/
theorem outcomeOf_rewritten_iff_of_status
    {compiled : CompiledRewrite}
    {status : Nat}
    (isStatus : compiled.rule.flag.status? = some status)
    (path location : List Char)
    (code : Nat) :
    outcomeOf path (some (compiled.rewritten path)) =
        .redirect location code ↔
      status = code ∧ location = compiled.substituted path := by
  obtain ⟨isText, isKnown⟩ := compiled.rewritten_of_status isStatus path
  have isOutcome :
      outcomeOf path (some (compiled.rewritten path)) =
        .redirect (compiled.substituted path) status := by
    rcases isKnown with rfl | rfl
    · rw [isText, outcomeOf_append_301]
    · rw [isText, outcomeOf_append_302]
  rw [isOutcome, RewriteOutcome.redirect.injEq, and_comm]
  exact and_congr_right fun _ => eq_comm

/--
For all rules, paths, regular expressions and files: redirects are unambiguous
if and only if the rule that applies has a redirect flag or makes a text without
a marker.
-/
theorem unambiguous_iff
    (statCached : List Char → CachedMeta)
    (docRoot : Option (List Char))
    (rules : List CompiledRewrite)
    (path : List Char) :
    Unambiguous statCached docRoot rules path ↔
      TargetsUnmarked statCached docRoot rules path := by
  cases found : rules.find? (·.applies statCached docRoot path) with
  | none =>
      simp [Unambiguous, TargetsUnmarked, found,
        rewriteStage_of_find_none found]
  | some compiled =>
      cases isStatus : compiled.rule.flag.status? with
      | some status =>
          simp [Unambiguous, TargetsUnmarked, found, isStatus,
            rewriteStage_of_find found,
            outcomeOf_rewritten_iff_of_status isStatus]
      | none =>
          have isText := compiled.rewritten_of_no_status isStatus path
          simp only [Unambiguous, TargetsUnmarked, found,
            rewriteStage_of_find found, isText,
            outcomeOf_some_eq_redirect_iff, Option.some.injEq]
          constructor
          · rintro unambiguous _ rfl _ (⟨rest, isRest⟩ | ⟨rest, isRest⟩)
            · have flagged :=
                (unambiguous rest 301).mp (.inl ⟨rfl, isRest.symm⟩)
              simp [isStatus] at flagged
            · have flagged :=
                (unambiguous rest 302).mp (.inr ⟨rfl, isRest.symm⟩)
              simp [isStatus] at flagged
          · intro unmarked location status
            have notMarked := unmarked compiled rfl isStatus
            constructor
            · rintro (⟨_, isRest⟩ | ⟨_, isRest⟩)
              · exact absurd (.inl ⟨location, isRest.symm⟩) notMarked
              · exact absurd (.inr ⟨location, isRest.symm⟩) notMarked
            · rintro ⟨_, rfl, isSome, _⟩
              rw [isStatus] at isSome
              cases isSome

/-- The expression `^/(.*)$`. -/
def behindSlash : Regex where
  isMatch path :=
    path.head? == some '/' && !path.tail.contains '\n'
  captures path :=
    if path.head? == some '/' && !path.tail.contains '\n' then
      some fun index =>
        match index with
        | 0 =>
            some path
        | 1 =>
            some path.tail
        | _ =>
            none
    else
      none

/-- `^/(.*)$`, `$1` and `last`. -/
def strippingRule : CompiledRewrite where
  rule := ⟨"$1".toList, .last, none⟩
  regex := behindSlash

/-- A client writes the marker into the path. -/
theorem not_unambiguous_markedPath :
    ¬ ∀ (statCached : List Char → CachedMeta)
        (docRoot : Option (List Char))
        (rules : List CompiledRewrite)
        (path : List Char),
      Unambiguous statCached docRoot rules path := by
  intro unambiguous
  have always :=
    unambiguous (fun _ => ⟨false, false, false, false⟩) none [strippingRule]
      "/REDIRECT:301:https://evil.example/".toList
      "https://evil.example/".toList 301
  obtain ⟨compiled, found, isStatus, _⟩ := always.mp (by decide)
  have isRule : compiled = strippingRule :=
    List.mem_singleton.mp (List.mem_of_find?_eq_some found)
  rw [isRule] at isStatus
  cases isStatus

end Sweety.Rewrite
