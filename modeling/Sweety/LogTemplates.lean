import Sweety.AccessLog
import Sweety.MarkedNames

namespace Sweety.AccessLog

open HttpText MarkedNames

/-!
# Log templates

`LogFormat::from_str` trims a configured template and puts it into lower case,
and `format_entry` replaces the variables one after the other, in a text that
already has what the client sent.
-/

/-- `LogFormat::from_str`. -/
def LogFormat.fromStr (text : List Char) : LogFormat :=
  let normalized := toAsciiLowercase (trim text)
  if normalized = "combined".toList then
    .combined
  else if normalized = "json".toList then
    .json
  else
    .custom normalized

/-- The variables and their values, in the order in which they are replaced. -/
def logVariables
    (time : List Char)
    (entry : AccessLogEntry) :
    List (List Char × List Char) :=
  [("$remote_addr".toList, entry.clientIp),
    ("$method".toList, entry.method),
    ("$uri".toList, sanitizeLogField entry.uri),
    ("$http_version".toList, entry.httpVersion),
    ("$status".toList, toDecimal entry.status),
    ("$bytes_sent".toList, toDecimal entry.bytesSent),
    ("$http_referer".toList, sanitizeLogField entry.referer),
    ("$http_user_agent".toList, sanitizeLogField entry.userAgent),
    ("$duration_ms".toList, toDecimal entry.durationMs),
    ("$time_local".toList, time),
    ("$site".toList, entry.site)]

/-- The names of the variables. -/
def variableNames : List (List Char) :=
  ["$remote_addr".toList, "$method".toList, "$uri".toList,
    "$http_version".toList, "$status".toList, "$bytes_sent".toList,
    "$http_referer".toList, "$http_user_agent".toList, "$duration_ms".toList,
    "$time_local".toList, "$site".toList]

section Lines

variable
  {time : List Char}
  {entry : AccessLogEntry}
  {template : List Char}

theorem map_fst_logVariables (time : List Char) (entry : AccessLogEntry) :
    (logVariables time entry).map (·.1) = variableNames :=
  rfl

theorem marked_variableNames : Marked '$' variableNames where
  shape := by
    have begin :
        ∀ name ∈ variableNames,
          name = '$' :: name.tail ∧ '$' ∉ name.tail := by
      decide
    exact fun name member => ⟨name.tail, begin name member⟩
  apart := by
    have different :
        ∀ name ∈ variableNames, ∀ other ∈ variableNames,
          name.isPrefixOf other = true → name = other := by
      decide
    intro name member other otherMember begins
    exact
      different name member other otherMember
        (List.isPrefixOf_iff_prefix.mpr begins)
  nodup := by
    decide

theorem replaceLoop_eq
    (name value : List Char)
    (skip : Nat)
    (text : List Char) :
    replaceLoop name value skip text = replaceName name value skip text := by
  induction text generalizing skip with
  | nil =>
      cases skip <;> rfl
  | cons char rest inductionHypothesis =>
      cases skip with
      | zero =>
          rw [replaceLoop, replaceName, inductionHypothesis,
            inductionHypothesis]
      | succ skip =>
          exact inductionHypothesis skip

theorem customLine_eq (template time : List Char) (entry : AccessLogEntry) :
    customLine template time entry =
      replaceEach (logVariables time entry) template := by
  simp only [customLine, replaceEach, logVariables, List.foldl_cons,
    List.foldl_nil, ← replaceLoop_eq]
  rfl

/-! ## Templates that are stored as they are configured -/

theorem variableNames_plain :
    ∀ name ∈ variableNames,
      name.map Char.toLower = name ∧
        ∀ char ∈ name, isWhitespace char = false := by
  have checked :
      variableNames.all (fun name =>
        name.map Char.toLower == name &&
          name.all fun char => !isWhitespace char) =
        true := by
    decide
  intro name member
  have both := List.all_eq_true.mp checked name member
  rw [Bool.and_eq_true, beq_iff_eq, List.all_eq_true] at both
  exact ⟨both.1, fun char inName => by simpa using both.2 char inName⟩

/-- What is trimmed. -/
theorem exists_trim (text : List Char) :
    ∃ leading trailing,
      text = leading ++ (trim text ++ trailing) ∧
        (∀ char ∈ leading, isWhitespace char = true) ∧
        ∀ char ∈ trailing, isWhitespace char = true := by
  refine
    ⟨text.takeWhile isWhitespace,
      (text.dropWhile isWhitespace).rtakeWhile isWhitespace, ?_, ?_, ?_⟩
  · rw [trim, List.rdropWhile_append_rtakeWhile,
      List.takeWhile_append_dropWhile]
  · exact fun char member => List.mem_takeWhile_imp member
  · exact fun char member => List.mem_rtakeWhile_imp member

theorem not_mem_of_spaces
    {spaces name : List Char}
    (areSpaces : ∀ char ∈ spaces, isWhitespace char = true)
    (member : name ∈ variableNames) :
    ∀ char ∈ name, char ∉ spaces := by
  intro char inName inSpaces
  have visible := (variableNames_plain name member).2 char inName
  rw [areSpaces char inSpaces] at visible
  cases visible

theorem dollar_not_mem_of_spaces
    {spaces : List Char}
    (areSpaces : ∀ char ∈ spaces, isWhitespace char = true) :
    '$' ∉ spaces := by
  intro member
  have isSpace := areSpaces '$' member
  exact absurd isSpace (by decide)

/-- Spaces around a template have no variables. -/
theorem occurrences_trim
    {name : List Char}
    (member : name ∈ variableNames)
    (text : List Char) :
    occurrences name (trim text) = occurrences name text := by
  obtain ⟨leading, trailing, isText, leads, trails⟩ := exists_trim text
  obtain ⟨body, isName, noMark⟩ := marked_variableNames.shape name member
  have notNil : name ≠ [] :=
    isName ▸ List.cons_ne_nil '$' body
  have behind :=
    @occurrences_append_of_apart _ _ name (trim text) trailing notNil
      (not_mem_of_spaces trails member)
  have before :=
    @occurrences_of_mark_not_mem _ _ '$' body leading (trim text ++ trailing)
      (dollar_not_mem_of_spaces leads)
  rw [← isName, ← isText, behind] at before
  exact before.symm

/-- Spaces around a template are kept in one pass. -/
theorem length_substitute_trim
    {vars : List (List Char × List Char)}
    (isNames : vars.map (·.1) = variableNames)
    (text : List Char) :
    (substitute vars 0 text).length + (trim text).length =
      (substitute vars 0 (trim text)).length + text.length := by
  obtain ⟨leading, trailing, isText, leads, trails⟩ := exists_trim text
  have known : ∀ var ∈ vars, var.1 ∈ variableNames :=
    fun var member => isNames ▸ List.mem_map_of_mem member
  have shape : ∀ var ∈ vars, ∃ body, var.1 = '$' :: body := by
    intro var member
    obtain ⟨body, isName, _⟩ :=
      marked_variableNames.shape var.1 (known var member)
    exact ⟨body, isName⟩
  have behind :=
    marked_variableNames.substitute_append_of_apart known
      (fun name member => not_mem_of_spaces trails member) (trim text)
  have before :=
    @substitute_of_mark_not_mem _ _ '$' (trim text ++ trailing) vars leading
      shape (dollar_not_mem_of_spaces leads)
  rw [← isText, behind] at before
  have textLength := congrArg List.length isText
  rw [before]
  simp only [List.length_append] at textLength ⊢
  omega

theorem eq_of_fromStr
    {template stored : List Char}
    (isCustom : LogFormat.fromStr template = .custom stored) :
    stored = toAsciiLowercase (trim template) := by
  rw [LogFormat.fromStr] at isCustom
  split at isCustom
  · cases isCustom
  · split at isCustom
    · cases isCustom
    · cases isCustom
      rfl

/--
The line is the template with every variable replaced at once, and the code
replaces each variable as often as the template has it.
-/
def Faithful
    (jsonLine : AccessLogEntry → List Char)
    (time : List Char)
    (entry : AccessLogEntry)
    (template stored : List Char) :
    Prop :=
  formatEntry jsonLine time entry (.custom stored) =
      substitute (logVariables time entry) 0 template ∧
    expansions (logVariables time entry) stored =
      (logVariables time entry).map fun var => occurrences var.1 template

/--
The line of a configured template is faithful exactly if the template has no
space around it and no capital letters, and no value makes another variable
whose turn is still to come.
-/
theorem line_faithful_iff
    (jsonLine : AccessLogEntry → List Char)
    (time : List Char)
    (entry : AccessLogEntry)
    {template stored : List Char}
    (isCustom : LogFormat.fromStr template = .custom stored) :
    Faithful jsonLine time entry template stored ↔
      toAsciiLowercase (trim template) = template ∧
        Literal (logVariables time entry) template := by
  have isStored := eq_of_fromStr isCustom
  have marked :
      Marked '$' ((logVariables time entry).map (·.1)) :=
    marked_variableNames
  have known :
      ∀ var ∈ logVariables time entry, var.1 ∈ variableNames :=
    fun var member => List.mem_map_of_mem member
  rw [Faithful, formatEntry, customLine_eq]
  constructor
  · rintro ⟨isLine, counted⟩
    have few :
        ∀ var ∈ logVariables time entry,
          occurrences var.1 template ≤ occurrences var.1 stored := by
      intro var member
      rw [← occurrences_trim (known var member) template, isStored]
      exact
        occurrences_le_map (variableNames_plain var.1 (known var member)).1
          (trim template)
    have sameCounts :=
      marked.occurrences_eq_of_expansions few counted
    have literal : Literal (logVariables time entry) stored := by
      rw [← marked.expansions_eq_iff stored, counted]
      exact List.map_congr_left sameCounts
    rw [marked.replaceEach_eq literal] at isLine
    have sameTrimmed :
        ∀ name ∈ variableNames,
          occurrences name (trim template) =
            occurrences name ((trim template).map Char.toLower) := by
      intro name member
      obtain ⟨var, isVar, rfl⟩ :=
        List.mem_map.mp
          ((map_fst_logVariables time entry).symm ▸ member :
            name ∈ (logVariables time entry).map (·.1))
      rw [occurrences_trim member, sameCounts var isVar, isStored,
        toAsciiLowercase]
    obtain ⟨sameLength, sameText⟩ :=
      marked_variableNames.substitute_map (map_fst_logVariables time entry)
        (fun name member => (variableNames_plain name member).1) sameTrimmed
    have around :=
      length_substitute_trim (map_fst_logVariables time entry) template
    rw [← isLine, isStored, toAsciiLowercase, sameLength] at around
    have notTrimmed : trim template = template := by
      obtain ⟨leading, trailing, isText, _⟩ := exists_trim template
      have lengths := congrArg List.length isText
      simp only [List.length_append] at lengths
      have noLeading : leading = [] :=
        List.eq_nil_of_length_eq_zero (by omega)
      have noTrailing : trailing = [] :=
        List.eq_nil_of_length_eq_zero (by omega)
      rw [noLeading, noTrailing, List.nil_append, List.append_nil] at isText
      exact isText.symm
    have isTemplate : toAsciiLowercase (trim template) = template := by
      rw [isStored, toAsciiLowercase, notTrimmed] at isLine
      rw [notTrimmed] at sameText
      rw [toAsciiLowercase, notTrimmed]
      exact sameText isLine
    rw [isStored, isTemplate] at literal
    exact ⟨isTemplate, literal⟩
  · rintro ⟨isTemplate, literal⟩
    rw [isStored, isTemplate]
    exact
      ⟨marked.replaceEach_eq literal,
        (marked.expansions_eq_iff template).mpr literal⟩

/-- An entry of a site, for a path. -/
def siteEntry (uri : String) : AccessLogEntry where
  clientIp := "10.0.0.1".toList
  method := "GET".toList
  uri := uri.toList
  httpVersion := "HTTP/1.1".toList
  status := 200
  bytesSent := 5
  referer := "-".toList
  userAgent := "-".toList
  durationMs := 3
  site := "demo".toList

/-- A path without a variable in it. -/
theorem line_faithful_plain_path :
    Faithful (fun _ => []) "now".toList (siteEntry "/a")
      "$method $uri".toList "$method $uri".toList := by
  refine
    (line_faithful_iff (fun _ => []) "now".toList (siteEntry "/a")
      (by decide)).mpr ⟨by decide, ?_⟩
  have marked :
      Marked '$'
        ((logVariables "now".toList (siteEntry "/a")).map (·.1)) :=
    marked_variableNames
  rw [← marked.expansions_eq_iff]
  decide

/--
Where the client asks for the path `/$status` the line of the template `$uri`
has the status, and capital letters of a template are written small.
-/
theorem log_template_expands_client_text :
    LogFormat.fromStr "$uri".toList = .custom "$uri".toList ∧
      formatEntry (fun _ => []) "now".toList (siteEntry "/$status")
          (.custom "$uri".toList) =
        "/200".toList ∧
      substitute (logVariables "now".toList (siteEntry "/$status")) 0
          "$uri".toList =
        "/$status".toList ∧
      ¬Faithful (fun _ => []) "now".toList (siteEntry "/$status")
        "$uri".toList "$uri".toList ∧
      LogFormat.fromStr "Status $status".toList =
        .custom "status $status".toList ∧
      ¬Faithful (fun _ => []) "now".toList (siteEntry "/")
        "Status $status".toList "status $status".toList := by
  refine ⟨by decide, by decide, by decide, ?_, by decide, ?_⟩
  · rintro ⟨isLine, _⟩
    exact absurd isLine (by decide)
  · rintro ⟨isLine, _⟩
    exact absurd isLine (by decide)

end Lines

end Sweety.AccessLog
