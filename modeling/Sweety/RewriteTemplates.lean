import Sweety.PairReplacement
import Sweety.Rewrite

namespace Sweety.Rewrite

open HttpText PairReplacement

/-!
# Templates of rewrite rules

`regex_replace` replaces one placeholder after the other in the same text, so
that a placeholder in a captured text, or one that a captured text makes with
what stands beside it, is replaced as well if its turn is still to come.
-/

/-- The groups of a match. -/
abbrev Groups :=
  Nat → Option (List Char)

/-- Replace the placeholders with a number below the bound, in one pass. -/
def substituteBelow (groups : Groups) (bound : Nat) :
    List Char → List Char
  | first :: second :: rest =>
      if first = '$' then
        match digitValue? 10 second with
        | some index =>
            if index < bound then
              (groups index).getD [] ++ substituteBelow groups bound rest
            else
              first :: second :: substituteBelow groups bound rest
        | none =>
            first :: substituteBelow groups bound (second :: rest)
      else
        first :: substituteBelow groups bound (second :: rest)
  | [char] =>
      [char]
  | [] =>
      []

/-- The template with every placeholder replaced at once. -/
def substitute (groups : Groups) (template : List Char) : List Char :=
  substituteBelow groups 10 template

/-- How often the placeholder of a group stands in a text. -/
def mentions (index : Nat) (text : List Char) : Nat :=
  occurrences '$' (Nat.digitChar index) text

section Digits

theorem placeholder_eq :
    ∀ index < 10, placeholder index = ['$', Nat.digitChar index] := by
  decide

theorem digitChar_of_digitValue?
    {char : Char}
    {index : Nat}
    (isDigit : digitValue? 10 char = some index) :
    index < 10 ∧ char = Nat.digitChar index := by
  have ofDigit :
      ∀ code < 58, 48 ≤ code →
        Char.ofNat code = Nat.digitChar (code - 48) := by
    decide
  obtain ⟨isValue, small⟩ := Option.filter_eq_some_iff.mp isDigit
  rw [decide_eq_true_iff] at small
  refine ⟨small, ?_⟩
  split at isValue
  · rename_i within
    have least : 48 ≤ char.toNat := within.1
    have most : char.toNat ≤ 57 := within.2
    cases isValue
    calc
      char = Char.ofNat char.toNat := (Char.ofNat_toNat char).symm
      _ = Nat.digitChar (char.toNat - 48) :=
        ofDigit char.toNat (by omega) least
  · split at isValue
    · cases isValue
      omega
    · split at isValue
      · cases isValue
        omega
      · nomatch isValue

theorem digitChar_injective :
    ∀ first < 10, ∀ second < 10,
      Nat.digitChar first = Nat.digitChar second → first = second := by
  decide

theorem digitChar_ne_dollar :
    ∀ index < 10, Nat.digitChar index ≠ '$' := by
  decide

end Digits

section Loops

variable
  {groups : Groups}
  {text template replacement : List Char}
  {index : Nat}

theorem replaceLoop_eq_replacePair (first second : Char) :
    replaceLoop [first, second] replacement 0 text =
      replacePair first second replacement text := by
  induction text using replacePair.induct first second with
  | case1 one two rest isPair inductionHypothesis =>
      obtain ⟨rfl, rfl⟩ := isPair
      rw [replacePair_pair, ← inductionHypothesis, replaceLoop,
        if_pos (by simp)]
      rfl
  | case2 one two rest notPair inductionHypothesis =>
      have notPrefix :
          ¬[first, second].isPrefixOf (one :: two :: rest) = true := by
        rw [List.isPrefixOf_iff_prefix]
        intro isPrefix
        obtain ⟨tail, same⟩ := isPrefix
        cases same
        exact notPair ⟨rfl, rfl⟩
      rw [replacePair, if_neg notPair, replaceLoop, if_neg notPrefix,
        inductionHypothesis]
  | case3 one =>
      have notPrefix : ¬[first, second].isPrefixOf [one] = true := by
        rw [List.isPrefixOf_iff_prefix]
        intro isPrefix
        have isLonger := isPrefix.length_le
        simp at isLonger
      rw [replaceLoop, if_neg notPrefix]
      rfl
  | case4 =>
      rfl

theorem replace_placeholder (small : index < 10) :
    replace (placeholder index) replacement text =
      replacePair '$' (Nat.digitChar index) replacement text := by
  rw [placeholder_eq index small]
  exact replaceLoop_eq_replacePair '$' (Nat.digitChar index)

theorem contains_placeholder_iff (small : index < 10) :
    contains text (placeholder index) = true ↔ mentions index text ≠ 0 := by
  rw [placeholder_eq index small, contains, mentions]
  induction text with
  | nil =>
      simp [occurrences]
  | cons one rest inductionHypothesis =>
      have isStart :
          ['$', Nat.digitChar index].isPrefixOf (one :: rest) = true ↔
            Straddles '$' (Nat.digitChar index) [one] rest := by
        cases rest with
        | nil =>
            simp [Straddles]
        | cons two others =>
            simp [Straddles, @eq_comm _ '$', @eq_comm _ (Nat.digitChar _)]
      rw [List.tails, List.any_cons, Bool.or_eq_true,
        inductionHypothesis, isStart, occurrences_cons]
      by_cases straddles : Straddles '$' (Nat.digitChar index) [one] rest
      · simp [straddles]
      · simp [straddles]

end Loops

/-! ## Parts of a template -/

/-- A text as placeholders and other characters. -/
inductive Template : List Char → Prop where
  | nil :
      Template []
  | group
      {index : Nat}
      {rest : List Char}
      (small : index < 10)
      (others : Template rest) :
      Template ('$' :: Nat.digitChar index :: rest)
  | char
      {first : Char}
      {rest : List Char}
      (plain :
        ∀ index < 10,
          ¬Straddles '$' (Nat.digitChar index) [first] rest)
      (others : Template rest) :
      Template (first :: rest)

theorem template_of_text (text : List Char) : Template text := by
  induction isLength : text.length using Nat.strongRecOn generalizing text with
  | ind length inductionHypothesis =>
      cases text with
      | nil =>
          exact .nil
      | cons first rest =>
          rw [List.length_cons] at isLength
          by_cases isGroup :
              ∃ index < 10, Straddles '$' (Nat.digitChar index) [first] rest
          · obtain ⟨index, small, isFirst, isHead⟩ := isGroup
            obtain ⟨others, rfl⟩ := List.head?_eq_some_iff.mp isHead
            cases isFirst
            rw [List.length_cons] at isLength
            exact .group small
              (inductionHypothesis others.length (by omega) others rfl)
          · refine .char ?_
              (inductionHypothesis rest.length (by omega) rest rfl)
            intro index small straddles
            exact isGroup ⟨index, small, straddles⟩

section Template

variable
  {groups : Groups}
  {bound index : Nat}
  {first : Char}
  {rest text : List Char}

theorem substituteBelow_group (small : index < 10) :
    substituteBelow groups bound ('$' :: Nat.digitChar index :: rest) =
      (if index < bound then
          (groups index).getD []
        else
          ['$', Nat.digitChar index]) ++
        substituteBelow groups bound rest := by
  rw [substituteBelow, if_pos rfl,
    digitValue?_digitChar 10 (by decide) index small]
  dsimp only
  split
  · rfl
  · rfl

theorem substituteBelow_char
    (plain :
      ∀ index < 10, ¬Straddles '$' (Nat.digitChar index) [first] rest) :
    substituteBelow groups bound (first :: rest) =
      first :: substituteBelow groups bound rest := by
  cases rest with
  | nil =>
      rfl
  | cons second others =>
      rw [substituteBelow]
      split
      · rename_i isDollar
        cases isDigit : digitValue? 10 second with
        | none =>
            rfl
        | some index =>
            obtain ⟨small, isSecond⟩ := digitChar_of_digitValue? isDigit
            subst isDollar isSecond
            exact absurd ⟨rfl, rfl⟩ (plain index small)
      · rfl

theorem mentions_group
    {asked : Nat}
    (small : index < 10)
    (askedSmall : asked < 10) :
    mentions asked ('$' :: Nat.digitChar index :: rest) =
      (if index = asked then 1 else 0) + mentions asked rest := by
  have notDollar :
      ¬Straddles '$' (Nat.digitChar asked) [Nat.digitChar index] rest := by
    rintro ⟨isLast, -⟩
    exact digitChar_ne_dollar index small (Option.some.inj isLast)
  have same :
      Straddles '$' (Nat.digitChar asked) ['$']
          (Nat.digitChar index :: rest) ↔
        index = asked := by
    constructor
    · rintro ⟨-, isHead⟩
      exact digitChar_injective index small asked askedSmall
        (Option.some.inj isHead)
    · rintro rfl
      exact ⟨rfl, rfl⟩
  rw [mentions, mentions, occurrences_cons, occurrences_cons,
    if_neg notDollar, Nat.zero_add]
  simp only [same]

theorem mentions_char
    (plain : ¬Straddles '$' (Nat.digitChar index) [first] rest) :
    mentions index (first :: rest) = mentions index rest := by
  rw [mentions, occurrences_cons, if_neg plain, Nat.zero_add]
  rfl

theorem mentions_append (front : List Char) :
    mentions index (front ++ rest) =
      mentions index front +
        (if Straddles '$' (Nat.digitChar index) front rest then 1 else 0) +
          mentions index rest :=
  occurrences_append front rest

/-- The own placeholders of a template are kept until their turn. -/
theorem mentions_le_substituteBelow
    (small : index < 10)
    (notYet : bound ≤ index)
    (template : Template text) :
    mentions index text ≤
      mentions index (substituteBelow groups bound text) := by
  induction template with
  | nil =>
      exact Nat.le_refl _
  | group groupSmall others inductionHypothesis =>
      rename_i number rest
      rw [substituteBelow_group groupSmall, mentions_group groupSmall small]
      split
      · rename_i isIndex
        subst isIndex
        rw [if_neg (by omega), List.cons_append, List.cons_append,
          List.nil_append, mentions_group groupSmall small, if_pos rfl]
        omega
      · rw [mentions_append]
        omega
  | char plain others inductionHypothesis =>
      rename_i one rest
      rw [substituteBelow_char plain, mentions_char (plain index small)]
      have split := @mentions_append index
        (substituteBelow groups bound rest) [one]
      rw [List.singleton_append] at split
      omega

/--
Replacing one more placeholder in turn is replacing it at once, if the text so
far has no placeholder of this number besides those of the template.
-/
theorem replacePair_substituteBelow
    (small : index < 10)
    (template : Template text)
    (literal :
      mentions index (substituteBelow groups index text) =
        mentions index text) :
    replacePair '$' (Nat.digitChar index) ((groups index).getD [])
        (substituteBelow groups index text) =
      substituteBelow groups (index + 1) text := by
  induction template with
  | nil =>
      rfl
  | group groupSmall others inductionHypothesis =>
      rename_i number rest
      have atLeast :=
        @mentions_le_substituteBelow groups index index rest small
          (Nat.le_refl _) others
      rw [substituteBelow_group groupSmall] at literal ⊢
      rw [substituteBelow_group groupSmall]
      rw [mentions_group groupSmall small] at literal
      by_cases isIndex : number = index
      · subst isIndex
        rw [if_neg (Nat.lt_irrefl _), if_pos rfl, List.cons_append,
          List.cons_append, List.nil_append,
          mentions_group groupSmall small, if_pos rfl] at literal
        rw [if_neg (Nat.lt_irrefl _), if_pos (Nat.lt_succ_self _),
          List.cons_append, List.cons_append, List.nil_append,
          replacePair_pair, inductionHypothesis (by omega)]
      · rw [if_neg isIndex, mentions_append] at literal
        have sameTurn : number < index ↔ number < index + 1 := by
          omega
        have noOwn :
            mentions index
                (if number < index then (groups number).getD []
                  else ['$', Nat.digitChar number]) = 0 := by
          omega
        have notStraddles :
            ¬Straddles '$' (Nat.digitChar index)
                (if number < index then (groups number).getD []
                  else ['$', Nat.digitChar number])
                (substituteBelow groups index rest) := by
          intro straddles
          rw [if_pos straddles] at literal
          omega
        rw [replacePair_append noOwn notStraddles,
          inductionHypothesis (by omega)]
        simp only [sameTurn]
  | char plain others inductionHypothesis =>
      rename_i one rest
      have atLeast :=
        @mentions_le_substituteBelow groups index index rest small
          (Nat.le_refl _) others
      rw [substituteBelow_char plain, mentions_char (plain index small),
        ← List.singleton_append, mentions_append] at literal
      have notStraddles :
          ¬Straddles '$' (Nat.digitChar index) [one]
              (substituteBelow groups index rest) := by
        intro straddles
        rw [if_pos straddles] at literal
        omega
      rw [substituteBelow_char plain, substituteBelow_char plain,
        ← List.singleton_append, replacePair_append rfl notStraddles,
        inductionHypothesis (by omega)]
      rfl

end Template

/-! ## The loop -/

/-- One turn of the loop of `regex_replace`. -/
def replaceGroup (groups : Groups) (result : List Char) (index : Nat) :
    List Char :=
  if contains result (placeholder index) then
    replace (placeholder index) ((groups index).getD []) result
  else
    result

/-- What `regex_replace` does before its loop. -/
def replaceWhole (groups : Groups) (template : List Char) : List Char :=
  match groups 0 with
  | some text =>
      replace (placeholder 0) text template
  | none =>
      template

/--
Nothing but the template's own placeholders is ever replaced: when the turn of a
number comes, the text has no more placeholders of it than the template, and the
whole match is there if the template asks for it.
-/
structure Literal (groups : Groups) (template : List Char) : Prop where
  whole : groups 0 = none → mentions 0 template = 0
  inTurn :
    ∀ index < 10,
      mentions index (substituteBelow groups index template) =
        mentions index template

section Loop

variable
  {groups : Groups}
  {text template : List Char}
  {index : Nat}

theorem replaceGroup_eq (small : index < 10) :
    replaceGroup groups text index =
      replacePair '$' (Nat.digitChar index) ((groups index).getD []) text := by
  unfold replaceGroup
  by_cases contained : contains text (placeholder index) = true
  · rw [if_pos contained, replace_placeholder small]
  · rw [if_neg contained]
    have none_ : mentions index text = 0 := by
      by_contra some_
      exact contained ((contains_placeholder_iff small).mpr some_)
    rw [replacePair_of_none none_]

theorem substituteBelow_zero (template : Template text) :
    substituteBelow groups 0 text = text := by
  induction template with
  | nil =>
      rfl
  | group small others inductionHypothesis =>
      rw [substituteBelow_group small, if_neg (Nat.not_lt_zero _),
        inductionHypothesis]
      rfl
  | char plain others inductionHypothesis =>
      rw [substituteBelow_char plain, inductionHypothesis]

/-- The loop over further numbers substitutes them too. -/
theorem foldl_replaceGroup
    (literal : Literal groups template)
    (count start : Nat)
    (small : start + count ≤ 10) :
    (List.range' start count).foldl (replaceGroup groups)
        (substituteBelow groups start template) =
      substituteBelow groups (start + count) template := by
  induction count generalizing start with
  | zero =>
      rfl
  | succ count inductionHypothesis =>
      have inRange : start < 10 := by
        omega
      rw [List.range'_succ, List.foldl_cons, replaceGroup_eq inRange,
        replacePair_substituteBelow inRange (template_of_text template)
          (literal.inTurn start inRange),
        inductionHypothesis (start + 1) (by omega)]
      congr 1
      omega

theorem regexReplace_eq
    {regex : Regex}
    {input : List Char}
    (isMatch : regex.captures input = some groups)
    (template : List Char) :
    regexReplace regex input template =
      (List.range' 1 9).foldl (replaceGroup groups)
        (replaceWhole groups template) := by
  unfold regexReplace replaceWhole
  rw [isMatch]
  dsimp only
  cases groups 0 with
  | none =>
      rfl
  | some text =>
      rfl

theorem replaceWhole_eq (literal : Literal groups template) :
    replaceWhole groups template = substituteBelow groups 1 template := by
  have parts := template_of_text template
  have turn :=
    replacePair_substituteBelow (by decide) parts
      (literal.inTurn 0 (by decide))
  rw [substituteBelow_zero parts] at turn
  rw [← turn]
  unfold replaceWhole
  cases isWhole : groups 0 with
  | none =>
      exact (replacePair_of_none (literal.whole isWhole)).symm
  | some text =>
      exact replace_placeholder (by decide)

/-- Where only own placeholders are replaced, the result is as if at once. -/
theorem regexReplace_of_literal
    {regex : Regex}
    {input : List Char}
    (isMatch : regex.captures input = some groups)
    (literal : Literal groups template) :
    regexReplace regex input template = substitute groups template := by
  rw [regexReplace_eq isMatch, replaceWhole_eq literal]
  exact foldl_replaceGroup literal 9 1 (by decide)

end Loop

/-! ## Templates that are safe for every match -/

/-- The template refers to no group but the ninth. -/
def OnlyLast (template : List Char) : Prop :=
  ∀ index < 9, mentions index template = 0

section Safe

variable
  {groups : Groups}
  {text template : List Char}
  {index bound : Nat}

theorem substituteBelow_of_no_mention
    (none_ : ∀ index < bound, mentions index text = 0)
    (small : bound ≤ 10)
    (template : Template text) :
    substituteBelow groups bound text = text := by
  induction template with
  | nil =>
      rfl
  | group groupSmall others inductionHypothesis =>
      rename_i number rest
      have noneRest : ∀ index < bound, mentions index rest = 0 := by
        intro index below
        have noneHere := none_ index below
        rw [mentions_group groupSmall (by omega)] at noneHere
        omega
      have notBelow : ¬number < bound := by
        intro below
        have noneHere := none_ number below
        rw [mentions_group groupSmall groupSmall, if_pos rfl] at noneHere
        omega
      rw [substituteBelow_group groupSmall, if_neg notBelow,
        inductionHypothesis noneRest]
      rfl
  | char plain others inductionHypothesis =>
      rename_i one rest
      have noneRest : ∀ index < bound, mentions index rest = 0 := by
        intro index below
        rw [← mentions_char (plain index (by omega))]
        exact none_ index below
      rw [substituteBelow_char plain, inductionHypothesis noneRest]

theorem literal_of_onlyLast (onlyLast : OnlyLast template) :
    Literal groups template := by
  constructor
  · intro _
    exact onlyLast 0 (by decide)
  · intro index small
    rw [substituteBelow_of_no_mention _ (by omega)
      (template_of_text template)]
    intro other below
    exact onlyLast other (by omega)

/-- After the last turn its placeholder is gone. -/
theorem mentions_last
    {result : List Char}
    (isLetter : groups 9 = some ['x']) :
    mentions 9 (replaceGroup groups result 9) = 0 := by
  rw [replaceGroup_eq (by decide), isLetter]
  exact occurrences_replacePair (by decide) (by decide) result

/-- A group that holds a placeholder brings it into the text. -/
theorem mentions_le_substitute
    (small : index < 9)
    (isPlaceholder : groups index = some ['$', '9'])
    (template : Template text) :
    mentions index text ≤ mentions 9 (substitute groups text) := by
  unfold substitute
  induction template with
  | nil =>
      exact Nat.le_refl _
  | group groupSmall others inductionHypothesis =>
      rename_i number rest
      rw [substituteBelow_group groupSmall, if_pos groupSmall,
        mentions_group groupSmall (by omega), mentions_append]
      split
      · rename_i isIndex
        subst isIndex
        rw [isPlaceholder]
        have one : mentions 9 ((some ['$', '9']).getD []) = 1 := by
          decide
        omega
      · omega
  | char plain others inductionHypothesis =>
      rename_i one rest
      rw [substituteBelow_char plain, mentions_char (plain index (by omega)),
        ← List.singleton_append, mentions_append]
      omega

end Safe

/-- Every match is substituted into the template at once. -/
def SubstitutedAtOnce (template : List Char) : Prop :=
  ∀ (regex : Regex) (input : List Char) (groups : Groups),
    regex.captures input = some groups →
      regexReplace regex input template = substitute groups template

/-- Groups of which all but the last hold the placeholder of the last. -/
def referring : Groups :=
  fun index => if index = 9 then some ['x'] else some ['$', '9']

theorem onlyLast_of_substitutedAtOnce
    {template : List Char}
    (atOnce : SubstitutedAtOnce template) :
    OnlyLast template := by
  intro index small
  have result :=
    atOnce ⟨fun _ => true, fun _ => some referring⟩ [] referring rfl
  rw [regexReplace_eq rfl] at result
  have lastTurn :
      List.range' 1 9 = List.range' 1 8 ++ [9] :=
    rfl
  rw [lastTurn, List.foldl_append, List.foldl_cons, List.foldl_nil] at result
  have noneLeft := @mentions_last referring
    ((List.range' 1 8).foldl (replaceGroup referring)
      (replaceWhole referring template)) rfl
  rw [result] at noneLeft
  have isPlaceholder : referring index = some ['$', '9'] := by
    rw [referring, if_neg (by omega)]
  have atLeast := mentions_le_substitute small isPlaceholder
    (template_of_text template)
  omega

/--
A template is substituted at once for every match just if it refers to no group
but the ninth; for one match, it is if nothing but its own placeholders is
replaced.
-/
theorem substitutedAtOnce_iff (template : List Char) :
    (SubstitutedAtOnce template ↔ OnlyLast template) ∧
      ∀ (regex : Regex) (input : List Char) (groups : Groups),
        regex.captures input = some groups →
          Literal groups template →
            regexReplace regex input template =
              substitute groups template := by
  refine ⟨⟨onlyLast_of_substitutedAtOnce, ?_⟩, ?_⟩
  · intro onlyLast regex input groups isMatch
    exact regexReplace_of_literal isMatch (literal_of_onlyLast onlyLast)
  · intro regex input groups isMatch literal
    exact regexReplace_of_literal isMatch literal

/-- The groups of `^/([^/]*)/(.*)$` in `/$2/b`. -/
def capturedDollar : Groups
  | 0 =>
      some "/$2/b".toList
  | 1 =>
      some "$2".toList
  | 2 =>
      some "b".toList
  | _ =>
      none

/-- A captured `$2` is replaced by the second group. -/
theorem not_substitutedAtOnce_two :
    regexReplace ⟨fun _ => true, fun _ => some capturedDollar⟩
        "/$2/b".toList "/$1/$2".toList =
      "/b/b".toList ∧
    substitute capturedDollar "/$1/$2".toList = "/$2/b".toList ∧
    ¬SubstitutedAtOnce "/$1/$2".toList := by
  refine ⟨by decide, by decide, fun atOnce => ?_⟩
  have onlyLast := onlyLast_of_substitutedAtOnce atOnce
  exact absurd (onlyLast 1 (by decide)) (by decide)

end Sweety.Rewrite
