import Mathlib.Data.List.Basic
import Mathlib.Data.List.Find
import Mathlib.Logic.Function.Basic
import Mathlib.Tactic.Common

/-!
# Replacing names one after the other

The names of a template begin with a mark that stands nowhere else in them, and
none begins with another.  `replaceName` replaces one name everywhere, and
`substitute` all names at once, from left to right.  Replacing them one after
the other comes to the same if, when its turn comes, each name stands in the
text so far only where the template has it.
-/

namespace MarkedNames

variable {α : Type} [DecidableEq α]

/-- How often a name stands in a text. -/
def occurrences (name : List α) : List α → Nat
  | [] =>
      0
  | item :: rest =>
      (if name.isPrefixOf (item :: rest) then 1 else 0) +
        occurrences name rest

/-- Replace a name; the items to skip are passed. -/
def replaceName (name value : List α) : Nat → List α → List α
  | _, [] =>
      []
  | skip + 1, _ :: rest =>
      replaceName name value skip rest
  | 0, item :: rest =>
      if name.isPrefixOf (item :: rest) then
        value ++ replaceName name value (name.length - 1) rest
      else
        item :: replaceName name value 0 rest

/-- Replace all names in one pass; the items to skip are passed. -/
def substitute (vars : List (List α × List α)) : Nat → List α → List α
  | _, [] =>
      []
  | skip + 1, _ :: rest =>
      substitute vars skip rest
  | 0, item :: rest =>
      match vars.find? fun var => var.1.isPrefixOf (item :: rest) with
      | some var =>
          var.2 ++ substitute vars (var.1.length - 1) rest
      | none =>
          item :: substitute vars 0 rest

/-- Replace the names one after the other. -/
def replaceEach (vars : List (List α × List α)) (text : List α) : List α :=
  vars.foldl (fun text var => replaceName var.1 var.2 0 text) text

/-- How often each name is replaced. -/
def expansions : List (List α × List α) → List α → List Nat
  | [], _ =>
      []
  | var :: rest, text =>
      occurrences var.1 text ::
        expansions rest (replaceName var.1 var.2 0 text)

/-- When its turn comes, each name stands only where the template has it. -/
def Literal (vars : List (List α × List α)) (template : List α) : Prop :=
  ∀ done var rest,
    vars = done ++ var :: rest →
    occurrences var.1 (substitute done 0 template) =
      occurrences var.1 template

/-- Names with a mark, none of which begins with another. -/
structure Marked (mark : α) (names : List (List α)) : Prop where
  shape : ∀ name ∈ names, ∃ body, name = mark :: body ∧ mark ∉ body
  apart :
    ∀ name ∈ names, ∀ other ∈ names, name <+: other → name = other
  nodup : names.Nodup

/-! ## Names in a text of two parts -/

section Parts

variable
  {mark : α}
  {name body value front rest : List α}

/-- What comes before a text takes no occurrence away. -/
theorem occurrences_le_append (name front rest : List α) :
    occurrences name rest ≤ occurrences name (front ++ rest) := by
  induction front with
  | nil =>
      exact Nat.le_refl _
  | cons item others inductionHypothesis =>
      rw [List.cons_append, occurrences]
      omega

theorem replaceName_skip (passed : List α) :
    replaceName name value passed.length (passed ++ rest) =
      replaceName name value 0 rest := by
  induction passed with
  | nil =>
      rfl
  | cons item others inductionHypothesis =>
      exact inductionHypothesis

theorem replaceName_append (notNil : name ≠ []) :
    replaceName name value 0 (name ++ rest) =
      value ++ replaceName name value 0 rest := by
  obtain ⟨item, others, rfl⟩ := List.exists_cons_of_ne_nil notNil
  have begins :
      (item :: others).isPrefixOf (item :: (others ++ rest)) = true := by
    rw [List.isPrefixOf_iff_prefix]
    exact List.prefix_append (item :: others) rest
  rw [List.cons_append, replaceName, if_pos begins]
  exact congrArg (value ++ ·) (replaceName_skip others)

/-- A part that begins no occurrence is kept. -/
theorem replaceName_of_no_more
    (noMore :
      occurrences name (front ++ rest) = occurrences name rest) :
    replaceName name value 0 (front ++ rest) =
      front ++ replaceName name value 0 rest := by
  induction front with
  | nil =>
      rfl
  | cons item others inductionHypothesis =>
      have later := occurrences_le_append name others rest
      rw [List.cons_append, occurrences] at noMore
      have notHere : ¬name.isPrefixOf (item :: (others ++ rest)) = true := by
        intro isHere
        rw [if_pos isHere] at noMore
        omega
      rw [if_neg notHere, Nat.zero_add] at noMore
      rw [List.cons_append, replaceName, if_neg notHere,
        inductionHypothesis noMore, List.cons_append]

/-- Nothing begins where the mark does not stand. -/
theorem not_isPrefixOf_of_ne
    {item : α}
    (differs : item ≠ mark) :
    ¬(mark :: body).isPrefixOf (item :: rest) = true := by
  rw [List.isPrefixOf_iff_prefix, List.cons_prefix_cons]
  exact fun both => differs both.1.symm

theorem occurrences_of_mark_not_mem
    (noMark : mark ∉ front) :
    occurrences (mark :: body) (front ++ rest) =
      occurrences (mark :: body) rest := by
  induction front with
  | nil =>
      rfl
  | cons item others inductionHypothesis =>
      have differs : item ≠ mark :=
        fun same => noMark (same ▸ List.mem_cons_self)
      rw [List.cons_append, occurrences, if_neg (not_isPrefixOf_of_ne differs),
        Nat.zero_add,
        inductionHypothesis fun inOthers =>
          noMark (List.mem_cons_of_mem item inOthers)]

/-- A name in front is one more occurrence of it. -/
theorem occurrences_self_append
    (noMark : mark ∉ body) :
    occurrences (mark :: body) (mark :: body ++ rest) =
      1 + occurrences (mark :: body) rest := by
  have begins :
      (mark :: body).isPrefixOf (mark :: (body ++ rest)) = true := by
    rw [List.isPrefixOf_iff_prefix]
    exact List.prefix_append (mark :: body) rest
  rw [List.cons_append, occurrences, if_pos begins,
    occurrences_of_mark_not_mem noMark]

end Parts

/-! ## Templates as tokens -/

/-- A part of a template: an item, or a name. -/
inductive Token (α : Type) where
  | plain (item : α)
  | named (name : List α)

/-- The text of a token where the names have texts. -/
def Token.text (texts : List α → List α) : Token α → List α
  | .plain item =>
      [item]
  | .named name =>
      texts name

/-- The text of a template where the names have texts. -/
def expand (texts : List α → List α) (tokens : List (Token α)) : List α :=
  tokens.flatMap (·.text texts)

/-- How often a template has a name. -/
def mentions (name : List α) : List (Token α) → Nat
  | [] =>
      0
  | .plain _ :: rest =>
      mentions name rest
  | .named other :: rest =>
      (if other = name then 1 else 0) + mentions name rest

section Tokens

variable
  {mark : α}
  {body value : List α}
  {texts : List α → List α}
  {tokens : List (Token α)}

/-- A name that still stands for itself occurs where the template has it. -/
theorem mentions_le_occurrences
    (noMark : mark ∉ body)
    (itself : texts (mark :: body) = mark :: body)
    (tokens : List (Token α)) :
    mentions (mark :: body) tokens ≤
      occurrences (mark :: body) (expand texts tokens) := by
  induction tokens with
  | nil =>
      exact Nat.le_refl _
  | cons token rest inductionHypothesis =>
      have later :=
        occurrences_le_append (mark :: body) (token.text texts)
          (expand texts rest)
      change _ ≤ occurrences _ (token.text texts ++ expand texts rest)
      cases token with
      | plain item =>
          exact Nat.le_trans inductionHypothesis later
      | named other =>
          rw [mentions]
          split
          · rename_i same
            subst same
            rw [Token.text, itself, occurrences_self_append noMark]
            exact Nat.add_le_add_left inductionHypothesis 1
          · rw [Nat.zero_add]
            exact Nat.le_trans inductionHypothesis later

/--
Where a name occurs only as the template has it, replacing it gives it its
value in the template.
-/
theorem replaceName_expand
    (noMark : mark ∉ body)
    (itself : texts (mark :: body) = mark :: body)
    (noMore :
      occurrences (mark :: body) (expand texts tokens) =
        mentions (mark :: body) tokens) :
    replaceName (mark :: body) value 0 (expand texts tokens) =
      expand (Function.update texts (mark :: body) value) tokens := by
  induction tokens with
  | nil =>
      rfl
  | cons token rest inductionHypothesis =>
      have least := mentions_le_occurrences noMark itself rest
      have later :=
        occurrences_le_append (mark :: body) (token.text texts)
          (expand texts rest)
      change occurrences _ (token.text texts ++ expand texts rest) = _ at noMore
      change replaceName _ _ _ (token.text texts ++ expand texts rest) =
        Token.text _ token ++ expand _ rest
      cases token with
      | plain item =>
          rw [mentions] at noMore
          rw [replaceName_of_no_more (by omega),
            inductionHypothesis (by omega)]
          rfl
      | named other =>
          rw [mentions] at noMore
          by_cases same : other = mark :: body
          · subst same
            rw [if_pos rfl, Token.text, itself,
              occurrences_self_append noMark] at noMore
            rw [Token.text, itself,
              replaceName_append (List.cons_ne_nil mark body),
              inductionHypothesis (by omega), Token.text,
              Function.update_self]
          · rw [if_neg same, Nat.zero_add] at noMore
            rw [replaceName_of_no_more (by omega),
              inductionHypothesis (by omega), Token.text, Token.text,
              Function.update_of_ne same]

end Tokens

/-! ## The tokens of a text -/

/-- The text of a name among values, or else itself. -/
def valueOf (vars : List (List α × List α)) (name : List α) : List α :=
  ((vars.find? fun var => var.1 == name).map (·.2)).getD name

section Texts

variable
  {mark : α}
  {names : List (List α)}
  {name other rest : List α}
  {vars : List (List α × List α)}

theorem Marked.eq_of_isPrefixOf
    (marked : Marked mark names)
    (member : name ∈ names)
    (otherMember : other ∈ names)
    (begins : other.isPrefixOf (name ++ rest) = true) :
    other = name := by
  rw [List.isPrefixOf_iff_prefix] at begins
  rcases List.prefix_or_prefix_of_prefix begins (List.prefix_append name rest)
    with shorter | longer
  · exact marked.apart other otherMember name member shorter
  · exact (marked.apart name member other otherMember longer).symm

/-- One name in front is an occurrence of that name alone. -/
theorem Marked.occurrences_append
    (marked : Marked mark names)
    (member : name ∈ names)
    (otherMember : other ∈ names)
    (rest : List α) :
    occurrences other (name ++ rest) =
      (if name = other then 1 else 0) + occurrences other rest := by
  obtain ⟨body, rfl, noMark⟩ := marked.shape name member
  obtain ⟨otherBody, rfl, otherNoMark⟩ := marked.shape other otherMember
  by_cases same : mark :: body = mark :: otherBody
  · rw [if_pos same, same, occurrences_self_append otherNoMark]
  · have notHere :
        ¬(mark :: otherBody).isPrefixOf (mark :: (body ++ rest)) = true :=
      fun begins =>
        same (marked.eq_of_isPrefixOf member otherMember begins).symm
    rw [if_neg same, List.cons_append, occurrences, if_neg notHere,
      occurrences_of_mark_not_mem noMark]

theorem substitute_skip (passed : List α) :
    substitute vars passed.length (passed ++ rest) =
      substitute vars 0 rest := by
  induction passed with
  | nil =>
      rfl
  | cons item others inductionHypothesis =>
      exact inductionHypothesis

/-- Where nothing begins, an item is kept. -/
theorem substitute_plain
    {item : α}
    (nothing : ∀ var ∈ vars, ¬var.1.isPrefixOf (item :: rest) = true) :
    substitute vars 0 (item :: rest) = item :: substitute vars 0 rest := by
  rw [substitute, List.find?_eq_none.mpr nothing]

/-- A part in which nothing begins is kept. -/
theorem substitute_of_mark_not_mem
    {front : List α}
    (shape : ∀ var ∈ vars, ∃ body, var.1 = mark :: body)
    (noMark : mark ∉ front) :
    substitute vars 0 (front ++ rest) = front ++ substitute vars 0 rest := by
  induction front with
  | nil =>
      rfl
  | cons item others inductionHypothesis =>
      have differs : item ≠ mark :=
        fun same => noMark (same ▸ List.mem_cons_self)
      rw [List.cons_append, substitute_plain, inductionHypothesis,
        List.cons_append]
      · exact fun inOthers => noMark (List.mem_cons_of_mem item inOthers)
      · intro var member
        obtain ⟨body, isName⟩ := shape var member
        rw [isName]
        exact not_isPrefixOf_of_ne differs

/-- A name in front gets its value, or is kept if it has none. -/
theorem Marked.substitute_append
    (marked : Marked mark names)
    (known : ∀ var ∈ vars, var.1 ∈ names)
    (member : name ∈ names)
    (rest : List α) :
    substitute vars 0 (name ++ rest) =
      valueOf vars name ++ substitute vars 0 rest := by
  obtain ⟨body, rfl, noMark⟩ := marked.shape name member
  have sameTest :
      ∀ var ∈ vars,
        var.1.isPrefixOf (mark :: (body ++ rest)) =
          (var.1 == mark :: body) := by
    intro var isVar
    rw [Bool.eq_iff_iff, beq_iff_eq]
    constructor
    · exact marked.eq_of_isPrefixOf member (known var isVar)
    · intro same
      rw [same, List.isPrefixOf_iff_prefix]
      exact List.prefix_append (mark :: body) rest
  rw [List.cons_append, substitute, valueOf, List.find?_congr sameTest]
  cases found : vars.find? fun var => var.1 == mark :: body with
  | none =>
      have shape : ∀ var ∈ vars, ∃ body, var.1 = mark :: body := by
        intro var isVar
        obtain ⟨body, isName, _⟩ := marked.shape var.1 (known var isVar)
        exact ⟨body, isName⟩
      dsimp only
      rw [substitute_of_mark_not_mem shape noMark]
      rfl
  | some var =>
      have isName : var.1 = mark :: body := by
        simpa using List.find?_some found
      dsimp only
      rw [isName]
      exact congrArg (var.2 ++ ·) (substitute_skip body)

/-- A text as names and items at which no name begins. -/
inductive Template (names : List (List α)) : List α → Prop where
  | nil :
      Template names []
  | name
      {name rest : List α}
      (member : name ∈ names)
      (others : Template names rest) :
      Template names (name ++ rest)
  | item
      {item : α}
      {rest : List α}
      (nothing : ∀ name ∈ names, ¬name.isPrefixOf (item :: rest) = true)
      (others : Template names rest) :
      Template names (item :: rest)

theorem Marked.template_of_text
    (marked : Marked mark names)
    (text : List α) :
    Template names text := by
  induction isLength : text.length using Nat.strongRecOn generalizing text with
  | ind length inductionHypothesis =>
      cases text with
      | nil =>
          exact .nil
      | cons item rest =>
          by_cases begins :
              ∃ name ∈ names, name.isPrefixOf (item :: rest) = true
          · obtain ⟨name, member, isPrefix⟩ := begins
            obtain ⟨body, isName, _⟩ := marked.shape name member
            rw [List.isPrefixOf_iff_prefix] at isPrefix
            obtain ⟨later, isText⟩ := isPrefix
            have shorter := congrArg List.length isText
            rw [List.length_append, isLength, isName, List.length_cons]
              at shorter
            rw [← isText]
            exact
              .name member
                (inductionHypothesis later.length (by omega) later rfl)
          · refine .item (fun name member isPrefix =>
              begins ⟨name, member, isPrefix⟩) ?_
            rw [List.length_cons] at isLength
            exact inductionHypothesis rest.length (by omega) rest rfl

theorem occurrences_item
    {item : α}
    (nothing : ¬name.isPrefixOf (item :: rest) = true) :
    occurrences name (item :: rest) = occurrences name rest := by
  rw [occurrences, if_neg nothing, Nat.zero_add]

/-- Every text has tokens. -/
theorem Marked.exists_tokens
    (marked : Marked mark names)
    (text : List α) :
    ∃ tokens : List (Token α),
      (∀ name ∈ names, mentions name tokens = occurrences name text) ∧
        ∀ vars : List (List α × List α),
          (∀ var ∈ vars, var.1 ∈ names) →
          substitute vars 0 text = expand (valueOf vars) tokens := by
  induction marked.template_of_text text with
  | nil =>
      exact ⟨[], fun _ _ => rfl, fun _ _ => rfl⟩
  | name member others inductionHypothesis =>
      rename_i name rest
      obtain ⟨tokens, counts, values⟩ := inductionHypothesis
      refine ⟨.named name :: tokens, ?_, ?_⟩
      · intro other otherMember
        rw [mentions, counts other otherMember,
          marked.occurrences_append member otherMember]
      · intro vars known
        rw [marked.substitute_append known member, values vars known]
        rfl
  | item nothing others inductionHypothesis =>
      rename_i item rest
      obtain ⟨tokens, counts, values⟩ := inductionHypothesis
      refine ⟨.plain item :: tokens, ?_, ?_⟩
      · intro name member
        rw [mentions, counts name member,
          occurrences_item (nothing name member)]
      · intro vars known
        rw [substitute_plain fun var isVar => nothing var.1 (known var isVar),
          values vars known]
        rfl

end Texts

/-! ## One after the other, and at once -/

section Sequence

variable
  {mark : α}
  {vars done : List (List α × List α)}
  {text template : List α}
  {tokens : List (Token α)}

theorem valueOf_append_of_not_mem
    {name value : List α}
    (notYet : name ∉ done.map (·.1)) :
    valueOf (done ++ [(name, value)]) =
      Function.update (valueOf done) name value := by
  funext other
  rw [valueOf, List.find?_append]
  by_cases same : other = name
  · subst same
    have notFound :
        (done.find? fun var => var.1 == other) = none := by
      rw [List.find?_eq_none]
      intro var isVar isName
      exact notYet (List.mem_map.mpr ⟨var, isVar, beq_iff_eq.mp isName⟩)
    rw [notFound, Function.update_self]
    simp
  · rw [Function.update_of_ne same]
    have differs : (name == other) = false :=
      beq_eq_false_iff_ne.mpr (Ne.symm same)
    simp [differs, valueOf]

theorem valueOf_of_not_mem
    {name : List α}
    (notYet : name ∉ done.map (·.1)) :
    valueOf done name = name := by
  rw [valueOf, List.find?_eq_none.mpr]
  · rfl
  · intro var isVar isName
    exact notYet (List.mem_map.mpr ⟨var, isVar, beq_iff_eq.mp isName⟩)

/-- One name more. -/
theorem Marked.replaceName_valueOf
    {var : List α × List α}
    {rest : List (List α × List α)}
    (marked : Marked mark ((done ++ var :: rest).map (·.1)))
    (noMore :
      occurrences var.1 (expand (valueOf done) tokens) =
        mentions var.1 tokens) :
    replaceName var.1 var.2 0 (expand (valueOf done) tokens) =
      expand (valueOf (done ++ [var])) tokens := by
  obtain ⟨name, value⟩ := var
  obtain ⟨body, isName, noMark⟩ := marked.shape name (by simp)
  dsimp only at isName noMore ⊢
  subst isName
  have notYet : mark :: body ∉ done.map (·.1) := by
    have nodup := marked.nodup
    rw [List.map_append, List.map_cons, List.nodup_append] at nodup
    intro inDone
    exact nodup.2.2 _ inDone _ List.mem_cons_self rfl
  rw [replaceName_expand noMark (valueOf_of_not_mem notYet) noMore,
    valueOf_append_of_not_mem notYet]

/--
If every name is replaced as often as some count says that is at most what the
template has, then it is as often as the template has it.
-/
theorem Marked.of_expansions
    {rest : List (List α × List α)}
    {count : List α → Nat}
    (marked : Marked mark ((done ++ rest).map (·.1)))
    (few : ∀ var ∈ rest, count var.1 ≤ mentions var.1 tokens)
    (counted :
      expansions rest (expand (valueOf done) tokens) =
        rest.map fun var => count var.1) :
    (∀ var ∈ rest, count var.1 = mentions var.1 tokens) ∧
      (∀ front var back,
        rest = front ++ var :: back →
        occurrences var.1 (expand (valueOf (done ++ front)) tokens) =
          mentions var.1 tokens) ∧
      replaceEach rest (expand (valueOf done) tokens) =
        expand (valueOf (done ++ rest)) tokens := by
  induction rest generalizing done with
  | nil =>
      refine ⟨nofun, ?_, ?_⟩
      · intro front var back isEmpty
        exact absurd isEmpty (by simp)
      · rw [List.append_nil]
        rfl
  | cons var rest inductionHypothesis =>
      obtain ⟨body, isName, noMark⟩ := marked.shape var.1 (by simp)
      rw [expansions, List.map_cons, List.cons.injEq] at counted
      have notYet : var.1 ∉ done.map (·.1) := by
        have nodup := marked.nodup
        rw [List.map_append, List.map_cons, List.nodup_append] at nodup
        intro inDone
        exact nodup.2.2 _ inDone _ List.mem_cons_self rfl
      have least :
          mentions var.1 tokens ≤
            occurrences var.1 (expand (valueOf done) tokens) := by
        rw [isName]
        exact
          mentions_le_occurrences noMark
            (isName ▸ valueOf_of_not_mem notYet) tokens
      have most := few var List.mem_cons_self
      have noMore :
          occurrences var.1 (expand (valueOf done) tokens) =
            mentions var.1 tokens := by
        omega
      have next := marked.replaceName_valueOf noMore
      rw [next] at counted
      have sameVars : done ++ [var] ++ rest = done ++ var :: rest := by
        rw [List.append_assoc, List.singleton_append]
      obtain ⟨laterCounts, laterLiteral, laterText⟩ :=
        inductionHypothesis (sameVars ▸ marked)
          (fun other member => few other (List.mem_cons_of_mem var member))
          counted.2
      refine ⟨?_, ?_, ?_⟩
      · intro other member
        rcases List.mem_cons.mp member with rfl | inRest
        · omega
        · exact laterCounts other inRest
      · intro front other back isSplit
        cases front with
        | nil =>
            rw [List.nil_append, List.cons.injEq] at isSplit
            rw [← isSplit.1, List.append_nil]
            exact noMore
        | cons first front =>
            rw [List.cons_append, List.cons.injEq] at isSplit
            obtain ⟨rfl, isRest⟩ := isSplit
            have later := laterLiteral front other back isRest
            rwa [List.append_assoc, List.singleton_append] at later
      · rw [sameVars] at laterText
        rw [← laterText, ← next]
        rfl

/-- Conversely. -/
theorem Marked.expansions_of_literal
    {rest : List (List α × List α)}
    (marked : Marked mark ((done ++ rest).map (·.1)))
    (literal :
      ∀ front var back,
        rest = front ++ var :: back →
        occurrences var.1 (expand (valueOf (done ++ front)) tokens) =
          mentions var.1 tokens) :
    expansions rest (expand (valueOf done) tokens) =
      rest.map fun var => mentions var.1 tokens := by
  induction rest generalizing done with
  | nil =>
      rfl
  | cons var rest inductionHypothesis =>
      have noMore := literal [] var rest rfl
      rw [List.append_nil] at noMore
      have sameVars : done ++ [var] ++ rest = done ++ var :: rest := by
        rw [List.append_assoc, List.singleton_append]
      rw [expansions, noMore, marked.replaceName_valueOf noMore,
        inductionHypothesis (sameVars ▸ marked), List.map_cons]
      intro front other back isRest
      have later := literal (var :: front) other back (by rw [isRest]; rfl)
      rwa [List.append_assoc, List.singleton_append]

/-- A text is its tokens with every name standing for itself. -/
theorem substitute_nil (text : List α) : substitute [] 0 text = text := by
  induction text with
  | nil =>
      rfl
  | cons item rest inductionHypothesis =>
      rw [substitute_plain (by simp), inductionHypothesis]

/-- A template is what its tokens stand for, each name as often as it occurs. -/
theorem Marked.exists_expand
    (marked : Marked mark (vars.map (·.1)))
    (template : List α) :
    ∃ tokens : List (Token α),
      template = expand (valueOf []) tokens ∧
        (vars.map fun var => occurrences var.1 template) =
          (vars.map fun var => mentions var.1 tokens) ∧
        ∀ part : List (List α × List α),
          (∀ var ∈ part, var ∈ vars) →
          substitute part 0 template = expand (valueOf part) tokens := by
  obtain ⟨tokens, counts, values⟩ := marked.exists_tokens template
  refine ⟨tokens, ?_, ?_, ?_⟩
  · rw [← values [] nofun, substitute_nil]
  · apply List.map_congr_left
    intro var member
    rw [counts var.1 (List.mem_map_of_mem member)]
  · intro part within
    exact values part fun var member => List.mem_map_of_mem (within var member)

/-- Each name is replaced where the template has it, and nowhere else. -/
theorem Marked.expansions_eq_iff
    (marked : Marked mark (vars.map (·.1)))
    (template : List α) :
    expansions vars template =
        vars.map (fun var => occurrences var.1 template) ↔
      Literal vars template := by
  obtain ⟨tokens, isText, sameCounts, values⟩ :=
    marked.exists_expand template
  have sameLiteral :
      Literal vars template ↔
        ∀ front var back,
          vars = front ++ var :: back →
          occurrences var.1 (expand (valueOf ([] ++ front)) tokens) =
            mentions var.1 tokens := by
    refine forall_congr' fun front => forall_congr' fun var =>
      forall_congr' fun back => forall_congr' fun isSplit => ?_
    have isVar : var ∈ vars := by
      rw [isSplit]
      simp
    rw [List.nil_append, List.map_inj_left.mp sameCounts var isVar,
      values front]
    intro other member
    rw [isSplit]
    exact List.mem_append_left _ member
  rw [sameCounts, sameLiteral]
  constructor
  · intro counted
    rw [isText] at counted
    exact
      (@Marked.of_expansions α _ mark [] tokens vars
        (fun name => mentions name tokens) marked (fun _ _ => Nat.le_refl _)
        counted).2.1
  · intro literal
    rw [isText]
    exact @Marked.expansions_of_literal α _ mark [] tokens vars marked literal

/-- Replacing one after the other is then replacing at once. -/
theorem Marked.replaceEach_eq
    (marked : Marked mark (vars.map (·.1)))
    (literal : Literal vars template) :
    replaceEach vars template = substitute vars 0 template := by
  obtain ⟨tokens, isText, sameCounts, values⟩ :=
    marked.exists_expand template
  have counted := (marked.expansions_eq_iff template).mpr literal
  rw [sameCounts] at counted
  rw [values vars fun _ member => member]
  rw [isText] at counted ⊢
  exact
    (@Marked.of_expansions α _ mark [] tokens vars
      (fun name => mentions name tokens) marked (fun _ _ => Nat.le_refl _)
      counted).2.2

/--
A text in which names are replaced as often as they stand in one that has no
more of them has as many of them.
-/
theorem Marked.occurrences_eq_of_expansions
    (marked : Marked mark (vars.map (·.1)))
    (few :
      ∀ var ∈ vars, occurrences var.1 template ≤ occurrences var.1 text)
    (counted :
      expansions vars text =
        vars.map fun var => occurrences var.1 template) :
    ∀ var ∈ vars, occurrences var.1 template = occurrences var.1 text := by
  obtain ⟨tokens, isText, sameCounts, _⟩ := marked.exists_expand text
  have known :
      ∀ var ∈ vars, mentions var.1 tokens = occurrences var.1 text :=
    fun var member => (List.map_inj_left.mp sameCounts var member).symm
  rw [isText] at counted
  have same :=
    (@Marked.of_expansions α _ mark [] tokens vars
      (fun name => occurrences name template) marked
      (fun var member => (known var member).symm ▸ few var member)
      counted).1
  intro var member
  rw [same var member, known var member]

end Sequence

/-! ## Other texts with the same names -/

section Others

variable
  {mark : α}
  {names : List (List α)}
  {name front back text : List α}
  {vars : List (List α × List α)}

omit [DecidableEq α] in
theorem prefix_append_iff
    (apart : ∀ item ∈ name, item ∉ back) :
    name <+: front ++ back ↔ name <+: front := by
  constructor
  · intro begins
    rcases List.prefix_or_prefix_of_prefix begins
        (List.prefix_append front back) with isShort | ⟨more, rfl⟩
    · exact isShort
    · rw [List.prefix_append_right_inj] at begins
      cases more with
      | nil =>
          simp
      | cons item others =>
          have inBack : item ∈ back := begins.subset List.mem_cons_self
          exact
            absurd inBack
              (apart item (List.mem_append_right front List.mem_cons_self))
  · intro begins
    exact begins.trans (List.prefix_append front back)

/-- No name reaches into what shares no item with it. -/
theorem occurrences_append_of_apart
    (notNil : name ≠ [])
    (apart : ∀ item ∈ name, item ∉ back) :
    occurrences name (front ++ back) = occurrences name front := by
  have nowhere :
      ∀ rest : List α, (∀ item ∈ rest, item ∈ back) →
        occurrences name rest = 0 := by
    intro rest inBack
    induction rest with
    | nil =>
        rfl
    | cons item others inductionHypothesis =>
        obtain ⟨first, later, rfl⟩ := List.exists_cons_of_ne_nil notNil
        have notHere :
            ¬(first :: later).isPrefixOf (item :: others) = true := by
          rw [List.isPrefixOf_iff_prefix]
          intro begins
          exact
            apart first List.mem_cons_self
              (inBack first (begins.subset List.mem_cons_self))
        rw [occurrences_item notHere]
        exact
          inductionHypothesis fun other member =>
            inBack other (List.mem_cons_of_mem item member)
  induction front with
  | nil =>
      exact nowhere back fun _ member => member
  | cons item others inductionHypothesis =>
      rw [List.cons_append, occurrences, occurrences, inductionHypothesis,
        ← List.cons_append]
      simp only [List.isPrefixOf_iff_prefix, prefix_append_iff apart]

theorem Marked.substitute_append_of_apart
    (marked : Marked mark names)
    (known : ∀ var ∈ vars, var.1 ∈ names)
    (apart : ∀ name ∈ names, ∀ item ∈ name, item ∉ back)
    (front : List α) :
    substitute vars 0 (front ++ back) = substitute vars 0 front ++ back := by
  induction marked.template_of_text front with
  | nil =>
      have nowhere :
          ∀ rest : List α, (∀ item ∈ rest, item ∈ back) →
            substitute vars 0 rest = rest := by
        intro rest inBack
        induction rest with
        | nil =>
            rfl
        | cons item others inductionHypothesis =>
            rw [substitute_plain, inductionHypothesis]
            · exact fun other member =>
                inBack other (List.mem_cons_of_mem item member)
            · intro var isVar begins
              obtain ⟨body, isName, _⟩ :=
                marked.shape var.1 (known var isVar)
              rw [List.isPrefixOf_iff_prefix] at begins
              have inName : mark ∈ var.1 := isName ▸ List.mem_cons_self
              exact
                apart var.1 (known var isVar) mark inName
                  (inBack mark (begins.subset inName))
      exact nowhere back fun _ member => member
  | name member others inductionHypothesis =>
      rw [List.append_assoc, marked.substitute_append known member,
        inductionHypothesis, marked.substitute_append known member,
        List.append_assoc]
  | item nothing others inductionHypothesis =>
      rename_i item rest
      rw [List.cons_append, substitute_plain, inductionHypothesis,
        substitute_plain fun var isVar => nothing var.1 (known var isVar),
        List.cons_append]
      intro var isVar begins
      rw [← List.cons_append, List.isPrefixOf_iff_prefix,
        prefix_append_iff (apart var.1 (known var isVar)),
        ← List.isPrefixOf_iff_prefix] at begins
      exact nothing var.1 (known var isVar) begins

variable {change : α → α}

/-- A change that leaves a name alone takes no occurrence away. -/
theorem occurrences_le_map
    (fixed : name.map change = name)
    (text : List α) :
    occurrences name text ≤ occurrences name (text.map change) := by
  induction text with
  | nil =>
      exact Nat.le_refl _
  | cons item rest inductionHypothesis =>
      rw [List.map_cons, occurrences, occurrences]
      by_cases begins : name.isPrefixOf (item :: rest) = true
      · have stillBegins :
            name.isPrefixOf (change item :: rest.map change) = true := by
          rw [List.isPrefixOf_iff_prefix] at begins ⊢
          have mapped := begins.map change
          rwa [fixed] at mapped
        rw [if_pos begins, if_pos stillBegins]
        omega
      · rw [if_neg begins]
        omega

/--
Where a change leaves the names alone and makes no new ones, it changes the
items between them only.
-/
theorem Marked.substitute_map
    (marked : Marked mark names)
    (isNames : vars.map (·.1) = names)
    (fixed : ∀ name ∈ names, name.map change = name)
    (same :
      ∀ name ∈ names,
        occurrences name text = occurrences name (text.map change)) :
    (substitute vars 0 (text.map change)).length =
        (substitute vars 0 text).length ∧
      (substitute vars 0 (text.map change) = substitute vars 0 text →
        text.map change = text) := by
  have known : ∀ var ∈ vars, var.1 ∈ names :=
    fun var member => isNames ▸ List.mem_map_of_mem member
  induction marked.template_of_text text with
  | nil =>
      exact ⟨rfl, fun _ => rfl⟩
  | name member others inductionHypothesis =>
      rename_i name rest
      have sameRest :
          ∀ other ∈ names,
            occurrences other rest =
              occurrences other (rest.map change) := by
        intro other otherMember
        have both := same other otherMember
        rw [List.map_append, fixed name member,
          marked.occurrences_append member otherMember,
          marked.occurrences_append member otherMember] at both
        exact Nat.add_left_cancel both
      obtain ⟨sameLength, sameText⟩ := inductionHypothesis sameRest
      rw [List.map_append, fixed name member,
        marked.substitute_append known member,
        marked.substitute_append known member]
      constructor
      · rw [List.length_append, List.length_append, sameLength]
      · intro isSame
        rw [sameText (List.append_cancel_left isSame)]
  | item nothing others inductionHypothesis =>
      rename_i item rest
      have stillNothing :
          ∀ name ∈ names,
            ¬name.isPrefixOf (change item :: rest.map change) = true := by
        intro name member begins
        have both := same name member
        have least := occurrences_le_map (fixed name member) rest
        rw [occurrences_item (nothing name member), List.map_cons, occurrences,
          if_pos begins] at both
        omega
      have sameRest :
          ∀ name ∈ names,
            occurrences name rest =
              occurrences name (rest.map change) := by
        intro name member
        have both := same name member
        rwa [occurrences_item (nothing name member), List.map_cons,
          occurrences_item (stillNothing name member)] at both
      obtain ⟨sameLength, sameText⟩ := inductionHypothesis sameRest
      rw [List.map_cons,
        substitute_plain fun var isVar =>
          stillNothing var.1 (known var isVar),
        substitute_plain fun var isVar => nothing var.1 (known var isVar)]
      constructor
      · rw [List.length_cons, List.length_cons, sameLength]
      · intro isSame
        rw [List.cons.injEq] at isSame
        rw [isSame.1, sameText isSame.2]

end Others

end MarkedNames
