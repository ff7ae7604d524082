import Sweety.StaticCache

namespace Sweety.Redirects

open HttpText StaticCache

/-!
# Where a redirect leads

Model of `parse_return_directive`, `is_safe_redirect_target` and
`make_redirect_resp` of `server/router.rs`, and of how a browser reads the
`Location` that they write.  The filter looks at the text as it is, while a
browser drops tabs and line breaks first and takes a backslash for a slash.
-/

/-- `parse_return_directive`: the status and the location. -/
def parseReturnDirective (directive requestUri : List Char) :
    Nat × List Char :=
  let directive := trim directive
  let whole :=
    (301, replace "$request_uri".toList requestUri directive)
  match splitOnce? ' ' directive with
  | some (code, url) =>
      match parseU16? code with
      | some code =>
          (code, replace "$request_uri".toList requestUri (trim url))
      | none =>
          whole
  | none =>
      whole

/-- The text begins with `http://` or `https://`. -/
def isWebUrl (text : List Char) : Bool :=
  "https://".toList.isPrefixOf text || "http://".toList.isPrefixOf text

/-- A character of a scheme. -/
def isSchemeChar (char : Char) : Bool :=
  char.isAlphanum || char == '+' || char == '-' || char == '.'

/-- The text before the first colon, if there is one, could be a scheme. -/
def schemeBeforeColon (text : List Char) : Bool :=
  match splitOnce? ':' text with
  | some (before, _) =>
      before.all isSchemeChar
  | none =>
      false

/-- `is_safe_redirect_target`. -/
def isSafeRedirectTarget (target : List Char) : Bool :=
  let trimmed := trim target
  if trimmed.isEmpty then
    false
  else if "//".toList.isPrefixOf trimmed then
    false
  else if isWebUrl trimmed then
    true
  else
    !schemeBeforeColon trimmed

/-- `make_redirect_resp`. -/
def makeRedirectResp (location : List Char) (status : Nat) : WebResponse :=
  let safeLocation :=
    if isSafeRedirectTarget location then
      location
    else
      ['/']
  { status := status
    headers := insertText "location" safeLocation ∅
    body := [] }

/-! ## How a browser reads a location -/

/-- A tab or a line break, which is dropped. -/
def isDropped (char : Char) : Bool :=
  char == '\t' || char == '\n' || char == '\r'

/-- A blank or a control character, which is dropped in front. -/
def isLeading (char : Char) : Bool :=
  decide (char.toNat ≤ 32)

/-- A backslash is taken for a slash. -/
def asSlash (char : Char) : Char :=
  if char = '\\' then
    '/'
  else
    char

/-- The text that a browser resolves. -/
def browserText (location : List Char) : List Char :=
  ((location.filter fun char => !isDropped char).dropWhile isLeading).map
    asSlash

/-- The text begins with a scheme and a colon. -/
def hasScheme : List Char → Bool
  | [] =>
      false
  | first :: rest =>
      first.isAlpha && (rest.dropWhile isSchemeChar).head? == some ':'

/-- The text names a host or a scheme of its own. -/
def leavesHost (text : List Char) : Bool :=
  "//".toList.isPrefixOf text || hasScheme text

/-- A redirect stays on the host that it comes from. -/
def StaysOnHost (response : WebResponse) : Prop :=
  ∀ location ∈ response.headers.getAll "location".toList,
    leavesHost (browserText location) = false

/--
The location is no header value, or the filter sees the slashes and the scheme
that a browser sees.
-/
def ReadAlike (target : List Char) : Prop :=
  fromStr? target = none ∨
    (("//".toList.isPrefixOf (browserText target) = true →
        "//".toList.isPrefixOf (trim target) = true) ∧
      (hasScheme (browserText target) = true →
        isWebUrl (trim target) = false ∧
          schemeBeforeColon (trim target) = true))

/-! ## The first character of a location -/

theorem isLeading_of_isDropped
    {char : Char}
    (dropped : isDropped char = true) :
    isLeading char = true := by
  rw [isDropped, Bool.or_eq_true, Bool.or_eq_true, beq_iff_eq, beq_iff_eq,
    beq_iff_eq] at dropped
  rcases dropped with (rfl | rfl) | rfl <;> rfl

/-- What is dropped in front can be dropped first. -/
theorem dropWhile_filter (location : List Char) :
    (location.filter fun char => !isDropped char).dropWhile isLeading =
      (location.dropWhile isLeading).filter fun char => !isDropped char := by
  induction location with
  | nil =>
      rfl
  | cons char rest ih =>
      cases leads : isLeading char with
      | true =>
          rw [List.dropWhile_cons_of_pos leads, ← ih, List.filter_cons]
          split
          · exact List.dropWhile_cons_of_pos leads
          · rfl
      | false =>
          have isKept : (!isDropped char) = true := by
            cases dropped : isDropped char with
            | true =>
                rw [isLeading_of_isDropped dropped] at leads
                cases leads
            | false =>
                rfl
          have notLeading : ¬isLeading char = true :=
            Bool.eq_false_iff.mp leads
          rw [List.dropWhile_cons_of_neg notLeading, List.filter_cons,
            if_pos isKept, List.dropWhile_cons_of_neg notLeading]

theorem not_isLeading_head
    {location rest : List Char}
    {first : Char}
    (isStart : location.dropWhile isLeading = first :: rest) :
    isLeading first = false := by
  have notLeading :=
    List.dropWhile_get_zero_not isLeading location (by rw [isStart]; simp)
  simpa [isStart] using notLeading

/-- A browser begins with the first character that is not dropped. -/
theorem browserText_cons
    {location rest : List Char}
    {first : Char}
    (isStart : location.dropWhile isLeading = first :: rest) :
    browserText location =
      asSlash first ::
        (rest.filter fun char => !isDropped char).map asSlash := by
  have isKept : (!isDropped first) = true := by
    cases dropped : isDropped first with
    | true =>
        have leads := isLeading_of_isDropped dropped
        rw [not_isLeading_head isStart] at leads
        cases leads
    | false =>
        rfl
  rw [browserText, dropWhile_filter, isStart, List.filter_cons,
    if_pos isKept, List.map_cons]

/-- A browser that reads anything begins with a visible character. -/
theorem exists_start
    {location : List Char}
    (nonempty : browserText location ≠ []) :
    ∃ first rest, location.dropWhile isLeading = first :: rest := by
  cases isStart : location.dropWhile isLeading with
  | nil =>
      rw [browserText, dropWhile_filter, isStart] at nonempty
      exact absurd rfl nonempty
  | cons first rest =>
      exact ⟨first, rest, rfl⟩

/-- What stands in front of a header value is a blank for both. -/
theorem isWhitespace_of_isLeading
    {target value : List Char}
    (legal : fromStr? target = some value)
    {char : Char}
    (member : char ∈ target)
    (leads : isLeading char = true) :
    isWhitespace char = true := by
  rw [fromStr?, Option.ite_none_right_eq_some, List.all_eq_true] at legal
  have isLegal := legal.1 char member
  rw [Bool.or_eq_true, Bool.and_eq_true, decide_eq_true_eq, beq_iff_eq]
    at isLegal
  rw [isLeading, decide_eq_true_eq] at leads
  rcases isLegal with isVisible | isTab
  · have isBlank : char.toNat = 32 :=
      Nat.le_antisymm leads isVisible.1
    rw [isWhitespace, isBlank]
    rfl
  · rw [isTab]
    rfl

/-- The filter begins with the same character as a browser. -/
theorem trim_eq_of_start
    {target value rest : List Char}
    {first : Char}
    (legal : fromStr? target = some value)
    (isStart : target.dropWhile isLeading = first :: rest)
    (visible : isWhitespace first = false) :
    trim target = first :: rest.rdropWhile isWhitespace := by
  have allBlank :
      ∀ char ∈ target.takeWhile isLeading, isWhitespace char = true := by
    intro char member
    exact isWhitespace_of_isLeading legal
      ((List.takeWhile_prefix isLeading).subset member)
      (List.mem_takeWhile_imp member)
  have isWhole :
      target = target.takeWhile isLeading ++ first :: rest := by
    rw [← isStart, List.takeWhile_append_dropWhile]
  have starts : target.dropWhile isWhitespace = first :: rest := by
    rw [isWhole, List.dropWhile_append_of_pos allBlank,
      List.dropWhile_cons_of_neg (Bool.eq_false_iff.mp visible)]
  have startsAlone : (first :: rest).dropWhile isWhitespace = first :: rest :=
    List.dropWhile_cons_of_neg (Bool.eq_false_iff.mp visible)
  calc
    trim target = (first :: rest).rdropWhile isWhitespace := by
      rw [trim, starts]
    _ = trim ([first] ++ rest) := by
      rw [trim, List.singleton_append, startsAlone]
    _ = first :: rest.rdropWhile isWhitespace :=
      trim_append (List.cons_ne_nil first [])
        fun char member => (List.mem_singleton.mp member) ▸ visible

/-! ## What the filter lets through -/

/-- A text that begins with a slash or a backslash has no scheme. -/
theorem schemeBeforeColon_cons
    {first : Char}
    {rest : List Char}
    (notScheme : isSchemeChar first = false)
    (notColon : first ≠ ':') :
    schemeBeforeColon (first :: rest) = false := by
  rw [schemeBeforeColon]
  cases isSplit : splitOnce? ':' (first :: rest) with
  | none =>
      rfl
  | some parts =>
      obtain ⟨before, after⟩ := parts
      obtain ⟨isWhole, -⟩ := splitOnce?_eq_some_iff.mp isSplit
      cases before with
      | nil =>
          exact absurd (List.cons.inj isWhole).1 notColon
      | cons head tail =>
          rw [(List.cons.inj isWhole).1] at notScheme
          change (isSchemeChar head && tail.all isSchemeChar) = false
          rw [notScheme, Bool.false_and]

/-- A text that begins with a slash is safe unless there are two. -/
theorem isSafe_of_slash
    {target tail : List Char}
    {first : Char}
    (isTrimmed : trim target = first :: tail)
    (isSlash : first = '/' ∨ first = '\\') :
    isSafeRedirectTarget target =
      !"//".toList.isPrefixOf (trim target) := by
  have notScheme : isSchemeChar first = false ∧ first ≠ ':' := by
    rcases isSlash with rfl | rfl <;> decide
  have notWeb : isWebUrl (first :: tail) = false := by
    rcases isSlash with rfl | rfl <;> rfl
  rw [isSafeRedirectTarget, isTrimmed, List.isEmpty_cons,
    if_neg Bool.false_ne_true, notWeb, if_neg Bool.false_ne_true,
    schemeBeforeColon_cons notScheme.1 notScheme.2]
  cases "//".toList.isPrefixOf (first :: tail) <;> rfl

/-- A text that begins with a letter is safe unless it has a scheme. -/
theorem isSafe_of_letter
    {target tail : List Char}
    {first : Char}
    (isTrimmed : trim target = first :: tail)
    (isLetter : first.isAlpha = true) :
    isSafeRedirectTarget target =
      (isWebUrl (trim target) || !schemeBeforeColon (trim target)) := by
  have notSlashes : "//".toList.isPrefixOf (first :: tail) = false := by
    have notSlash : first ≠ '/' := by
      rintro rfl
      cases isLetter
    change ('/' == first && ['/'].isPrefixOf tail) = false
    rw [beq_false_of_ne (Ne.symm notSlash), Bool.false_and]
  rw [isSafeRedirectTarget, isTrimmed, List.isEmpty_cons,
    if_neg Bool.false_ne_true, notSlashes, if_neg Bool.false_ne_true]
  cases isWebUrl (first :: tail) <;> rfl

/-- A letter is no blank. -/
theorem isWhitespace_of_isAlpha
    {char : Char}
    (isLetter : char.isAlpha = true) :
    isWhitespace char = false := by
  have bounds : 65 ≤ char.toNat ∧ char.toNat ≤ 122 := by
    change (decide (_ ∧ _) || (_ && _)) = true at isLetter
    simp only [Bool.or_eq_true, Bool.and_eq_true, decide_eq_true_eq,
      UInt32.le_iff_toNat_le] at isLetter
    change (65 ≤ char.toNat ∧ char.toNat ≤ 90) ∨
      (97 ≤ char.toNat ∧ char.toNat ≤ 122) at isLetter
    omega
  simp only [isWhitespace, Bool.or_eq_false_iff, beq_eq_false_iff_ne,
    decide_eq_false_iff_not]
  omega

/-- Two slashes are let through exactly when the filter does not see them. -/
theorem isSafe_of_slashes
    {target value : List Char}
    (legal : fromStr? target = some value)
    (hasSlashes : "//".toList.isPrefixOf (browserText target) = true) :
    isSafeRedirectTarget target =
      !"//".toList.isPrefixOf (trim target) := by
  have nonempty : browserText target ≠ [] := by
    intro isNil
    rw [isNil] at hasSlashes
    cases hasSlashes
  obtain ⟨first, rest, isStart⟩ := exists_start nonempty
  rw [browserText_cons isStart] at hasSlashes
  have firstSlash : asSlash first = '/' := by
    have both :
        ('/' == asSlash first && _) = true := hasSlashes
    rw [Bool.and_eq_true, beq_iff_eq] at both
    exact both.1.symm
  have isSlash : first = '/' ∨ first = '\\' := by
    rw [asSlash] at firstSlash
    split at firstSlash
    · rename_i isBackslash
      exact Or.inr isBackslash
    · exact Or.inl firstSlash
  have visible : isWhitespace first = false := by
    rcases isSlash with rfl | rfl <;> decide
  exact isSafe_of_slash (trim_eq_of_start legal isStart visible) isSlash

/-- A scheme is let through exactly when the filter does not see it. -/
theorem isSafe_of_scheme
    {target value : List Char}
    (legal : fromStr? target = some value)
    (isScheme : hasScheme (browserText target) = true) :
    isSafeRedirectTarget target =
      (isWebUrl (trim target) || !schemeBeforeColon (trim target)) := by
  have nonempty : browserText target ≠ [] := by
    intro isNil
    rw [isNil] at isScheme
    cases isScheme
  obtain ⟨first, rest, isStart⟩ := exists_start nonempty
  rw [browserText_cons isStart, hasScheme, Bool.and_eq_true] at isScheme
  have isLetter : first.isAlpha = true := by
    have asLetter := isScheme.1
    rw [asSlash] at asLetter
    split at asLetter
    · cases asLetter
    · exact asLetter
  exact isSafe_of_letter
    (trim_eq_of_start legal isStart (isWhitespace_of_isAlpha isLetter))
    isLetter

/-! ## Which redirects stay -/

/-- The location is the target where the filter lets it through. -/
theorem staysOnHost_iff (target : List Char) (status : Nat) :
    StaysOnHost (makeRedirectResp target status) ↔
      (isSafeRedirectTarget target = true →
        fromStr? target = none ∨
          leavesHost (browserText target) = false) := by
  rw [StaysOnHost, makeRedirectResp]
  dsimp only
  cases isSafe : isSafeRedirectTarget target with
  | false =>
      rw [if_neg Bool.false_ne_true]
      constructor
      · intro _ isTrue
        cases isTrue
      · intro _ location member
        rw [List.mem_singleton.mp member]
        decide
  | true =>
      rw [if_pos rfl]
      cases isLegal : fromStr? target with
      | none =>
          rw [insertText, isLegal]
          constructor
          · intro _ _
            exact Or.inl rfl
          · intro _ location member
            cases member
      | some value =>
          obtain rfl : target = value := by
            rw [fromStr?, Option.ite_none_right_eq_some] at isLegal
            exact Option.some.inj isLegal.2
          rw [insertText, isLegal]
          constructor
          · intro stays _
            exact Or.inr (stays target (List.mem_singleton_self target))
          · intro stays location member
            rw [List.mem_singleton.mp member]
            rcases stays rfl with isNone | notLeaving
            · cases isNone
            · exact notLeaving

/--
A redirect stays on the host exactly when the filter sees what a browser sees.
-/
theorem redirect_stays_on_host_iff (target : List Char) (status : Nat) :
    StaysOnHost (makeRedirectResp target status) ↔ ReadAlike target := by
  rw [staysOnHost_iff, ReadAlike]
  cases isLegal : fromStr? target with
  | none =>
      constructor
      · intro _
        exact Or.inl rfl
      · intro _ _
        exact Or.inl rfl
  | some value =>
      have leaves
          (isSafe : isSafeRedirectTarget target = true)
          (stays :
            isSafeRedirectTarget target = true →
              some value = none ∨ leavesHost (browserText target) = false) :
          "//".toList.isPrefixOf (browserText target) = false ∧
            hasScheme (browserText target) = false := by
        rcases stays isSafe with isNone | notLeaving
        · cases isNone
        · exact Bool.or_eq_false_iff.mp notLeaving
      constructor
      · intro stays
        refine Or.inr ⟨?_, ?_⟩
        · intro hasSlashes
          by_contra notSeen
          have isSafe : isSafeRedirectTarget target = true := by
            rw [isSafe_of_slashes isLegal hasSlashes,
              Bool.eq_false_iff.mpr notSeen]
            rfl
          rw [(leaves isSafe stays).1] at hasSlashes
          cases hasSlashes
        · intro isScheme
          have notSafe : isSafeRedirectTarget target = false := by
            rw [Bool.eq_false_iff]
            intro isSafe
            rw [(leaves isSafe stays).2] at isScheme
            cases isScheme
          rw [isSafe_of_scheme isLegal isScheme, Bool.or_eq_false_iff,
            Bool.not_eq_false'] at notSafe
          exact notSafe
      · rintro (isNone | ⟨seesSlashes, seesScheme⟩) isSafe
        · cases isNone
        · refine Or.inr (Bool.or_eq_false_iff.mpr ⟨?_, ?_⟩)
          · rw [Bool.eq_false_iff]
            intro hasSlashes
            rw [isSafe_of_slashes isLegal hasSlashes,
              seesSlashes hasSlashes] at isSafe
            cases isSafe
          · rw [Bool.eq_false_iff]
            intro isScheme
            obtain ⟨notWeb, hasColon⟩ := seesScheme isScheme
            rw [isSafe_of_scheme isLegal isScheme, notWeb, hasColon] at isSafe
            cases isSafe

/-- A slash and a backslash are let through and lead to another host. -/
theorem backslash_leaves_host :
    ¬ ∀ (target : List Char) (status : Nat),
      isWebUrl target = false →
        StaysOnHost (makeRedirectResp target status) := by
  intro claimed
  have isLocation :
      "/\\evil.example".toList ∈
        (makeRedirectResp "/\\evil.example".toList 302).headers.getAll
          "location".toList := by
    decide
  have stays :=
    claimed "/\\evil.example".toList 302 (by decide) _ isLocation
  exact absurd stays (by decide)

end Sweety.Redirects
