import Sweety.EscapedText
import Sweety.ProxyResponse

namespace Sweety.AccessLog

open HttpText EscapedText

/-!
# The access log

Model of `sanitize_log_field` and `format_entry` of `middleware/access_log.rs`.
The writer escapes quotes and line breaks, but no backslashes, and where it
escapes anything it writes the bytes of a text one by one as characters.
-/

/-- `enum LogFormat`. -/
inductive LogFormat where
  | json
  | combined
  | custom (template : List Char)
  deriving Repr, DecidableEq

/-- `struct AccessLogEntry`. -/
structure AccessLogEntry where
  clientIp : List Char
  method : List Char
  uri : List Char
  httpVersion : List Char
  status : Nat
  bytesSent : Nat
  referer : List Char
  userAgent : List Char
  durationMs : Nat
  site : List Char
  deriving Repr, DecidableEq

/-! ## The writer -/

/-- A byte that is escaped. -/
def isDangerousByte (byte : UInt8) : Bool :=
  byte == 10 || byte == 13 || byte == 34

/-- The loop body of `sanitize_log_field`. -/
def sanitizeByte (byte : UInt8) : List Char :=
  if byte = 10 then
    "\\n".toList
  else if byte = 13 then
    "\\r".toList
  else if byte = 34 then
    "\\\"".toList
  else
    [Char.ofNat byte.toNat]

/-- `sanitize_log_field`. -/
def sanitizeLogField (text : List Char) : List Char :=
  if (encodeUtf8 text).any isDangerousByte then
    (encodeUtf8 text).flatMap sanitizeByte
  else
    text

/-- The Combined line, at a time that is written as a text. -/
def combinedLine (time : List Char) (entry : AccessLogEntry) : List Char :=
  entry.clientIp ++ " - - [".toList ++ time ++ "] \"".toList ++
    entry.method ++ " ".toList ++ sanitizeLogField entry.uri ++
    " ".toList ++ entry.httpVersion ++ "\" ".toList ++
    toDecimal entry.status ++ " ".toList ++ toDecimal entry.bytesSent ++
    " \"".toList ++ sanitizeLogField entry.referer ++ "\" \"".toList ++
    sanitizeLogField entry.userAgent ++ "\" ".toList ++
    toDecimal entry.durationMs ++ "ms".toList

/-- The line of a template. -/
def customLine
    (template time : List Char)
    (entry : AccessLogEntry) :
    List Char :=
  [("$remote_addr", entry.clientIp),
    ("$method", entry.method),
    ("$uri", sanitizeLogField entry.uri),
    ("$http_version", entry.httpVersion),
    ("$status", toDecimal entry.status),
    ("$bytes_sent", toDecimal entry.bytesSent),
    ("$http_referer", sanitizeLogField entry.referer),
    ("$http_user_agent", sanitizeLogField entry.userAgent),
    ("$duration_ms", toDecimal entry.durationMs),
    ("$time_local", time),
    ("$site", entry.site)].foldl
      (fun line pair => replace pair.1.toList pair.2 line)
      template

/-- `format_entry`; how an entry is written as JSON is a parameter. -/
def formatEntry
    (jsonLine : AccessLogEntry → List Char)
    (time : List Char)
    (entry : AccessLogEntry) :
    LogFormat → List Char
  | .json =>
      jsonLine entry
  | .combined =>
      combinedLine time entry
  | .custom template =>
      customLine template time entry

/-! ## How characters are written -/

/-- A character that is escaped. -/
def isDangerous (char : Char) : Bool :=
  char == '\n' || char == '\r' || char == '"'

/-- How the characters of a text are written. -/
def writeChar (text : List Char) (char : Char) : List Char :=
  if text.any isDangerous then
    (String.utf8EncodeChar char).flatMap sanitizeByte
  else
    [char]

theorem utf8EncodeChar_ascii
    {char : Char}
    (isAscii : char.toNat < 128) :
    String.utf8EncodeChar char = [UInt8.ofNat char.toNat] := by
  have small : char.val.toNat ≤ 127 := Nat.le_of_lt_succ isAscii
  unfold String.utf8EncodeChar
  dsimp only
  rw [if_pos small]
  rfl

/-- A byte of ASCII stands for its own character. -/
theorem eq_of_mem_utf8EncodeChar
    {char : Char}
    {byte : UInt8}
    (member : byte ∈ String.utf8EncodeChar char)
    (isAscii : byte.toNat < 128) :
    char.toNat = byte.toNat := by
  by_contra differs
  have absent : ∀ other ∈ [char], other.toNat ≠ byte.toNat := by
    intro other isOther
    rw [List.mem_singleton.mp isOther]
    exact differs
  have notMember := ascii_not_mem_encodeUtf8 isAscii absent
  rw [UInt8.ofNat_toNat] at notMember
  exact
    notMember
      (List.mem_flatMap.mpr ⟨char, List.mem_singleton_self char, member⟩)

theorem isDangerous_iff {char : Char} :
    isDangerous char = true ↔
      char.toNat = 10 ∨ char.toNat = 13 ∨ char.toNat = 34 := by
  have byCode (other : Char) :
      (char == other) = true ↔ char.toNat = other.toNat := by
    rw [beq_iff_eq]
    exact ⟨congrArg Char.toNat, fun same => Char.ext (UInt32.toNat_inj.mp same)⟩
  rw [isDangerous, Bool.or_eq_true, Bool.or_eq_true, byCode, byCode, byCode,
    or_assoc]
  rfl

theorem isDangerousByte_iff {byte : UInt8} :
    isDangerousByte byte = true ↔
      byte.toNat = 10 ∨ byte.toNat = 13 ∨ byte.toNat = 34 := by
  rw [isDangerousByte, Bool.or_eq_true, Bool.or_eq_true, beq_iff_eq,
    beq_iff_eq, beq_iff_eq, or_assoc, ← UInt8.toNat_inj, ← UInt8.toNat_inj,
    ← UInt8.toNat_inj]
  rfl

/-- The bytes that are escaped are those of the characters that are. -/
theorem isDangerousByte_of_mem
    {char : Char}
    {byte : UInt8}
    (member : byte ∈ String.utf8EncodeChar char) :
    isDangerousByte byte = isDangerous char := by
  rw [Bool.eq_iff_iff, isDangerousByte_iff, isDangerous_iff]
  by_cases isAscii : byte.toNat < 128
  · rw [eq_of_mem_utf8EncodeChar member isAscii]
  · constructor
    · intro isOne
      omega
    · intro isOne
      have charAscii : char.toNat < 128 := by
        omega
      rw [utf8EncodeChar_ascii charAscii, List.mem_singleton] at member
      rw [member, UInt8.toNat_ofNat'] at isAscii
      omega

theorem utf8EncodeChar_ne_nil (char : Char) :
    String.utf8EncodeChar char ≠ [] := by
  intro isNil
  have length := String.length_utf8EncodeChar char
  rw [isNil] at length
  exact absurd length.symm (Nat.ne_of_gt (Char.utf8Size_pos char))

/-- A text has a byte that is escaped when it has such a character. -/
theorem any_isDangerousByte (text : List Char) :
    (encodeUtf8 text).any isDangerousByte = text.any isDangerous := by
  rw [encodeUtf8, List.any_flatMap]
  apply List.any_congr rfl
  intro char
  rw [Bool.eq_iff_iff, List.any_eq_true]
  constructor
  · rintro ⟨byte, member, isByte⟩
    rw [← isDangerousByte_of_mem member]
    exact isByte
  · intro isChar
    obtain ⟨byte, others, isBytes⟩ :=
      List.exists_cons_of_ne_nil (utf8EncodeChar_ne_nil char)
    have member : byte ∈ String.utf8EncodeChar char := by
      rw [isBytes]
      exact List.mem_cons_self
    exact ⟨byte, member, (isDangerousByte_of_mem member).trans isChar⟩

/-- A field is written character by character. -/
theorem sanitizeLogField_eq (text : List Char) :
    sanitizeLogField text = text.flatMap (writeChar text) := by
  rw [sanitizeLogField, any_isDangerousByte]
  unfold writeChar
  split
  · rw [encodeUtf8, List.flatMap_assoc]
  · exact (List.flatMap_singleton' text).symm

theorem sanitizeByte_plain
    {byte : UInt8}
    (isPlain : isDangerousByte byte = false) :
    sanitizeByte byte = [Char.ofNat byte.toNat] := by
  rw [isDangerousByte, Bool.or_eq_false_iff, Bool.or_eq_false_iff,
    beq_eq_false_iff_ne, beq_eq_false_iff_ne, beq_eq_false_iff_ne] at isPlain
  rw [sanitizeByte, if_neg isPlain.1.1, if_neg isPlain.1.2, if_neg isPlain.2]

/-- Where something is escaped a plain character is written byte by byte. -/
theorem writeChar_plain
    {text : List Char}
    {char : Char}
    (escapes : text.any isDangerous = true)
    (isPlain : isDangerous char = false) :
    writeChar text char =
      (String.utf8EncodeChar char).map fun byte => Char.ofNat byte.toNat := by
  rw [writeChar, if_pos escapes]
  have each :
      ∀ byte ∈ String.utf8EncodeChar char,
        sanitizeByte byte = [Char.ofNat byte.toNat] := by
    intro byte member
    exact sanitizeByte_plain ((isDangerousByte_of_mem member).trans isPlain)
  exact (flatMap_eq_map_iff fun byte member => by
    rw [each byte member]
    exact List.cons_ne_nil _ _).mpr each

theorem toNat_ofNat_byte (byte : UInt8) :
    (Char.ofNat byte.toNat).toNat = byte.toNat := by
  have isValid : byte.toNat.isValidChar := by
    have small := byte.toNat_lt
    exact Or.inl (by omega)
  rw [Char.ofNat, dif_pos isValid]
  rfl

/-- What is written of a plain character can be seen. -/
theorem visible_of_writeChar_plain
    {text : List Char}
    {char other : Char}
    (isPlain : isDangerous char = false)
    (notBackslash : char ≠ '\\')
    (member : other ∈ writeChar text char) :
    other ≠ '\\' ∧ other ≠ '"' := by
  have notQuote : char ≠ '"' := by
    rintro rfl
    cases isPlain
  cases escapes : text.any isDangerous with
  | false =>
      rw [writeChar, escapes, if_neg Bool.false_ne_true, List.mem_singleton]
        at member
      rw [member]
      exact ⟨notBackslash, notQuote⟩
  | true =>
      rw [writeChar_plain escapes isPlain] at member
      obtain ⟨byte, inBytes, rfl⟩ := List.mem_map.mp member
      have differs
          {code : Char}
          (isAscii : code.toNat < 128)
          (notCode : char ≠ code) :
          Char.ofNat byte.toNat ≠ code := by
        intro isCode
        have sameCode : byte.toNat = code.toNat := by
          rw [← toNat_ofNat_byte, isCode]
        have isChar :=
          eq_of_mem_utf8EncodeChar inBytes (sameCode ▸ isAscii)
        exact notCode
          (Char.ext (UInt32.toNat_inj.mp (isChar.trans sameCode)))
      exact ⟨differs (by decide) notBackslash, differs (by decide) notQuote⟩

theorem char_of_isDangerous
    {char : Char}
    (isEscaped : isDangerous char = true) :
    char = '\n' ∨ char = '\r' ∨ char = '"' := by
  rw [isDangerous, Bool.or_eq_true, Bool.or_eq_true, beq_iff_eq, beq_iff_eq,
    beq_iff_eq, or_assoc] at isEscaped
  exact isEscaped

/-- The writer escapes what has to be escaped, but the backslash. -/
theorem writes_writeChar
    {text : List Char}
    {char : Char}
    (member : char ∈ text)
    (notBackslash : char ≠ '\\') :
    Writes (writeChar text) char := by
  cases isEscaped : isDangerous char with
  | true =>
      have escapes : text.any isDangerous = true :=
        List.any_eq_true.mpr ⟨char, member, isEscaped⟩
      rcases char_of_isDangerous isEscaped with rfl | rfl | rfl
      · refine .escaped 'n' ?_ rfl (by decide) (Or.inr (by decide))
        rw [writeChar, if_pos escapes]
        decide
      · refine .escaped 'r' ?_ rfl (by decide) (Or.inr (by decide))
        rw [writeChar, if_pos escapes]
        decide
      · refine .escaped '"' ?_ rfl (by decide) (Or.inl rfl)
        rw [writeChar, if_pos escapes]
        decide
  | false =>
      have notNil : writeChar text char ≠ [] := by
        cases escapes : text.any isDangerous with
        | false =>
            rw [writeChar, escapes]
            exact List.cons_ne_nil _ _
        | true =>
            rw [writeChar_plain escapes isEscaped, ne_eq, List.map_eq_nil_iff]
            exact utf8EncodeChar_ne_nil char
      obtain ⟨first, later, isWritten⟩ := List.exists_cons_of_ne_nil notNil
      refine .plain first later isWritten ?_
      rw [← isWritten]
      intro other inWritten
      exact visible_of_writeChar_plain isEscaped notBackslash inWritten

theorem writeChar_backslash (text : List Char) :
    writeChar text '\\' = ['\\'] := by
  rw [writeChar]
  split
  · decide
  · rfl

/-- A character is read back unless it is written as several bytes. -/
theorem readBack_writeChar_iff
    {text : List Char}
    {char : Char}
    (member : char ∈ text)
    (notBackslash : char ≠ '\\') :
    readBack (writeChar text) char = [char] ↔
      (text.any isDangerous = true → char.toNat < 128) := by
  cases isEscaped : isDangerous char with
  | true =>
      have isAscii : char.toNat < 128 := by
        rcases char_of_isDangerous isEscaped with rfl | rfl | rfl <;> decide
      have escapes : text.any isDangerous = true :=
        List.any_eq_true.mpr ⟨char, member, isEscaped⟩
      have isBack : readBack (writeChar text) char = [char] := by
        rw [readBack, writeChar, if_pos escapes]
        rcases char_of_isDangerous isEscaped with rfl | rfl | rfl <;> decide
      exact ⟨fun _ _ => isAscii, fun _ => isBack⟩
  | false =>
      have noBackslash : '\\' ∉ writeChar text char :=
        fun inWritten =>
          (visible_of_writeChar_plain isEscaped notBackslash inWritten).1 rfl
      rw [readBack, (unescapedFrom_of_not_mem noBackslash).1]
      cases escapes : text.any isDangerous with
      | false =>
          rw [writeChar, escapes]
          exact ⟨fun _ isTrue => absurd isTrue Bool.false_ne_true, fun _ => rfl⟩
      | true =>
          rw [writeChar_plain escapes isEscaped]
          constructor
          · intro isOne _
            have length := congrArg List.length isOne
            rw [List.length_map, String.length_utf8EncodeChar,
              List.length_singleton, Char.utf8Size_eq_one_iff] at length
            exact Nat.lt_succ_of_le length
          · intro isAscii
            have small := isAscii rfl
            rw [utf8EncodeChar_ascii small, List.map_singleton,
              UInt8.toNat_ofNat', Nat.mod_eq_of_lt (by omega), Char.ofNat_toNat]

end Sweety.AccessLog
