import Sweety.PercentText
import Sweety.ProxyCache
import Sweety.SerdeDerive

namespace Sweety.EntryCodec

open ConfigTree HttpText PercentText SerdeDerive

/-!
# Cached entries on the disk

Model of `base64_encode`, `base64_decode`, `serialize_entry` and
`deserialize_entry` in `middleware/proxy_cache.rs`, with the shifts and masks of
the source and the JSON object that a file holds.  They do what the arithmetic
codec and the records of the cache say.  How `serde_json` writes a value is a
parameter.
-/

/-! ## The codec -/

/-- `chunks(3)`. -/
def chunks3 {α : Type} : List α → List (List α)
  | first :: second :: third :: rest =>
      [first, second, third] :: chunks3 rest
  | [] =>
      []
  | shorter =>
      [shorter]

/-- `chunks(4)`. -/
def chunks4 {α : Type} : List α → List (List α)
  | first :: second :: third :: fourth :: rest =>
      [first, second, third, fourth] :: chunks4 rest
  | [] =>
      []
  | shorter =>
      [shorter]

/-- `CHARS[digit] as char`. -/
def digitChar (digit : Nat) : Char :=
  byteChar (encodeDigit digit)

/-- What is written for a chunk. -/
def encodeChunk (chunk : List UInt8) : List Char :=
  let b0 := (chunk.getD 0 0).toNat
  let b1 := if 1 < chunk.length then (chunk.getD 1 0).toNat else 0
  let b2 := if 2 < chunk.length then (chunk.getD 2 0).toNat else 0
  [digitChar (b0 >>> 2),
    digitChar ((b0 &&& 3) <<< 4 ||| b1 >>> 4),
    if 1 < chunk.length then
      digitChar ((b1 &&& 0xf) <<< 2 ||| b2 >>> 6)
    else
      '=',
    if 2 < chunk.length then digitChar (b2 &&& 0x3f) else '=']

/-- `base64_encode`. -/
def base64Encode (data : List UInt8) : List Char :=
  (chunks3 data).flatMap encodeChunk

/-- `decode_char`. -/
def decodeChar (char : UInt8) : Option UInt8 :=
  if 65 ≤ char ∧ char ≤ 90 then
    some (char - 65)
  else if 97 ≤ char ∧ char ≤ 122 then
    some (char - 97 + 26)
  else if 48 ≤ char ∧ char ≤ 57 then
    some (char - 48 + 52)
  else if char = 43 then
    some 62
  else if char = 47 then
    some 63
  else if char = 61 then
    some 0
  else
    none

/-- What is pushed for a chunk of four. -/
def decodeChunk (chunk : List UInt8) : List UInt8 :=
  let digit := fun index => (decodeChar (chunk.getD index 0)).getD 0
  (digit 0 <<< 2 ||| digit 1 >>> 4) ::
    ((if chunk.getD 2 0 ≠ 61 then
        [digit 1 <<< 4 ||| digit 2 >>> 2]
      else
        []) ++
      if chunk.getD 3 0 ≠ 61 then
        [digit 2 <<< 6 ||| digit 3]
      else
        [])

/-- The loop of `base64_decode`, which ends at a shorter chunk. -/
def decodeChunks : List (List UInt8) → List UInt8
  | [] =>
      []
  | chunk :: rest =>
      if chunk.length < 4 then [] else decodeChunk chunk ++ decodeChunks rest

/-- `base64_decode`. -/
def base64Decode (text : List Char) : Except String (List UInt8) :=
  .ok (decodeChunks (chunks4 (encodeUtf8 text)))

/-! ## The object -/

/-- How `serde_json` writes and reads a value. -/
structure SerdeJson where
  toVec : Json → Except String (List UInt8)
  fromSlice : List UInt8 → Except String Json

/-- A value is read back from what is written for it. -/
def SerdeJson.RoundTrips (serde : SerdeJson) (value : Json) : Prop :=
  ∃ bytes, serde.toVec value = .ok bytes ∧ serde.fromSlice bytes = .ok value

/-- What `json!` makes of a pair of texts. -/
def pairJson (header : List Char × List Char) : Json :=
  .array [.string (String.ofList header.1), .string (String.ofList header.2)]

/-- The object of an entry. -/
def entryJson (now : Nat) (entry : CacheEntry) : Json :=
  let elapsed := (now - entry.createdAt) / second
  let remaining := entry.ttl / second - elapsed
  .object
    [("status", .number (decimal entry.status)),
      ("headers", .array (entry.headers.map pairJson)),
      ("body", .string (String.ofList (base64Encode entry.body))),
      ("ttl_secs", .number (decimal remaining))]

/-- `serialize_entry`. -/
def serializeEntry (serde : SerdeJson) (now : Nat) (entry : CacheEntry) :
    Except String (List UInt8) :=
  serde.toVec (entryJson now entry)

/-- `obj[name]`. -/
def index (name : String) : Json → Json
  | .object fields =>
      (Json.field? name fields).getD .null
  | _ =>
      .null

/-- `as_u64`. -/
def asU64? : Json → Option Nat
  | .number text =>
      (Codec.natOfText? text).bind fun value =>
        if value < 2 ^ 64 then some value else none
  | _ =>
      none

/-- `as_str`. -/
def asStr? : Json → Option String
  | .string text =>
      some text
  | _ =>
      none

/-- A pair of texts of an array. -/
def pairOf? : Json → Option (List Char × List Char)
  | .array [.string name, .string value] =>
      some (name.toList, value.toList)
  | _ =>
      none

/-- `serde_json::from_value` for a list of pairs. -/
def headersOf? : Json → Option (List (List Char × List Char))
  | .array items =>
      items.mapM pairOf?
  | _ =>
      none

/-- `deserialize_entry`. -/
def deserializeEntry (serde : SerdeJson) (now : Nat) (data : List UInt8) :
    Except String CacheEntry := do
  let obj ← serde.fromSlice data
  let status := (asU64? (index "status" obj)).getD 200 % 2 ^ 16
  let headers := (headersOf? (index "headers" obj)).getD []
  let bodyB64 := (asStr? (index "body" obj)).getD ""
  let body ← base64Decode bodyB64.toList
  let ttlSecs := (asU64? (index "ttl_secs" obj)).getD 0
  return {
    status := status
    headers := headers
    body := body
    createdAt := now
    ttl := ttlSecs * second }

/-! ## The codec is the arithmetic one -/

/-- Bits below those that were shifted are added. -/
theorem shiftLeft_or
    {high low count : Nat}
    (small : low < 2 ^ count) :
    high <<< count ||| low = high * 2 ^ count + low := by
  rw [← Nat.shiftLeft_add_eq_or_of_lt small, Nat.shiftLeft_eq]

/-- The same for bytes, where the highest bits are lost. -/
theorem shiftLeft_or_byte
    {high low count : UInt8}
    (within : count.toNat < 8)
    (small : low.toNat < 2 ^ count.toNat) :
    high <<< count ||| low =
      UInt8.ofNat (high.toNat * 2 ^ count.toNat + low.toNat) := by
  apply UInt8.toNat_inj.mp
  rw [UInt8.toNat_or, UInt8.toNat_shiftLeft, Nat.mod_eq_of_lt within,
    UInt8.toNat_ofNat', ← shiftLeft_or small, Nat.or_mod_two_pow,
    Nat.mod_eq_of_lt low.toNat_lt]

/-- The first digit of three bytes. -/
theorem firstDigit_eq (b0 : Nat) : b0 >>> 2 = b0 / 4 :=
  Nat.shiftRight_eq_div_pow b0 2

/-- The second digit, of the first two bytes. -/
theorem secondDigit_eq {b0 b1 : Nat} (isByte : b1 < 256) :
    (b0 &&& 3) <<< 4 ||| b1 >>> 4 = b0 % 4 * 16 + b1 / 16 := by
  have isLow : b0 &&& 3 = b0 % 4 := Nat.and_two_pow_sub_one_eq_mod b0 2
  have isHigh : b1 >>> 4 = b1 / 16 := Nat.shiftRight_eq_div_pow b1 4
  rw [isLow, isHigh]
  exact shiftLeft_or (Nat.div_lt_of_lt_mul isByte)

/-- The third digit, of the last two bytes. -/
theorem thirdDigit_eq {b1 b2 : Nat} (isByte : b2 < 256) :
    (b1 &&& 0xf) <<< 2 ||| b2 >>> 6 = b1 % 16 * 4 + b2 / 64 := by
  have isLow : b1 &&& 0xf = b1 % 16 := Nat.and_two_pow_sub_one_eq_mod b1 4
  have isHigh : b2 >>> 6 = b2 / 64 := Nat.shiftRight_eq_div_pow b2 6
  rw [isLow, isHigh]
  exact shiftLeft_or (Nat.div_lt_of_lt_mul isByte)

/-- The last digit of three bytes. -/
theorem fourthDigit_eq (b2 : Nat) : b2 &&& 0x3f = b2 % 64 :=
  Nat.and_two_pow_sub_one_eq_mod b2 6

theorem encodeChunk_one (first : UInt8) :
    encodeChunk [first] =
      [digitChar (first.toNat / 4), digitChar (first.toNat % 4 * 16),
        '=', '='] := by
  change [digitChar (first.toNat >>> 2),
    digitChar ((first.toNat &&& 3) <<< 4 ||| 0 >>> 4), '=', '='] = _
  rw [firstDigit_eq, secondDigit_eq (by decide)]
  rfl

theorem encodeChunk_two (first second : UInt8) :
    encodeChunk [first, second] =
      [digitChar (first.toNat / 4),
        digitChar (first.toNat % 4 * 16 + second.toNat / 16),
        digitChar (second.toNat % 16 * 4), '='] := by
  change [digitChar (first.toNat >>> 2),
    digitChar ((first.toNat &&& 3) <<< 4 ||| second.toNat >>> 4),
    digitChar ((second.toNat &&& 0xf) <<< 2 ||| 0 >>> 6), '='] = _
  rw [firstDigit_eq, secondDigit_eq second.toNat_lt,
    thirdDigit_eq (by decide)]
  rfl

theorem encodeChunk_three (first second third : UInt8) :
    encodeChunk [first, second, third] =
      [digitChar (first.toNat / 4),
        digitChar (first.toNat % 4 * 16 + second.toNat / 16),
        digitChar (second.toNat % 16 * 4 + third.toNat / 64),
        digitChar (third.toNat % 64)] := by
  change [digitChar (first.toNat >>> 2),
    digitChar ((first.toNat &&& 3) <<< 4 ||| second.toNat >>> 4),
    digitChar ((second.toNat &&& 0xf) <<< 2 ||| third.toNat >>> 6),
    digitChar (third.toNat &&& 0x3f)] = _
  rw [firstDigit_eq, secondDigit_eq second.toNat_lt,
    thirdDigit_eq third.toNat_lt, fourthDigit_eq]

/-- The shifts and masks write the characters of the arithmetic codec. -/
theorem base64Encode_eq (data : List UInt8) :
    base64Encode data = (Sweety.base64Encode data).map byteChar := by
  induction data using Sweety.base64Encode.induct with
  | case1 =>
      rfl
  | case2 first =>
      change encodeChunk [first] ++ [] = _
      rw [List.append_nil, encodeChunk_one]
      rfl
  | case3 first second =>
      change encodeChunk [first, second] ++ [] = _
      rw [List.append_nil, encodeChunk_two]
      rfl
  | case4 first second third rest inductionHypothesis =>
      rw [base64Encode] at inductionHypothesis ⊢
      rw [chunks3, List.flatMap_cons, encodeChunk_three, inductionHypothesis]
      rfl

/-- Every character that is decoded gives six bits. -/
theorem decodeChar_ofNat :
    ∀ code < 256,
      ((decodeChar (UInt8.ofNat code)).getD 0).toNat =
          (Sweety.decodeChar (UInt8.ofNat code)).getD 0 ∧
        (Sweety.decodeChar (UInt8.ofNat code)).getD 0 < 64 := by
  decide +kernel

theorem decodeChar_eq (char : UInt8) :
    ((decodeChar char).getD 0).toNat = (Sweety.decodeChar char).getD 0 ∧
      (Sweety.decodeChar char).getD 0 < 64 := by
  have known := decodeChar_ofNat char.toNat char.toNat_lt
  rwa [UInt8.ofNat_toNat] at known

/-- A byte of the last bits of one character and the first ones of the next. -/
theorem digits_or
    {high low up down : UInt8}
    (isByte : up.toNat < 8 ∧ down.toNat < 8)
    (sixBits : down.toNat + up.toNat = 6) :
    (decodeChar high).getD 0 <<< up ||| (decodeChar low).getD 0 >>> down =
      UInt8.ofNat
        ((Sweety.decodeChar high).getD 0 * 2 ^ up.toNat +
          (Sweety.decodeChar low).getD 0 / 2 ^ down.toNat) := by
  obtain ⟨isLow, lowSmall⟩ := decodeChar_eq low
  have isShifted :
      ((decodeChar low).getD 0 >>> down).toNat =
        (Sweety.decodeChar low).getD 0 / 2 ^ down.toNat := by
    rw [UInt8.toNat_shiftRight, isLow, Nat.shiftRight_eq_div_pow,
      Nat.mod_eq_of_lt isByte.2]
  have small :
      (Sweety.decodeChar low).getD 0 / 2 ^ down.toNat < 2 ^ up.toNat := by
    apply Nat.div_lt_of_lt_mul
    rw [← Nat.pow_add, sixBits]
    exact lowSmall
  rw [shiftLeft_or_byte isByte.1 (isShifted ▸ small), isShifted,
    (decodeChar_eq high).1]

theorem decodeChunk_four (first second third fourth : UInt8) :
    decodeChunk [first, second, third, fourth] =
      decodeGroup first second third fourth := by
  obtain ⟨isThird, _⟩ := decodeChar_eq third
  obtain ⟨isFourth, fourthSmall⟩ := decodeChar_eq fourth
  have byte0 :
      (decodeChar first).getD 0 <<< 2 ||| (decodeChar second).getD 0 >>> 4 =
        UInt8.ofNat
          ((Sweety.decodeChar first).getD 0 * 4 +
            (Sweety.decodeChar second).getD 0 / 16) :=
    digits_or (by decide) rfl
  have byte1 :
      (decodeChar second).getD 0 <<< 4 ||| (decodeChar third).getD 0 >>> 2 =
        UInt8.ofNat
          ((Sweety.decodeChar second).getD 0 * 16 +
            (Sweety.decodeChar third).getD 0 / 4) :=
    digits_or (by decide) rfl
  have byte2 :
      (decodeChar third).getD 0 <<< 6 ||| (decodeChar fourth).getD 0 =
        UInt8.ofNat
          ((Sweety.decodeChar third).getD 0 * 64 +
            (Sweety.decodeChar fourth).getD 0) := by
    rw [shiftLeft_or_byte (by decide) (by rw [isFourth]; exact fourthSmall),
      isThird, isFourth]
    rfl
  change
    ((decodeChar first).getD 0 <<< 2 ||| (decodeChar second).getD 0 >>> 4) ::
      ((if third ≠ 61 then
          [(decodeChar second).getD 0 <<< 4 ||| (decodeChar third).getD 0 >>> 2]
        else
          []) ++
        if fourth ≠ 61 then
          [(decodeChar third).getD 0 <<< 6 ||| (decodeChar fourth).getD 0]
        else
          []) = _
  rw [byte0, byte1, byte2]
  rfl

/-- The loop over chunks is the arithmetic decoder. -/
theorem decodeChunks_chunks4 (bytes : List UInt8) :
    decodeChunks (chunks4 bytes) = Sweety.base64Decode bytes := by
  induction bytes using chunks4.induct with
  | case1 first second third fourth rest inductionHypothesis =>
      rw [chunks4, decodeChunks, if_neg (by simp), decodeChunk_four,
        inductionHypothesis, Sweety.base64Decode]
  | case2 =>
      rfl
  | case3 shorter notLong notEmpty =>
      rcases shorter with
        _ | ⟨first, _ | ⟨second, _ | ⟨third, _ | ⟨fourth, rest⟩⟩⟩⟩
      · rfl
      · rfl
      · rfl
      · rfl
      · exact absurd rfl (notLong first second third fourth rest)

theorem encodeDigit_lt (digit : Nat) : (encodeDigit digit).toNat < 128 := by
  have each : ∀ byte ∈ base64Chars, byte.toNat < 128 := by decide +kernel
  rw [encodeDigit, List.getD_eq_getElem?_getD]
  cases isByte : base64Chars[digit]? with
  | none =>
      decide
  | some byte =>
      exact each byte (List.mem_of_getElem? isByte)

/-- What is written is of ASCII. -/
theorem lt_of_mem_base64Encode
    {data : List UInt8}
    {byte : UInt8}
    (member : byte ∈ Sweety.base64Encode data) :
    byte.toNat < 128 := by
  induction data using Sweety.base64Encode.induct with
  | case1 =>
      cases member
  | case2 first =>
      simp only [Sweety.base64Encode, List.mem_cons, List.not_mem_nil,
        or_false] at member
      rcases member with rfl | rfl | rfl | rfl
      all_goals first | exact encodeDigit_lt _ | decide
  | case3 first second =>
      simp only [Sweety.base64Encode, List.mem_cons, List.not_mem_nil,
        or_false] at member
      rcases member with rfl | rfl | rfl | rfl
      all_goals first | exact encodeDigit_lt _ | decide
  | case4 first second third rest inductionHypothesis =>
      simp only [Sweety.base64Encode, List.mem_cons] at member
      rcases member with rfl | rfl | rfl | rfl | inRest
      · exact encodeDigit_lt _
      · exact encodeDigit_lt _
      · exact encodeDigit_lt _
      · exact encodeDigit_lt _
      · exact inductionHypothesis inRest

/-- Bytes of ASCII are those of their characters. -/
theorem encodeUtf8_map_byteChar
    {bytes : List UInt8}
    (isAscii : ∀ byte ∈ bytes, byte.toNat < 128) :
    encodeUtf8 (bytes.map byteChar) = bytes := by
  induction bytes with
  | nil =>
      rfl
  | cons byte rest inductionHypothesis =>
      rw [List.forall_mem_cons] at isAscii
      have isByte : (byteChar byte).toNat = byte.toNat :=
        AccessLog.toNat_ofNat_byte byte
      rw [List.map_cons, encodeUtf8_cons_ascii (isByte ▸ isAscii.1), isByte,
        UInt8.ofNat_toNat, inductionHypothesis isAscii.2]

/-- Decoding gives back what was encoded. -/
theorem base64Decode_base64Encode (data : List UInt8) :
    base64Decode (base64Encode data) = .ok data := by
  rw [base64Decode, base64Encode_eq,
    encodeUtf8_map_byteChar fun _ member => lt_of_mem_base64Encode member,
    decodeChunks_chunks4, Sweety.base64Decode_base64Encode]

/-! ## The object is read back -/

section Objects

variable
  {serde : SerdeJson}
  {written read : Nat}
  {entry : CacheEntry}

theorem asU64?_decimal (value : Nat) :
    asU64? (.number (decimal value)) =
      if value < 2 ^ 64 then some value else none := by
  rw [asU64?, natOfText?_decimal, Option.bind_some]

theorem headersOf?_map_pairJson (headers : List (List Char × List Char)) :
    headersOf? (.array (headers.map pairJson)) = some headers := by
  rw [headersOf?]
  induction headers with
  | nil =>
      rfl
  | cons header rest inductionHypothesis =>
      have isPair : pairOf? (pairJson header) = some header := by
        rw [pairJson, pairOf?, String.toList_ofList, String.toList_ofList]
      rw [List.map_cons, List.mapM_cons, isPair, inductionHypothesis]
      rfl

/-- The lifetime that is read: one that is too large for a number is none. -/
def ttlRead (record : DiskRecord) : Nat :=
  (if record.ttlSecs < 2 ^ 64 then some record.ttlSecs else none).getD 0

/-- What is read of the file of an entry. -/
theorem deserializeEntry_entryJson
    {bytes : List UInt8}
    (isU16 : entry.status < 2 ^ 16)
    (isRead : serde.fromSlice bytes = .ok (entryJson written entry)) :
    deserializeEntry serde read bytes =
      .ok { Sweety.deserializeEntry read
          (Sweety.serializeEntry written entry) with
        ttl := ttlRead (Sweety.serializeEntry written entry) * second } := by
  have isStatus :
      (asU64? (index "status" (entryJson written entry))).getD 200 % 2 ^ 16 =
        entry.status := by
    change (asU64? (.number (decimal entry.status))).getD 200 % 2 ^ 16 = _
    rw [asU64?_decimal, if_pos (by omega), Option.getD_some,
      Nat.mod_eq_of_lt isU16]
  have isHeaders :
      (headersOf? (index "headers" (entryJson written entry))).getD [] =
        entry.headers := by
    change (headersOf? (.array (entry.headers.map pairJson))).getD [] = _
    rw [headersOf?_map_pairJson, Option.getD_some]
  have isBody :
      base64Decode
          ((asStr? (index "body" (entryJson written entry))).getD "").toList =
        .ok entry.body := by
    change base64Decode (String.ofList (base64Encode entry.body)).toList = _
    rw [String.toList_ofList, base64Decode_base64Encode]
  have isTtl :
      (asU64? (index "ttl_secs" (entryJson written entry))).getD 0 =
        ttlRead (Sweety.serializeEntry written entry) :=
    congrArg (Option.getD · 0) (asU64?_decimal _)
  rw [deserializeEntry, isRead]
  simp only [bind, Except.bind, isBody, isStatus, isHeaders, isTtl,
    Sweety.deserializeEntry, Sweety.serializeEntry,
    Sweety.base64Decode_base64Encode]
  rfl

end Objects

/--
Encoded data is decoded again, and an entry that `serde_json` reads back has the
status, the headers and the body that were written.
-/
theorem entries_round_trip :
    (∀ data, base64Decode (base64Encode data) = .ok data) ∧
      ∀ serde written read entry,
        entry.status < 2 ^ 16 →
        SerdeJson.RoundTrips serde (entryJson written entry) →
        ∃ bytes found,
          serializeEntry serde written entry = .ok bytes ∧
            deserializeEntry serde read bytes = .ok found ∧
            found.status = entry.status ∧
            found.headers = entry.headers ∧
            found.body = entry.body := by
  refine ⟨base64Decode_base64Encode, ?_⟩
  rintro serde written read entry isU16 ⟨bytes, isWritten, isRead⟩
  refine ⟨bytes, _, isWritten, deserializeEntry_entryJson isU16 isRead,
    rfl, rfl, ?_⟩
  exact Sweety.base64Decode_base64Encode entry.body

/-- A small entry. -/
def smallEntry : CacheEntry where
  status := 404
  headers := [("a".toList, "b".toList)]
  body := [1, 2, 3, 4]
  createdAt := 0
  ttl := 60 * second

/-- The bytes of its file. -/
def smallFile : List UInt8 :=
  encodeUtf8 ("\x7b\"body\":\"AQIDBA==\",\"headers\":[[\"a\",\"b\"]]," ++
    "\"status\":404,\"ttl_secs\":60\x7d").toList

/-- What `serde_json` does to them. -/
def smallSerde : SerdeJson where
  toVec _ := .ok smallFile
  fromSlice bytes :=
    if bytes = smallFile then
      .ok (entryJson 0 smallEntry)
    else
      .error "expected value"

theorem roundTrips_smallEntry :
    smallSerde.RoundTrips (entryJson 0 smallEntry) :=
  ⟨smallFile, rfl, by simp [smallSerde]⟩

theorem entries_round_trip_small :
    base64Decode (base64Encode [1, 2, 3, 4]) = .ok [1, 2, 3, 4] ∧
      ∃ bytes found,
        serializeEntry smallSerde 0 smallEntry = .ok bytes ∧
          deserializeEntry smallSerde 7 bytes = .ok found ∧
          found.status = 404 ∧
          found.headers = [("a".toList, "b".toList)] ∧
          found.body = [1, 2, 3, 4] :=
  ⟨entries_round_trip.1 [1, 2, 3, 4],
    entries_round_trip.2 smallSerde 0 7 smallEntry (by decide)
      roundTrips_smallEntry⟩

end Sweety.EntryCodec
