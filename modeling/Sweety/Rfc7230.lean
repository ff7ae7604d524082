import Sweety.HttpText

namespace Sweety.Rfc7230

open HttpText

/-!
# Responses by RFC 7230

What a complete response to a request is, and where it ends: any number of
interim responses, a final head, and the body that the head, the status and the
request's method call for.  This is a specification of its own and says nothing
about how the proxy reads a response.

A body that ends with the connection has no end on a connection that goes on,
so it is not part of any response here.
-/

/-- The end of a line. -/
def crlf : List Char :=
  ['\r', '\n']

/-- A text without a line break. -/
def OneLine (text : List Char) : Prop :=
  '\r' ∉ text ∧ '\n' ∉ text

/-- `tchar`. -/
def isTokenChar (char : Char) : Bool :=
  char.isAlphanum || "!#$%&'*+-.^_`|~".toList.contains char

/-- Optional whitespace. -/
def isOws (char : Char) : Bool :=
  char == ' ' || char == '\t'

/-- A text without the whitespace around it. -/
def stripOws (text : List Char) : List Char :=
  (text.dropWhile isOws).rdropWhile isOws

/-- A header field; `text` is everything between the colon and the line end. -/
structure Field where
  name : List Char
  text : List Char
  nonempty : name ≠ []
  token : ∀ char ∈ name, isTokenChar char = true
  oneLine : OneLine text

namespace Field

/-- The line of a field. -/
def line (field : Field) : List Char :=
  field.name ++ ':' :: field.text ++ crlf

/-- The value of a field. -/
def value (field : Field) : List Char :=
  stripOws field.text

end Field

/-! ## Heads -/

/-- The beginning of every status line. -/
def protocol : List Char :=
  ['H', 'T', 'T', 'P', '/', '1', '.']

/-- The three digits of a status code. -/
def statusDigits (status : Nat) : List Char :=
  [Nat.digitChar (status / 100), Nat.digitChar (status / 10 % 10),
    Nat.digitChar (status % 10)]

/-- The head of a response, interim or final. -/
structure Head where
  minor : Char
  status : Nat
  reason : List Char
  fields : List Field
  minorDigit : minor.isDigit = true
  threeDigits : 100 ≤ status ∧ status < 1000
  oneLine : OneLine reason

namespace Head

/-- The status line. -/
def statusLine (head : Head) : List Char :=
  protocol ++ head.minor :: ' ' :: statusDigits head.status ++
    ' ' :: head.reason ++ crlf

/-- The head on the wire. -/
def bytes (head : Head) : List UInt8 :=
  encodeUtf8
    (head.statusLine ++ head.fields.flatMap Field.line ++ crlf)

/-- The values of all fields of this name. -/
def values (name : String) (head : Head) : List (List Char) :=
  (head.fields.filter fun field =>
    eqIgnoreAsciiCase field.name name.toList).map Field.value

/-- The last transfer coding is `chunked`. -/
def EndsChunked (head : Head) : Prop :=
  ((head.values "transfer-encoding").flatMap fun value =>
      (value.splitOn ',').map stripOws).getLast?.map toAsciiLowercase =
    some "chunked".toList

/-- The value of a string of decimal digits. -/
def decimalValue? (text : List Char) : Option Nat :=
  if text ≠ [] ∧ text.all Char.isDigit then
    some (foldDigits 10 0 text)
  else
    none

/-- The length that all `Content-Length` fields agree on. -/
def contentLength? (head : Head) : Option Nat :=
  match head.values "content-length" with
  | [] =>
      none
  | first :: others =>
      if others.all (· == first) then
        decimalValue? first
      else
        none

end Head

/-! ## Bodies -/

/-- The value of a string of hexadecimal digits. -/
def hexValue (text : List Char) : Nat :=
  foldDigits 16 0 text

/-- The size line of a chunk: the size, and extensions. -/
structure SizeLine where
  digits : List Char
  extensions : List Char
  nonempty : digits ≠ []
  hexadecimal : ∀ char ∈ digits, (digitValue? 16 char).isSome = true
  semicolon : extensions = [] ∨ extensions.head? = some ';'
  oneLine : OneLine extensions

namespace SizeLine

/-- The size that is announced. -/
def size (sizeLine : SizeLine) : Nat :=
  hexValue sizeLine.digits

/-- The line itself. -/
def line (sizeLine : SizeLine) : List Char :=
  sizeLine.digits ++ sizeLine.extensions ++ crlf

end SizeLine

/-- A chunk with some data. -/
structure Chunk where
  sizeLine : SizeLine
  data : List UInt8
  nonempty : data ≠ []
  exact : sizeLine.size = data.length

/-- A chunk on the wire. -/
def Chunk.bytes (chunk : Chunk) : List UInt8 :=
  encodeUtf8 chunk.sizeLine.line ++ chunk.data ++ encodeUtf8 crlf

/-- A chunked body: its chunks, the last chunk, and trailers. -/
structure ChunkedBody where
  chunks : List Chunk
  last : SizeLine
  trailers : List Field
  zero : last.size = 0

/-- A chunked body on the wire. -/
def ChunkedBody.bytes (body : ChunkedBody) : List UInt8 :=
  body.chunks.flatMap Chunk.bytes ++
    encodeUtf8
      (body.last.line ++ body.trailers.flatMap Field.line ++ crlf)

/-- The body of a response. -/
inductive Body where
  | plain (bytes : List UInt8)
  | chunked (body : ChunkedBody)

/-- A body on the wire. -/
def Body.bytes : Body → List UInt8
  | .plain bytes =>
      bytes
  | .chunked body =>
      body.bytes

/-- Section 3.3.3: the body that follows a final head. -/
def Head.Fits (method : String) (head : Head) (body : Body) : Prop :=
  if method = "HEAD" ∨ head.status = 204 ∨ head.status = 304 then
    body = .plain []
  else if method = "CONNECT" ∧ head.status < 300 then
    -- The connection becomes a tunnel.
    False
  else if head.values "transfer-encoding" ≠ [] then
    head.EndsChunked ∧ ∃ chunked, body = .chunked chunked
  else
    ∃ bytes,
      head.contentLength? = some bytes.length ∧ body = .plain bytes

/-! ## Responses -/

/-- A complete response to a request with this method. -/
structure Response (method : String) where
  interims : List Head
  head : Head
  body : Body
  interim :
    ∀ head ∈ interims, head.status < 200 ∧ head.status ≠ 101
  final : 200 ≤ head.status
  fits : head.Fits method body

/-- A response on the wire. -/
def Response.bytes {method : String} (response : Response method) :
    List UInt8 :=
  response.interims.flatMap Head.bytes ++ response.head.bytes ++
    response.body.bytes

/-- The bytes are one complete response, from its beginning to its end. -/
def IsResponse (method : String) (bytes : List UInt8) : Prop :=
  ∃ response : Response method, response.bytes = bytes

end Sweety.Rfc7230
