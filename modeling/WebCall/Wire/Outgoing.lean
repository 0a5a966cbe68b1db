import WebCall.Http.Message
import WebCall.Text.Blank
import WebCall.Wire.Address
import WebCall.Wire.Chunked

/-!
# Requests on the wire

How a request is written: its request line, its header lines, and its body. Beside the fields of the
request there are some that every request has, unless the request gives a field of that name itself.
A field of the request may also ask for a body in chunks. The login of an address is sent in base64:
three bytes make four characters, and a shorter group at the end is filled up with equals signs.

## Main definitions

* `headerLines`: the header lines of a request's own fields.
* `Outgoing.ofRequest`: the whole request at an address.
* `Outgoing.bytes`: what is written.
-/
namespace WebCall.Wire

/-- The header line of a field, with blanks around the name and the value dropped. -/
def headerLine (field : String × String) : String :=
  s!"{Text.trim field.1}: {Text.trim field.2}"

/-- The header lines of a request's own fields. -/
def headerLines (r : Http.Request) : List String := r.fields.map headerLine

/-- Whether a header line is written. One without a name or without a value is not. -/
def isWritten (line : String) : Bool :=
  match Text.splitFirst? ':' line.toList with
  | some (name, value) => !name.isEmpty && value.any (!Text.isBlank ·)
  | none => false

/-- Whether a header line gives a field of a name, be it without a value. -/
def givesField (name line : String) : Bool :=
  Text.sameName (.ofList (line.toList.take name.length)) name &&
    (line.toList[name.length]?).any fun c => c == ':' || c == ';'

/-- The name of the field that tells how a body is written. -/
def encodingField : String := "Transfer-Encoding"

/-- Whether header lines ask for a body in chunks. The first line of that name counts. -/
def askForChunks (lines : List String) : Bool :=
  (lines.find? (givesField encodingField)).any fun line =>
    Text.contains ((line.toList.drop (encodingField.length + 1)).map Text.lower) "chunked".toList

/-- The characters that stand for the numbers below 64. -/
def base64Alphabet : List Char :=
  "ABCDEFGHIJKLMNOPQRSTUVWXYZabcdefghijklmnopqrstuvwxyz0123456789+/".toList

/-- The character for six bits of a number, after the lowest `shift` bits. -/
def base64Char (n shift : Nat) : Char := base64Alphabet.getD (n / Nat.pow 2 shift % 64) '='

/-- The text of a byte sequence. -/
def base64 : Bytes → List Char
  | a :: b :: c :: rest =>
    let n := (a.toNat * 256 + b.toNat) * 256 + c.toNat
    base64Char n 18 :: base64Char n 12 :: base64Char n 6 :: base64Char n 0 :: base64 rest
  | [a, b] =>
    let n := (a.toNat * 256 + b.toNat) * 256
    [base64Char n 18, base64Char n 12, base64Char n 6, '=']
  | [a] =>
    let n := a.toNat * 65536
    [base64Char n 18, base64Char n 12, '=', '=']
  | [] => []

/-- A request as it is written. -/
structure Outgoing where
  /-- The request line. -/
  line : String
  /-- The header lines. -/
  headers : List String
  /-- What is written after them. -/
  body : Bytes
  deriving DecidableEq, Repr

namespace Outgoing

/-- The name that the program gives itself. -/
def userAgent : String := "callguard/0.1.0"

/-- The body that a method sends. `GET` sends none, whatever the request has, and `POST` sends one
always. -/
def bodyOf (r : Http.Request) : Option Bytes :=
  match r.method, r.body with
  | .get, _ => none
  | _, some body => some body
  | .post, none => some []
  | _, none => none

/-- The credential of a login. -/
def loginCredential (login : Bytes × Bytes) : String :=
  "Basic " ++ .ofList (base64 (login.1 ++ Utf8.encode ":" ++ login.2))

/-- The fields that every request has. -/
def usualFields (a : Address) : Http.Fields :=
  ("Host", a.peer) ::
    (a.login.map fun login => ("Authorization", loginCredential login)).toList ++
    [("User-Agent", userAgent), ("Accept", "*/*")]

/-- The fields that describe a body. The length of one in chunks is not told beforehand. -/
def bodyFields (inChunks : Bool) (body : Bytes) : Http.Fields :=
  (if inChunks then [] else [("Content-Length", toString body.length)]) ++
    [("Content-Type", "application/x-www-form-urlencoded")]

/-- The header lines of the fields that no other line gives. -/
def unlessGiven (lines : List String) (fields : Http.Fields) : List String :=
  (fields.filter fun f => !lines.any (givesField f.1)).map headerLine

/-- A request at an address. -/
def ofRequest (a : Address) (r : Http.Request) : Outgoing :=
  let lines := headerLines r
  let inChunks := askForChunks lines
  let body := bodyOf r
  { line := s!"{r.method.name} {String.ofList a.target} HTTP/1.1"
    headers := unlessGiven lines (usualFields a) ++ lines.filter isWritten ++
      unlessGiven lines ((body.map (bodyFields inChunks)).getD [])
    body := (body.map fun b => if inChunks then Chunks.write b else b).getD [] }

/-- What is written. -/
def bytes (o : Outgoing) : Bytes :=
  Utf8.encode (.join ((o.line :: o.headers ++ [""]).map (· ++ "\r\n"))) ++ o.body

end Outgoing

end WebCall.Wire
