import WebCall.Http.Fields
import WebCall.Http.Message
import WebCall.Http.TransportError
import WebCall.Text.Blank
import WebCall.Wire.Chunked

/-!
# Replies on the wire

Reading a reply from the bytes of a connection. A reply is one or more blocks, each of them a status
line, header lines and an empty line; blocks with a status from 100 to 199 are interim, except 101,
and the first other block is the response. What follows it is the body, whose extent the header
lines tell: chunks, a number of bytes, or everything up to the end of the connection.

## Main definitions

* `Head`: what a block's lines say about its status and its body.
* `Arrival.ofBytes`: what the bytes that came so far amount to.
* `receivedFields`: the header fields of a reply.
-/
namespace WebCall.Wire

open Http (TransferFailure)

/-- What the lines of a block say about its status and its body. -/
structure Head where
  /-- The status code. -/
  status : Nat
  /-- The number of bytes of the body, if it is told. -/
  size : Option Nat := none
  /-- Whether the body comes in chunks. -/
  isChunked : Bool := false
  deriving DecidableEq, Repr

namespace Head

/-- Whether another block follows. -/
def isInterim (h : Head) : Bool := 100 ≤ h.status && h.status ≤ 199 && h.status != 101

/-- Whether a response of this status has no body, whatever its header lines say. -/
def isBodyless (h : Head) : Bool := h.status == 204 || h.status == 304

/-- A blank within a line. -/
def isLineBlank (c : Char) : Bool := c == ' ' || c == '\t'

/-- The three digits after a blank. -/
def code? : List Char → Option Nat
  | blank :: a :: b :: c :: _ =>
    if isLineBlank blank && [a, b, c].all Text.isDigit then some (Text.ofDigits 10 [a, b, c])
    else none
  | _ => none

/-- The status of a line that begins like a status line. Versions other than 1.0 and 1.1 are not
understood. A line that only looks like one, because the version has a minor number that it cannot
have or the start is spelled in other letters, stands for success. -/
def statusOf? : List Char → Option Nat
  | 'H' :: 'T' :: 'T' :: 'P' :: '/' :: rest =>
    match rest with
    | '1' :: '.' :: '0' :: rest => code? rest
    | '1' :: '.' :: '1' :: rest => code? rest
    | '2' :: c :: _ => if isLineBlank c then none else some 200
    | '3' :: c :: _ => if isLineBlank c then none else some 200
    | _ => none
  | _ => some 200

/-- Whether a line begins like a status line, as far as it goes. -/
def beginsLikeStatus (line : List Char) : Bool :=
  (line.take Http.statusLead.length).map Text.upper == Http.statusLead.take line.length

/-- What follows a name at the front of a line. -/
def after? (name : String) (line : List Char) : Option (List Char) :=
  if Text.sameName (.ofList (line.take name.length)) name then some (line.drop name.length) else none

/-- The failure of a first line that is no status line. -/
def notHttp (isFirst : Bool) : TransferFailure :=
  if isFirst then .unsupportedProtocol else .weirdReply

/-- The start of a block by its first line. `isFirst` tells that no block came before. -/
def ofStatusLine (isFirst : Bool) (line : List Char) : Except TransferFailure Head :=
  if !beginsLikeStatus line then .error (notHttp isFirst)
  else match statusOf? line with
    | none => .error .unsupportedProtocol
    | some status => if line.contains '\x00' then .error .weirdReply else .ok { status }

/-- Takes the number of bytes from a header line. One that is too large counts as not told. -/
def withSize (h : Head) (value : List Char) : Except TransferFailure Head :=
  let digits := (value.dropWhile isLineBlank).takeWhile Text.isDigit
  let n := Text.ofDigits 10 digits
  if digits.isEmpty then .error .weirdReply
  else if n < Nat.pow 2 63 then .ok { h with size := some n }
  else .ok h

/-- Takes the names of encodings from a header line. Nothing but chunks is understood, and they come
last. -/
def withEncodings : Head → List (List Char) → Except TransferFailure Head
  | h, [] => .ok h
  | h, name :: rest =>
    let name := Text.trimBoth name
    if name.isEmpty then withEncodings h rest
    else match String.ofList (name.map Text.lower) with
      | "chunked" => if h.isChunked then .ok h else withEncodings { h with isChunked := true } rest
      | "identity" => withEncodings h rest
      | _ => .error .unknownEncoding

/-- Takes a header line. `isSecond` tells that it follows the status line; a later line may continue
the one before. -/
def addLine (h : Head) (isSecond : Bool) (line : List Char) : Except TransferFailure Head :=
  let continues : Bool := !isSecond && line.head?.any isLineBlank
  if line.contains '\x00' || (!continues && !line.contains ':') then .error .weirdReply
  else if h.isBodyless then .ok h
  else match after? "Content-Length:" line, after? "Transfer-Encoding:" line with
    | some value, _ => h.withSize value
    | _, some value => h.withEncodings (Text.pieces ',' value)
    | none, none => .ok h

end Head

/-- A complete reply. -/
structure Received where
  /-- The status code of the response. -/
  status : Nat
  /-- The header lines of all blocks with their line ends, status lines among them, and those after
  the body. -/
  lines : List Bytes
  /-- The body. -/
  body : Bytes
  deriving DecidableEq, Repr

/-- What the bytes that came so far amount to. -/
inductive Arrival
  /-- Nothing that comes later matters. -/
  | settled (result : Except TransferFailure Received)
  /-- More is expected; the result if the connection closes instead. -/
  | pending (closed : Except TransferFailure Received)

namespace Arrival

/-- The result of a response whose body ends too early. -/
def tooShort (h : Head) (lines : List Bytes) (body : Bytes) : Except TransferFailure Received :=
  match h.size with
  | some n =>
    if body.length < n then .error .partialBody else .ok ⟨h.status, lines, body⟩
  | none => .ok ⟨h.status, lines, body⟩

/-- What the bytes after the head of a response amount to. -/
def ofBody (h : Head) (lines : List Bytes) (bytes : Bytes) : Arrival :=
  if h.isBodyless then settled (.ok ⟨h.status, lines, []⟩)
  else if h.isChunked then
    match Chunks.ofBytes bytes with
    | .complete body trailer => settled (.ok ⟨h.status, lines ++ trailer, body⟩)
    | .unfinished => pending (.error .partialBody)
    | .broken => settled (.error .brokenBody)
    | .badTrailer => settled (.error .malformedPart)
  else match h.size with
    | some n =>
      if n ≤ bytes.length then settled (.ok ⟨h.status, lines, bytes.take n⟩)
      else pending (tooShort h lines bytes)
    | none => pending (tooShort h lines bytes)

/-- What the bytes amount to whose complete lines are left to read, with those that were read. The
head is that of the block that is being read, if it has begun. -/
def ofLines (seen : List Bytes) (head : Option Head) (isSecond : Bool) (tail : Bytes) :
    List Bytes → Arrival
  | [] =>
    match head with
    | none =>
      if Head.beginsLikeStatus (chars tail) then pending (.error .emptyReply)
      else settled (.error (Head.notHttp seen.isEmpty))
    | some h => pending (tooShort h seen [])
  | line :: rest =>
    match head with
    | none =>
      match Head.ofStatusLine seen.isEmpty (chars line) with
      | .error e => settled (.error e)
      | .ok h => ofLines (seen ++ [line]) (some h) true tail rest
    | some h =>
      if line.head? = some 13 ∨ line.head? = some 10 then
        if h.status < 100 then settled (.error .unsupportedProtocol)
        else if h.isInterim then ofLines (seen ++ [line]) none false tail rest
        else ofBody h (seen ++ [line]) (rest.flatten ++ tail)
      else
        match h.addLine isSecond (chars line) with
        | .error e => settled (.error e)
        | .ok h => ofLines (seen ++ [line]) (some h) false tail rest

/-- What bytes from the start of a connection amount to. -/
def ofBytes (bytes : Bytes) : Arrival :=
  let cut := cutLines bytes
  ofLines [] none false cut.2 cut.1

end Arrival

/-- The header fields of a reply, from its header lines. A line that is not UTF-8 does not count. -/
def receivedFields (lines : List Bytes) : Http.Fields :=
  Http.fieldsOfLines ((lines.filterMap Utf8.decode?).map Text.trimEnd)

/-- The response that a reply brings. -/
def Received.response (r : Received) : Http.Response :=
  ⟨r.status, receivedFields r.lines, Utf8.decodeLossy r.body⟩

end WebCall.Wire
