import WebCall.Http.Fields
import WebCall.Text.Ascii
import WebCall.Text.Blank
import WebCall.Text.Utf8

/-!
# Requests as peers read them

What a peer that knows little more than line ends makes of the bytes of a request: the lines up to
the first empty one, the fields on them, and the bytes after it, of which there have to be as many
as a field tells. A value with line ends in it is more than one line to such a peer, and a body in
chunks is seen as it is written.
-/
namespace WebCall.Wire

/-- The bytes before and after the first place where a mark stands. -/
def cutAt? (mark : Bytes) : Bytes → Option (Bytes × Bytes)
  | [] => none
  | b :: rest =>
    if mark.isPrefixOf (b :: rest) then some ([], (b :: rest).drop mark.length)
    else (cutAt? mark rest).map fun p => (b :: p.1, p.2)

/-- The lines of a text. A line ends with a line feed, with or without a carriage return before
it. -/
def textLines (text : String) : List (List Char) :=
  (Text.pieces '\n' text.toList).map fun line =>
    if line.getLast? = some '\r' then line.dropLast else line

/-- A request as a peer reads it. -/
structure Observed where
  /-- The request line. -/
  line : String
  /-- The fields. -/
  fields : Http.Fields
  /-- The body. -/
  body : Bytes
  deriving DecidableEq, Repr

namespace Observed

/-- The field of a line, if there is a colon in it. -/
def field? (line : List Char) : Option (String × String) :=
  (Text.splitFirst? ':' line).map fun p => (.ofList p.1, .ofList (p.2.dropWhile Text.isBlank))

/-- The name of the field that tells how many bytes a body has. -/
def lengthField : String := "Content-Length"

/-- The number of bytes that fields tell: the first of that name that has a count. -/
def bodyLength (fields : Http.Fields) : Nat :=
  (fields.findSome? fun f =>
    if Text.sameName (Text.trim f.1) lengthField then Text.count? (Text.trimBoth f.2.toList)
    else none).getD 0

/-- What a peer reads. It gives up on a request that is not complete. -/
def ofBytes? (bytes : Bytes) : Option Observed :=
  (cutAt? [13, 10, 13, 10] bytes).bind fun p =>
    let lines := textLines (Utf8.decodeLossy p.1)
    let fields := lines.tail.filterMap field?
    if p.2.length < bodyLength fields then none
    else some { line := .ofList (lines.headD []), fields, body := p.2 }

end Observed

end WebCall.Wire
