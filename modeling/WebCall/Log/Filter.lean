import WebCall.Log.Record
import WebCall.Text.Ascii
import WebCall.Text.Blank

/-!
# Log filters

Which records the log takes. A filter is a list of directives with commas between them. A directive
gives a level, an area's path or the start of one, or both as `path=level`. Of the directives that
fit a record the most specific decides, of equals the last; a record that none fits is not taken.

A directive may also name a span in brackets, and fields in braces. This program opens no spans, and
its records have one field, the message.
-/
namespace WebCall.Log

/-- A directive that can fit a record. -/
structure Directive where
  /-- How an area's path has to begin. -/
  path : String := ""
  /-- The fields that a record has to have. -/
  fields : List String := []
  /-- The level up to which records are taken; `none` takes no record. -/
  level : Option Level
  deriving DecidableEq, Repr

namespace Directive

/-- The name of the only field of a record. -/
def messageField : String := "message"

/-- Whether a directive fits a record. -/
def fits (d : Directive) (r : Record) : Bool :=
  d.path.toList.isPrefixOf r.area.path.toList && d.fields.all (· == messageField)

/-- Whether one directive is more specific than another: by a longer path, or by more fields. -/
def isMoreSpecific (a b : Directive) : Bool :=
  b.path.utf8ByteSize < a.path.utf8ByteSize ||
    (b.path.utf8ByteSize == a.path.utf8ByteSize && b.fields.length < a.fields.length)

/-- Whether a directive takes the records of a level. -/
def takes (d : Directive) (level : Level) : Bool := d.level.any fun top => level.rank ≤ top.rank

/-- The level of a name, in any case of its letters, or of a number. -/
def level? (text : List Char) : Option (Option Level) :=
  match Text.count? text with
  | some n => [none, some .error, some .warn, some .info, some .debug, some .trace][n]?
  | none =>
    match String.ofList (text.map Text.lower) with
    | "off" => some none
    | "error" => some (some .error)
    | "warn" => some (some .warn)
    | "info" => some (some .info)
    | "debug" => some (some .debug)
    | "trace" => some (some .trace)
    | _ => none

/-- The level after a path or a span: all records are taken where none is given. -/
def levelTail? : List Char → Option (Option Level)
  | [] => some (some .trace)
  | ['='] => some (some .trace)
  | '=' :: text => level? text
  | _ => none

/-- Reads a directive from the bracket on. One that names a span, or the value of a field, is right
but fits no record. -/
def ofSpan? (path text : List Char) : Option (List Directive) :=
  let inside (c : Char) : Bool := c != ']' && c != '\x7b'
  match text.dropWhile inside with
  | ']' :: rest => (levelTail? rest).map fun _ => []
  | '\x7b' :: rest =>
    let field := rest.takeWhile (· != '\x7d')
    match rest.drop field.length with
    | '\x7d' :: ']' :: rest =>
      if field.isEmpty then none
      else
        (levelTail? rest).map fun level =>
          if inside (text.headD ']') || field.contains '=' then []
          else [⟨.ofList path, [.ofList field], level⟩]
    | _ => none
  | _ => none

/-- A character that a path can begin with. -/
def beginsPath (c : Char) : Bool :=
  Text.isLetter c || Text.isDigit c || c == '-' || c == ':' || c == '_' || 0x80 ≤ c.toNat

/-- Reads a directive. It comes as a list, which is empty for a directive that fits no record. -/
def ofText? (text : List Char) : Option (List Directive) :=
  let inside (c : Char) : Bool := c != '[' && c != '='
  let path := text.takeWhile inside
  match text.drop path.length with
  | '[' :: rest => if path.head?.all beginsPath then ofSpan? path rest else none
  | rest =>
    if path.head?.any beginsPath then
      match rest, level? path with
      | [], some level => some [⟨"", [], level⟩]
      | _, _ => (levelTail? rest).map fun level => [⟨.ofList path, [], level⟩]
    else none

end Directive

/-- A filter: its directives, in their order. -/
abbrev Filter := List Directive

namespace Filter

/-- Reads a filter. Empty directives do not count. -/
def ofText? (text : String) : Option Filter :=
  let texts := (Text.pieces ',' text.toList).filter (!·.isEmpty)
  (texts.mapM fun text => Directive.ofText? (Text.trimBoth text)).map List.flatten

/-- The filter of a program that is told nothing about it. -/
def usual : Filter :=
  [⟨"", [], some .info⟩, ⟨"callguard", [], some .debug⟩, ⟨"callguard_core", [], some .debug⟩]

/-- The filter of what a user asks for; what cannot be understood is ignored. -/
def ofRequest (text : Option String) : Filter := (text.bind ofText?).getD usual

/-- The directive that decides on a record. -/
def deciding? (f : Filter) (r : Record) : Option Directive :=
  f.foldl (fun best d =>
    if d.fits r && !best.any (·.isMoreSpecific d) then some d else best) none

/-- Whether a filter takes a record. -/
def takes (f : Filter) (r : Record) : Bool := (f.deciding? r).any (·.takes r.level)

end Filter

end WebCall.Log
