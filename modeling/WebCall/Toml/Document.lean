import WebCall.Toml.Moment
import WebCall.Toml.Number
import WebCall.Toml.Quoted

/-!
# TOML documents

A reader for TOML 1.0. A document is a sequence of lines: a line with a key and a value adds to the
table of the last header, a header opens a table or one more element of a list of tables. A value
may run over several lines.

## Main definitions

* `key?`: the parts of a dotted key.
* `value?`: a value and the characters after it.
* `Document.parse?`: the top table of a text.
-/
namespace WebCall.Toml

/-- The letters of a key without quotes. -/
def isBare (c : Char) : Bool := Text.isLetter c || Text.isDigit c || c == '_' || c == '-'

/-- Reads one part of a key. -/
def keyPart? (cs : List Char) : Option (String × List Char) :=
  match cs.takeWhile isBare with
  | [] => (lineText? cs).map fun r => (.ofList r.1, r.2)
  | part => some (.ofList part, cs.dropWhile isBare)

/-- How deep values may be nested, and how many parts a key may have. -/
def maxDepth : Nat := 79

/-- Reads the parts of a key, at most `limit` of them, with points between them and blanks at
will. -/
def keyParts? : (limit : Nat) → List Char → Option (List String × List Char)
  | 0, _ => none
  | limit + 1, cs =>
    (keyPart? (skip cs)).bind fun part =>
      match skip part.2 with
      | '.' :: rest => (keyParts? limit rest).map fun r => (part.1 :: r.1, r.2)
      | rest => some ([part.1], rest)

/-- Reads a key and the blanks around it. -/
def key? (cs : List Char) : Option (List String × List Char) := keyParts? maxDepth cs

/-- Reads a key, the equals sign and a value, with the blanks around the sign. -/
def pair? (value : List Char → Option (Item × List Char)) (cs : List Char) :
    Option ((List String × Item) × List Char) :=
  (key? cs).bind fun key =>
    match key.2 with
    | '=' :: rest => (value (skip rest)).map fun item => ((key.1, item.1), item.2)
    | _ => none

/-- Adds a value under the parts of a key. -/
def Table.addPair (t : Table) (pair : List String × Item) : Option Table :=
  t.put pair.1.dropLast (pair.1.getLastD "") pair.2

/-- Reads the items of an array up to its closing bracket; there is at least one. A comma may follow
the last one. -/
def items? (value : List Char → Option (Item × List Char)) (cs : List Char) :
    Option (List Item × List Char) :=
  match value cs with
  | none => none
  | some item =>
    match skipLinesAndComments item.2 with
    | ']' :: rest => some ([item.1], rest)
    | ',' :: rest =>
      match skipLinesAndComments rest with
      | ']' :: rest => some ([item.1], rest)
      | rest =>
        if rest.length < cs.length then
          (items? value rest).map fun r => (item.1 :: r.1, r.2)
        else none
    | _ => none
termination_by cs.length

/-- Reads the pairs of a table in braces up to the closing brace; there is at least one. -/
def pairs? (value : List Char → Option (Item × List Char)) (t : Table) (cs : List Char) :
    Option (Table × List Char) :=
  match pair? value cs with
  | none => none
  | some pair =>
    match t.addPair pair.1 with
    | none => none
    | some t =>
      match skip pair.2 with
      | '\x7d' :: rest => some (t, rest)
      | ',' :: rest => if rest.length < cs.length then pairs? value t rest else none
      | _ => none
termination_by cs.length

/-- Reads a value that holds no others. -/
def scalar? (cs : List Char) : Option (Item × List Char) :=
  match cs with
  | 't' :: 'r' :: 'u' :: 'e' :: rest => some (.boolean true, rest)
  | 'f' :: 'a' :: 'l' :: 's' :: 'e' :: rest => some (.boolean false, rest)
  | '"' :: _ => (text? cs).map fun r => (.string (.ofList r.1), r.2)
  | '\x27' :: _ => (text? cs).map fun r => (.string (.ofList r.1), r.2)
  | _ =>
    match moment? cs with
    | some rest => some (.moment, rest)
    | none => number? cs

/-- Reads a value. `depth` is how many arrays and tables may still be opened. -/
def value? : (depth : Nat) → List Char → Option (Item × List Char)
  | 0, cs => scalar? cs
  | depth + 1, cs =>
    match cs with
    | '[' :: rest =>
      match skipLinesAndComments rest with
      | ']' :: rest => some (.array [], rest)
      | rest => (items? (value? depth) rest).map fun r => (.array r.1, r.2)
    | '\x7b' :: rest =>
      match skip rest with
      | '\x7d' :: rest => some (.table .closed [], rest)
      | rest => (pairs? (value? depth) [] rest).map fun r => (.table .closed r.1, r.2)
    | cs => scalar? cs

/-- What was read of a document. -/
structure Document where
  /-- The top table. -/
  top : Table := []
  /-- The parts of the last header; what follows it adds to the table that they name. -/
  header : List String := []

namespace Document

/-- Opens the table of a header. -/
def openHeader (d : Document) (header : List String) (change : String → Table → Option Table) :
    Option Document :=
  (d.top.within header.dropLast (change (header.getLastD ""))).map fun top => { top, header }

/-- Adds a value to the table of the last header. -/
def addPair (d : Document) (pair : List String × Item) : Option Document :=
  (d.top.within d.header (·.addPair pair)).map fun top => { d with top }

/-- Reads what one line says, without the blanks in front, and adds it. -/
def line? (d : Document) (cs : List Char) : Option (Document × List Char) :=
  match cs with
  | '[' :: '[' :: rest =>
    (key? rest).bind fun key =>
      match key.2 with
      | ']' :: ']' :: rest => (d.openHeader key.1 Table.openElement).map fun d => (d, rest)
      | _ => none
  | '[' :: rest =>
    (key? rest).bind fun key =>
      match key.2 with
      | ']' :: rest => (d.openHeader key.1 Table.openTable).map fun d => (d, rest)
      | _ => none
  | cs =>
    (pair? (value? maxDepth) cs).bind fun pair => (d.addPair pair.1).map fun d => (d, pair.2)

/-- Reads lines up to the end of the text. A line that holds nothing but blanks or a comment adds
nothing. -/
def lines? (d : Document) (cs : List Char) : Option Document :=
  if cs.isEmpty then some d
  else
    let read := match restOfLine? cs with
      | some rest => some (d, rest)
      | none => (d.line? (skip cs)).bind fun r => (restOfLine? r.2).map fun rest => (r.1, rest)
    match read with
    | none => none
    | some (d, rest) => if rest.length < cs.length then lines? d rest else none
termination_by cs.length

/-- The top table of a text, which may begin with a byte order mark. -/
def parse? (text : String) : Option Table :=
  let cs := text.toList
  let cs := if cs.head? = some '\ufeff' then cs.tail else cs
  (lines? {} cs).map (·.top)

end Document

end WebCall.Toml
