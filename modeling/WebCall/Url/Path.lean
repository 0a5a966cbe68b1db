import WebCall.Url.Percent

/-!
# Paths

The path of a URL as a list of segments. A segment of one dot stands for nothing, and a segment of
two dots takes the segment before it away. A drive letter, a letter followed by a colon or a bar, is
never taken away.

In `file` URLs a drive letter is written with a colon, what follows it in its segment becomes a
segment of its own, and empty segments in front are dropped.
-/
namespace WebCall.Url

/-- A segment of a path, encoded. -/
abbrev Segment := List Char

/-- A path. -/
inductive Path
  /-- A path that does not begin with a slash and has no segments. -/
  | opaquePath (text : List Char)
  /-- Segments, each with a slash in front; without segments there is no path. -/
  | rooted (segments : List Segment)
  deriving DecidableEq, Repr

/-- How a path is written. -/
def Path.text : Path → List Char
  | opaquePath text => text
  | rooted segments => segments.flatMap ('/' :: ·)

/-- A dot, written as itself or encoded. -/
def isDot (s : Segment) : Bool := [['.'], "%2e".toList].contains (s.map Text.lower)

/-- Two dots, each written as itself or encoded. -/
def isDotDot (s : Segment) : Bool :=
  [['.', '.'], ".%2e".toList, "%2e.".toList, "%2e%2e".toList].contains (s.map Text.lower)

/-- A letter followed by a colon or a bar. -/
def isDriveLetter : Segment → Bool
  | [a, b] => Text.isLetter a && (b == ':' || b == '|')
  | _ => false

/-- Takes the last segment away, unless it is a drive letter. -/
def shorten (done : List Segment) : List Segment :=
  match done.getLast? with
  | some s => if isDriveLetter s then done else done.dropLast
  | none => []

/-- Adds a segment to those before it; `isLast` tells that none follows. After a last segment of
dots the path ends with a slash. -/
def addSegment (done : List Segment) (s : Segment) (isLast : Bool) : List Segment :=
  let close (segments : List Segment) := if isLast then segments ++ [[]] else segments
  if isDotDot s then close (shorten done)
  else if isDot s then close done
  else done ++ [s]

/-- Adds all segments of a text, in order. -/
def addSegments : (done : List Segment) → List Segment → List Segment
  | done, [] => done
  | done, [s] => addSegment done s true
  | done, s :: rest => addSegments (addSegment done s false) rest

/-- Cuts a text at slashes, and at backslashes if they count as slashes. -/
def cutSegments (backslash : Bool) (cs : List Char) : List (List Char) :=
  Text.pieces '/' (if backslash then cs.map fun c => if c = '\\' then '/' else c else cs)

/-- The segments of a text whose first slash is gone. -/
def segmentsOf (backslash : Bool) (cs : List Char) : List Segment :=
  addSegments [] ((cutSegments backslash cs).map (encode inPathSet))

/-- A drive letter with a colon, and what follows it in the first segment of a path. -/
def splitDrive? : Segment → Option (Segment × Segment)
  | a :: ':' :: c :: rest => if Text.isLetter a then some ([a, ':'], c :: rest) else none
  | _ => none

/-- Adds a segment to those of a `file` URL. -/
def addFileSegment (done : List Segment) (s : Segment) (isLast : Bool) : List Segment :=
  match done, splitDrive? s with
  | [], some (drive, rest) => [drive, rest]
  | _, _ =>
    if isDriveLetter s then done ++ [s.take 1 ++ [':']] else addSegment done s isLast

/-- Adds all segments of the path of a `file` URL, in order. -/
def addFileSegments : (done : List Segment) → List Segment → List Segment
  | done, [] => done
  | done, [s] => addFileSegment done s true
  | done, s :: rest => addFileSegments (addFileSegment done s false) rest

/-- Drops empty segments in front of others. -/
def dropEmpty : List Segment → List Segment
  | [] :: s :: rest => dropEmpty (s :: rest)
  | segments => segments

/-- The segments of the path of a `file` URL, and whether one of them is a drive letter. -/
def fileSegmentsOf (cs : List Char) : List Segment × Bool :=
  let cut := (cutSegments true cs).map (encode inPathSet)
  (dropEmpty (addFileSegments [] cut), cut.any isDriveLetter)

end WebCall.Url
