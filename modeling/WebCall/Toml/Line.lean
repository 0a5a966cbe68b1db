/-!
# Blanks, line ends and comments of TOML

Each reader takes the characters that are left and returns those after what it read.
-/
namespace WebCall.Toml

/-- The blanks within a line. -/
def isBlank (c : Char) : Bool := c == ' ' || c == '\t'

/-- Drops the blanks in front. -/
def skip (cs : List Char) : List Char := cs.dropWhile isBlank

/-- A character that text may hold as it is: no control other than the tab. -/
def isPlain (c : Char) : Bool := c == '\t' || (0x20 ≤ c.toNat && c.toNat != 0x7F)

/-- Drops the line end in front; a carriage return alone ends no line. -/
def lineEnd? : List Char → Option (List Char)
  | '\n' :: rest => some rest
  | '\r' :: '\n' :: rest => some rest
  | _ => none

/-- Drops the comment in front, if there is one. -/
def skipComment : List Char → List Char
  | '#' :: rest => rest.dropWhile isPlain
  | rest => rest

/-- Drops what may follow on a line that holds nothing else: blanks, a comment, and the line's end
or the text's. -/
def restOfLine? (cs : List Char) : Option (List Char) :=
  match skipComment (skip cs) with
  | [] => some []
  | rest => lineEnd? rest

/-- Drops blanks and line ends. -/
def skipLines : List Char → List Char
  | '\n' :: rest => skipLines rest
  | '\r' :: '\n' :: rest => skipLines rest
  | ' ' :: rest => skipLines rest
  | '\t' :: rest => skipLines rest
  | rest => rest

theorem length_skip_le (cs : List Char) : (skip cs).length ≤ cs.length :=
  (List.dropWhile_sublist _).length_le

theorem length_lineEnd? {cs rest : List Char} (h : lineEnd? cs = some rest) :
    rest.length < cs.length := by
  unfold lineEnd? at h
  grind

theorem length_skipLines_le (cs : List Char) : (skipLines cs).length ≤ cs.length := by
  fun_induction skipLines cs <;> grind

/-- Drops blanks, line ends and comments, each of which ends its line. -/
def skipLinesAndComments (cs : List Char) : List Char :=
  match _h : skipLines cs with
  | '#' :: rest =>
    match _h' : lineEnd? (rest.dropWhile isPlain) with
    | some next => skipLinesAndComments next
    | none => '#' :: rest
  | rest => rest
termination_by cs.length
decreasing_by
  have h := length_skipLines_le cs
  have h' := length_lineEnd? _h'
  have := (List.dropWhile_sublist (p := isPlain) (l := rest)).length_le
  grind

end WebCall.Toml
