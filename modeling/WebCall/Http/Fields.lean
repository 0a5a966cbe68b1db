import WebCall.Text.Ascii
import WebCall.Text.Blank

/-!
# Header fields

An ordered list of header fields. A field's name is matched without regard to the case of its ASCII
letters; spelling, order and values are kept as they were given. `Fields.set` keeps at most one
field of a name, while a list that came from outside may hold several, and `Fields.get?` finds the
first.

The fields of a reply are read from its lines. A reply can consist of several blocks, interim
responses before the final one, and each block opens with a status line; only the fields of the last
block are kept.
-/
namespace WebCall.Http

/-- Header fields, as pairs of name and value. -/
abbrev Fields := List (String × String)

namespace Fields

/-- The value of the first field of a name. -/
def get? (fields : Fields) (name : String) : Option String :=
  (fields.find? fun f => Text.sameName f.1 name).map (·.2)

/-- The fields of all other names. -/
def without (fields : Fields) (name : String) : Fields :=
  fields.filter fun f => !Text.sameName f.1 name

/-- Puts a field at the end and removes every other field of its name. -/
def set (fields : Fields) (name value : String) : Fields :=
  fields.without name ++ [(name, value)]

@[simp] theorem get?_nil (name : String) : get? [] name = none := rfl

/-- No field of the removed name is left. -/
theorem sameName_eq_false_of_mem_without {fields : Fields} {name : String} {f : String × String}
    (h : f ∈ fields.without name) : Text.sameName f.1 name = false := by
  simpa using (List.mem_filter.1 h).2

/-- The field that was set last is found under every spelling of its name. -/
theorem get?_set_of_sameName {fields : Fields} {name other value : String}
    (h : Text.sameName name other = true) : (fields.set name value).get? other = some value := by
  have key : List.find? (fun f => Text.sameName f.1 other) (fields.without name) = none := by
    rw [List.find?_eq_none]
    intro f hf hs
    have h1 := sameName_eq_false_of_mem_without hf
    rw [Text.sameName_eq_true_iff] at h hs
    have h2 : Text.sameName f.1 name = true := Text.sameName_eq_true_iff.2 (hs.trans h.symm)
    rw [h1] at h2
    cases h2
  simp [get?, set, List.find?_append, key, h]

end Fields

/-- The start of every status line. -/
def statusLead : List Char := ['H', 'T', 'T', 'P', '/']

/-- The field of a line without outer blanks; `none` for a line without a colon. Blanks around the
name and around the value are dropped. -/
def fieldOfLine? (line : List Char) : Option (String × String) :=
  (Text.splitFirst? ':' line).map fun p =>
    (.ofList (Text.trimBoth p.1), .ofList (Text.trimBoth p.2))

/-- Adds one line to the fields read so far: a status line drops them, and a line without a colon
adds nothing. -/
def addLine (fields : Fields) (line : String) : Fields :=
  let line := Text.trimBoth line.toList
  if statusLead.isPrefixOf line then [] else fields ++ (fieldOfLine? line).toList

/-- The fields of the last block of a reply's header lines. -/
def fieldsOfLines (lines : List String) : Fields := lines.foldl addLine []

@[simp] theorem fieldsOfLines_nil : fieldsOfLines [] = [] := rfl

end WebCall.Http
