import Mathlib.Data.List.DropRight
import Mathlib.Data.List.Induction
import WebCall.Http.Fields
import WebCall.Proofs.Text.Trim

/-!
# Fields of the last block

A status line drops the fields of all lines before it, so what is read are the fields of the lines
after the last status line, one for each line with a colon. Fields that are written line by line are
read back, if their lines do not look like status lines.

## Main definitions

* `IsStatusLine`: the lines that drop what was read before.
* `lastBlock`: the lines after the last status line.
* `spelled`: the field of a line with a colon.
* `fieldsOfLines_lastBlock`: what is read.
-/
namespace WebCall.Http

/-- A line that begins with the start of a status line. -/
def OpensBlock (line : String) : Prop := statusLead <+: line.toList

/-- A line that begins with the start of a status line when its outer blanks are gone. -/
def IsStatusLine (line : String) : Prop := statusLead <+: Text.trimBoth line.toList

instance (line : String) : Decidable (IsStatusLine line) :=
  inferInstanceAs (Decidable (statusLead <+: Text.trimBoth line.toList))

variable {fields : Fields} {line : String} {f : String × String}

/-- A line that begins like a status line is one, with blanks at its end or without. -/
theorem OpensBlock.isStatusLine (h : OpensBlock line) : IsStatusLine line :=
  Text.prefix_trimBoth (by decide) (by decide) (by decide) h

/-! ## The field of a line -/

/-- The name before the first colon of a line and the value after it, both without outer blanks. -/
def spelled (line : String) : String × String :=
  (.ofList (Text.trimBoth (Text.upTo ':' line.toList)),
    .ofList (Text.trimBoth (Text.past ':' line.toList)))

/-- A line with a colon has a field, and a line without one has none. -/
theorem fieldOfLine?_eq (line : String) :
    fieldOfLine? line.toList = if ':' ∈ line.toList then some (spelled line) else none := by
  rw [fieldOfLine?, Text.splitFirst?_eq]
  split <;> rfl

theorem fieldOfLine?_append_cons {name : List Char} (first : ':' ∉ name) (value : List Char) :
    fieldOfLine? (name ++ ':' :: value) =
      some (.ofList (Text.trimBoth name), .ofList (Text.trimBoth value)) := by
  rw [fieldOfLine?, Text.splitFirst?_eq_some_iff.2 ⟨rfl, first⟩]
  rfl

/-- The blanks around a line make no difference to its field. -/
@[simp] theorem fieldOfLine?_trimBoth (cs : List Char) :
    fieldOfLine? (Text.trimBoth cs) = fieldOfLine? cs := by
  by_cases colon : ':' ∈ cs
  · obtain ⟨name, value, rfl, first⟩ := List.eq_append_cons_of_mem colon
    have first' : ':' ∉ Text.trimLeft name := fun h => first ((List.dropWhile_sublist _).subset h)
    rw [Text.trimBoth_append_cons (by decide), fieldOfLine?_append_cons first,
      fieldOfLine?_append_cons first', Text.trimBoth_trimLeft, Text.trimBoth_trimRight]
  · have colon' : ':' ∉ Text.trimBoth cs := fun h => colon ((Text.trimBoth_sublist cs).subset h)
    rw [fieldOfLine?, fieldOfLine?, Text.splitFirst?_eq_none colon, Text.splitFirst?_eq_none colon']

/-- Whether a line with a field is a status line shows in the name of the field. -/
theorem isStatusLine_iff (read : fieldOfLine? line.toList = some f) :
    IsStatusLine line ↔ statusLead <+: f.1.toList := by
  obtain ⟨⟨name, value⟩, cut, rfl⟩ := Option.map_eq_some_iff.1 read
  obtain ⟨parts, -⟩ := Text.splitFirst?_eq_some_iff.1 cut
  obtain ⟨blanks, blank, split⟩ := Text.exists_blanks_eq_trimRight_append (Text.trimLeft name)
  have trimmed : Text.trimBoth line.toList =
      Text.trimBoth name ++ (blanks ++ ':' :: Text.trimRight value) := by
    rw [parts, Text.trimBoth_append_cons (by decide), ← List.append_assoc]
    exact congrArg (· ++ _) split
  -- What follows the name begins with a blank or with the colon.
  have solid : statusLead.all (!Text.isBlank ·) = true := by decide
  have stop : ∀ c, (blanks ++ ':' :: Text.trimRight value).head? = some c → c ∉ statusLead := by
    intro c head mem
    cases blanks with
    | nil =>
      obtain rfl : ':' = c := by simpa using head
      exact absurd mem (by decide)
    | cons b blanks =>
      obtain rfl : b = c := by simpa using head
      exact absurd (blank b List.mem_cons_self) (by simpa using List.all_eq_true.1 solid b mem)
  rw [IsStatusLine, trimmed, Text.prefix_append_iff stop, String.toList_ofList]

/-! ## Blocks -/

/-- The lines after the last status line; all of them without one. -/
def lastBlock (lines : List String) : List String :=
  lines.rtakeWhile fun line => !decide (IsStatusLine line)

/-- A status line drops all fields, and any other line adds its field. -/
theorem addLine_eq (fields : Fields) (line : String) : addLine fields line =
    if IsStatusLine line then [] else fields ++ (fieldOfLine? line.toList).toList := by
  simp only [addLine, List.isPrefixOf_iff_prefix, fieldOfLine?_trimBoth]
  rfl

theorem fieldsOfLines_concat (lines : List String) (line : String) :
    fieldsOfLines (lines ++ [line]) = addLine (fieldsOfLines lines) line := by
  simp [fieldsOfLines]

/-- What is read are the fields of the last block. -/
theorem fieldsOfLines_eq (lines : List String) : fieldsOfLines lines =
    ((lastBlock lines).filter fun line => ':' ∈ line.toList).map spelled := by
  induction lines using List.reverseRecOn with
  | nil => rfl
  | append_singleton lines line ih =>
    rw [fieldsOfLines_concat, addLine_eq, lastBlock, List.rtakeWhile_concat, fieldOfLine?_eq, ih]
    by_cases status : IsStatusLine line
    · simp [status]
    · by_cases colon : ':' ∈ line.toList <;> simp [status, colon, lastBlock]

/-- Lines keep the fields that were read before them, unless one of them is a status line. -/
theorem foldl_addLine (fields : Fields) (lines : List String) : lines.foldl addLine fields =
    (if ∃ line ∈ lines, IsStatusLine line then [] else fields) ++ fieldsOfLines lines := by
  induction lines using List.reverseRecOn with
  | nil => simp
  | append_singleton lines line ih =>
    rw [List.foldl_concat, ih, fieldsOfLines_concat, addLine_eq, addLine_eq]
    by_cases status : IsStatusLine line
    · simp [status, or_and_right, exists_or]
    · simp [status, or_and_right, exists_or]

/-- The lines before a status line have no part in what is read. -/
theorem fieldsOfLines_append_cons (before after : List String) (h : IsStatusLine line) :
    fieldsOfLines (before ++ line :: after) = fieldsOfLines after := by
  rw [fieldsOfLines, List.foldl_append, List.foldl_cons, addLine_eq, if_pos h]
  rfl

/-- Every field is the field of a line. -/
theorem exists_line_of_mem_fieldsOfLines {lines : List String} (h : f ∈ fieldsOfLines lines) :
    ∃ line ∈ lines, fieldOfLine? line.toList = some f := by
  rw [fieldsOfLines_eq] at h
  obtain ⟨line, mem, rfl⟩ := List.mem_map.1 h
  obtain ⟨last, colon⟩ := List.mem_filter.1 mem
  refine ⟨line, (List.rtakeWhile_suffix _ lines).subset last, ?_⟩
  rw [fieldOfLine?_eq, if_pos (of_decide_eq_true colon)]

/-! ## Fields written line by line -/

/-- The line of a field. -/
def lineOf (f : String × String) : String := s!"{f.1}: {f.2}"

/-- A field that its line shows as it is. -/
structure Shown (f : String × String) : Prop where
  /-- There are no blanks around the name, -/
  name : Text.trimBoth f.1.toList = f.1.toList
  /-- there is no colon in it, -/
  noColon : ':' ∉ f.1.toList
  /-- and there are no blanks around the value. -/
  value : Text.trimBoth f.2.toList = f.2.toList

instance (f : String × String) : Decidable (Shown f) :=
  decidable_of_iff (Text.trimBoth f.1.toList = f.1.toList ∧ ':' ∉ f.1.toList ∧
    Text.trimBoth f.2.toList = f.2.toList) ⟨fun h => ⟨h.1, h.2.1, h.2.2⟩, fun h => ⟨h.1, h.2, h.3⟩⟩

theorem toList_lineOf (f : String × String) :
    (lineOf f).toList = f.1.toList ++ ':' :: ' ' :: f.2.toList := by
  simp [lineOf, ToString.toString]

/-- The field of a line can be shown. -/
theorem shown_of_fieldOfLine? {cs : List Char} (read : fieldOfLine? cs = some f) : Shown f := by
  obtain ⟨⟨name, value⟩, cut, rfl⟩ := Option.map_eq_some_iff.1 read
  obtain ⟨-, first⟩ := Text.splitFirst?_eq_some_iff.1 cut
  refine ⟨?_, ?_, ?_⟩ <;> simp only [String.toList_ofList, Text.trimBoth_trimBoth]
  exact fun mem => first ((Text.trimBoth_sublist name).subset mem)

/-- A field that is shown is read back. -/
theorem fieldOfLine?_lineOf (h : Shown f) : fieldOfLine? (lineOf f).toList = some f := by
  rw [toList_lineOf, fieldOfLine?_append_cons h.noColon, h.name,
    Text.trimBoth_cons_of_isBlank (by decide), h.value, String.ofList_toList, String.ofList_toList]

/-- Fields that are shown are read back, if no line of them looks like a status line. -/
theorem fieldsOfLines_map_lineOf
    (h : ∀ f ∈ fields, Shown f ∧ ¬ statusLead <+: f.1.toList) :
    fieldsOfLines (fields.map lineOf) = fields := by
  induction fields using List.reverseRecOn with
  | nil => rfl
  | append_singleton fields f ih =>
    obtain ⟨earlier, last⟩ := List.forall_mem_append.1 h
    obtain ⟨shown, plain⟩ := last f (List.mem_singleton_self f)
    have read := fieldOfLine?_lineOf shown
    rw [List.map_append, List.map_singleton, fieldsOfLines_concat, ih earlier, addLine_eq,
      if_neg (mt (isStatusLine_iff read).1 plain), read]
    rfl

/-- A single line is read as its field, if it does not look like a status line. -/
theorem fieldsOfLines_singleton (read : fieldOfLine? line.toList = some f)
    (plain : ¬ IsStatusLine line) : fieldsOfLines [line] = [f] := by
  have one : fieldsOfLines [line] = addLine [] line := rfl
  rw [one, addLine_eq, if_neg plain, read]
  rfl

/-- What is read of header lines, whatever texts they are. It is one field for each line with a
colon after the last status line, in order and with those that are repeated. Lines that follow
others therefore add their fields to those of the others, or, with a status line among them, take
their place. And fields that are written after a status line are read back, whatever came before. -/
theorem fieldsOfLines_lastBlock (before lines : List String) :
    fieldsOfLines lines =
      ((lastBlock lines).filter fun line => ':' ∈ line.toList).map spelled ∧
    fieldsOfLines (before ++ lines) =
      (if ∃ line ∈ lines, IsStatusLine line then [] else fieldsOfLines before) ++
        fieldsOfLines lines ∧
    ∀ status fields, IsStatusLine status →
      (∀ f ∈ fields, Shown f ∧ ¬ statusLead <+: f.1.toList) →
      fieldsOfLines (before ++ status :: fields.map lineOf) = fields := by
  refine ⟨fieldsOfLines_eq lines, ?_, fun status fields opens shown => ?_⟩
  · rw [fieldsOfLines, List.foldl_append]
    exact foldl_addLine _ lines
  · rw [fieldsOfLines_append_cons _ _ opens, fieldsOfLines_map_lineOf shown]

/-- Two blocks: a name that is repeated, one that is empty, a value with a colon and an empty
one. -/
theorem fieldsOfLines_lastBlock_repeated :
    let interim := ["HTTP/1.1 100 Continue", "Retry-After: 9", ""]
    let status := "\tHTTP/1.1 200 OK"
    let fields := [("Link", "<http://host/>"), ("", "x"), ("Link", ""), ("HTTP", "HTTP/1.1")]
    IsStatusLine status ∧ (∀ f ∈ fields, Shown f ∧ ¬ statusLead <+: f.1.toList) ∧
      fieldsOfLines (interim ++ status :: fields.map lineOf) = fields := by
  intro interim status fields
  have opens : IsStatusLine status := by decide
  have shown : ∀ f ∈ fields, Shown f ∧ ¬ statusLead <+: f.1.toList := by decide
  exact ⟨opens, shown, (fieldsOfLines_lastBlock interim []).2.2 status fields opens shown⟩

end WebCall.Http
