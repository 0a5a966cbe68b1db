import WebCall.Command.RequestParts
import WebCall.Proofs.Wire.HeaderLines

/-!
# Header texts and header lines

A field is written in three places: a user gives it as a text with a colon, a request has a line for
it, and a reply brings it on a line. The reader of header texts cuts at the first colon and trims the
parts, the writer of lines trims name and value, and the reader of lines trims the line before it cuts
it. Blanks make no difference to which field is meant, so they agree.

## Main definitions

* `HeaderText.field_eq_ok_iff`: the field of a text is the field of the text as a line.
* `HeaderText.forms_agree`: a field that a user gives is read back from its line, by either reader.
-/
namespace WebCall.Command.HeaderText

variable {raw : String} {f : String × String}

/-- A text with a colon is read as the field of its parts, unless nothing but blanks stands in front of
its first colon. -/
theorem field_of_parts {name value : List Char}
    (parts : raw.toList = name ++ ':' :: value) (first : ':' ∉ name) :
    field raw = if name.all Text.isBlank then .error (.emptyName raw)
      else .ok (.ofList (Text.trimBoth name), .ofList (Text.trimBoth value)) := by
  have blank_iff :
      (String.ofList (Text.trimBoth name)).isEmpty = true ↔ name.all Text.isBlank = true := by
    rw [List.all_eq_true, ← Text.trimBoth_eq_nil_iff]
    simp
  simp only [field, parts, Http.fieldOfLine?_append_cons first, blank_iff]

/-- A text without a colon is no field. -/
theorem field_of_notMem (none_ : ':' ∉ raw.toList) :
    field raw = .error (.noColon raw) := by
  rw [field, Http.fieldOfLine?, Text.splitFirst?_eq_none none_]
  rfl

/-- A text is read as the field that it has as a line, if that field has a name. -/
theorem field_eq_ok_iff :
    field raw = .ok f ↔ Http.fieldOfLine? raw.toList = some f ∧ f.1.isEmpty = false := by
  rw [field]
  split
  · next none_ => simp [none_]
  · next g some_ =>
    rw [some_]
    split
    · next empty =>
      constructor
      · intro h
        cases h
      · rintro ⟨same, named⟩
        cases same
        rw [empty] at named
        cases named
    · next named =>
      constructor
      · intro h
        cases h
        exact ⟨rfl, by simpa using named⟩
      · rintro ⟨same, -⟩
        cases same
        rfl

/-- A text is a field exactly when something else than blanks stands in front of its first colon. -/
theorem exists_field_iff : (∃ f, field raw = .ok f) ↔
    ∃ name value, raw.toList = name ++ ':' :: value ∧ ':' ∉ name ∧
      ∃ c ∈ name, Text.isBlank c = false := by
  constructor
  · rintro ⟨f, read⟩
    by_cases colon : ':' ∈ raw.toList
    · obtain ⟨name, value, parts, first⟩ := List.eq_append_cons_of_mem colon
      refine ⟨name, value, parts, first, ?_⟩
      by_contra blank
      have all : name.all Text.isBlank = true := by simpa using blank
      rw [field_of_parts parts first, if_pos all] at read
      cases read
    · rw [field_of_notMem colon] at read
      cases read
  · rintro ⟨name, value, parts, first, c, mem, solid⟩
    refine ⟨_, (field_of_parts parts first).trans (if_neg fun blank => ?_)⟩
    rw [List.all_eq_true.1 blank c mem] at solid
    cases solid

/-- The three forms of a field agree, whatever text is given. It is a field exactly when something
else than blanks stands in front of its first colon. The line of that field is its name, a colon, a
space and its value; as a header text that line gives the same field. And if the given text does not
look like a status line, both are read as this one field on the lines of a reply. -/
theorem forms_agree (raw : String) :
    ((∃ f, field raw = .ok f) ↔ ∃ name value, raw.toList = name ++ ':' :: value ∧ ':' ∉ name ∧
      ∃ c ∈ name, Text.isBlank c = false) ∧
    ∀ f, field raw = .ok f →
      Wire.headerLine f = s!"{f.1}: {f.2}" ∧ field (Wire.headerLine f) = .ok f ∧
      (¬ Http.IsStatusLine raw →
        Http.fieldsOfLines [raw] = [f] ∧ Http.fieldsOfLines [Wire.headerLine f] = [f]) := by
  refine ⟨exists_field_iff, fun f given => ?_⟩
  obtain ⟨read, named⟩ := field_eq_ok_iff.1 given
  have shown := Http.shown_of_fieldOfLine? read
  have line : Wire.headerLine f = Http.lineOf f := Wire.headerLine_of_shown shown
  have again : Http.fieldOfLine? (Http.lineOf f).toList = some f := Http.fieldOfLine?_lineOf shown
  refine ⟨line, ?_, fun plain => ⟨Http.fieldsOfLines_singleton read plain, ?_⟩⟩
  · rw [line]
    exact field_eq_ok_iff.2 ⟨again, named⟩
  · rw [line]
    refine Http.fieldsOfLines_singleton again fun status => plain ?_
    -- both lines are status lines or neither: the name shows it
    exact (Http.isStatusLine_iff read).2 ((Http.isStatusLine_iff again).1 status)

/-- A text with blanks of several kinds around its parts and two more colons. -/
theorem forms_agree_spaced :
    let raw := "\u3000X-Time :\t12:30: \r\n"
    let f := ("X-Time", "12:30:")
    field raw = .ok f ∧ ¬ Http.IsStatusLine raw ∧ field "X-Time: 12:30:" = .ok f ∧
      Http.fieldsOfLines [raw] = [f] ∧ Http.fieldsOfLines ["X-Time: 12:30:"] = [f] := by
  intro raw f
  have given : field raw = .ok f := by decide +kernel
  have plain : ¬ Http.IsStatusLine raw := by decide +kernel
  obtain ⟨line, again, lines⟩ := (forms_agree raw).2 f given
  have text : Wire.headerLine f = "X-Time: 12:30:" := by decide +kernel
  rw [text] at again lines
  exact ⟨given, plain, again, lines plain⟩

end WebCall.Command.HeaderText
