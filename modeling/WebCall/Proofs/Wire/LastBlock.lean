import WebCall.Proofs.Http.FieldLines
import WebCall.Proofs.Text.Utf8
import WebCall.Wire.Incoming

/-!
# Blocks of a reply

A reply brings its header lines as bytes, block after block, and each block opens with a status
line. The fields of the response are those of the last block, as far as its status line is UTF-8: a
line that is not UTF-8 does not count, and a status line that does not count drops nothing. Then the
fields of the blocks before it stay, and the response has the fields that it would have if the
status line were not there.

## Main definitions

* `OpensBlock`: the lines that begin with the bytes of a status line.
* `fields_response`: which lines the fields of a response come from.
-/
namespace WebCall.Wire

/-- A line that begins with the bytes of a status line. -/
def OpensBlock (line : Bytes) : Prop := Utf8.ascii Http.statusLead <+: line

instance (line : Bytes) : Decidable (OpensBlock line) :=
  inferInstanceAs (Decidable (Utf8.ascii Http.statusLead <+: line))

deriving instance DecidableEq for Arrival

variable {line status : Bytes} {before after : List Bytes} {text : String}

/-- The text of a line that opens a block opens it, with its line end or without. -/
theorem OpensBlock.trimEnd (opens : OpensBlock line) (read : Utf8.decode? line = some text) :
    Http.OpensBlock (Text.trimEnd text) := by
  obtain ⟨rest, rfl⟩ := opens
  have plain : Utf8.IsAscii Http.statusLead := by decide
  rw [Utf8.decode?_ascii_append plain, Option.map_eq_some_iff] at read
  obtain ⟨s, -, rfl⟩ := read
  rw [Http.OpensBlock, Text.toList_trimEnd, String.toList_ofList, Text.trimRight_append]
  split
  · exact List.prefix_rfl
  · exact List.prefix_append _ _

/-- The lines before a status line that is UTF-8 have no part in what is read. -/
theorem receivedFields_append_cons (opens : OpensBlock status)
    (read : Utf8.decode? status = some text) :
    receivedFields (before ++ status :: after) = receivedFields after := by
  have first := opens.trimEnd read
  simp only [receivedFields, List.filterMap_append, List.filterMap_cons, read, List.map_append,
    List.map_cons]
  exact Http.fieldsOfLines_append_cons _ _ first.isStatusLine

/-- A line that is not UTF-8 does not count. -/
theorem receivedFields_append_cons_of_eq_none (unread : Utf8.decode? line = none) :
    receivedFields (before ++ line :: after) = receivedFields (before ++ after) := by
  simp only [receivedFields, List.filterMap_append, List.filterMap_cons, unread]

/-- Every field that is read is the field of a line that is UTF-8. -/
theorem exists_line_of_mem_receivedFields {lines : List Bytes} {f : String × String}
    (h : f ∈ receivedFields lines) : ∃ line ∈ lines, ∃ text, Utf8.decode? line = some text ∧
      Http.fieldOfLine? (Text.trimBoth text.toList) = some f := by
  obtain ⟨trimmed, mem, field⟩ := Http.exists_line_of_mem_fieldsOfLines h
  obtain ⟨text, found, rfl⟩ := List.mem_map.1 mem
  obtain ⟨line, mem, read⟩ := List.mem_filterMap.1 found
  rw [Text.toList_trimEnd, ← Http.fieldOfLine?_trimBoth, Text.trimBoth_trimRight] at field
  exact ⟨line, mem, text, read, field⟩

/-- Where the fields of a response come from, whatever bytes its header lines are. When the status
line of the last block is UTF-8, each of them is the field of a line of that block, and the blocks
before it have no part in them. When it is not, the fields of the blocks before it are read as if
the last block went on with them. -/
theorem fields_response {r : Received} (lines : r.lines = before ++ status :: after)
    (opens : OpensBlock status) :
    (Utf8.decode? status ≠ none →
      r.response.fields = receivedFields after ∧
      ∀ f ∈ r.response.fields, ∃ line ∈ after, ∃ text, Utf8.decode? line = some text ∧
        Http.fieldOfLine? (Text.trimBoth text.toList) = some f) ∧
    (Utf8.decode? status = none → r.response.fields = receivedFields (before ++ after)) := by
  have fields : r.response.fields = receivedFields (before ++ status :: after) := by
    rw [← lines]
    rfl
  constructor
  · intro readable
    obtain ⟨text, read⟩ := Option.ne_none_iff_exists'.1 readable
    rw [receivedFields_append_cons opens read] at fields
    refine ⟨fields, fun f hf => ?_⟩
    rw [fields] at hf
    exact exists_line_of_mem_receivedFields hf
  · intro unread
    rw [fields, receivedFields_append_cons_of_eq_none unread]

/-- An interim response with a wait of its own, before a response without one. -/
theorem fields_response_interim :
    let interim := ["HTTP/1.1 100 Continue\r\n", "Retry-After: 9\r\n", "\r\n"].map Utf8.encode
    let status := Utf8.encode "HTTP/1.1 429 Trop de requêtes\r\n"
    let final := ["Content-Length: 2\r\n", "\r\n"].map Utf8.encode
    let r : Received := ⟨429, interim ++ status :: final, Utf8.encode "no"⟩
    OpensBlock status ∧ Utf8.decode? status ≠ none ∧
      r.response.fields = [("Content-Length", "2")] := by
  intro interim status final r
  have opens : OpensBlock status := by decide +kernel
  have readable : Utf8.decode? status ≠ none := by decide +kernel
  have only : receivedFields final = [("Content-Length", "2")] := by decide +kernel
  obtain ⟨fields, -⟩ := (fields_response (r := r) rfl opens).1 readable
  exact ⟨opens, readable, fields.trans only⟩

/-- The same reply with its status line in another encoding. The wait of the interim response is
found in the response. -/
theorem fields_response_leak :
    let interim := ["HTTP/1.1 100 Continue\r\n", "Retry-After: 9\r\n", "\r\n"].map Utf8.encode
    let status := Utf8.encode "HTTP/1.1 429 Trop de requ" ++ 0xEA :: Utf8.encode "tes\r\n"
    let final := ["Content-Length: 2\r\n", "\r\n"].map Utf8.encode
    let r : Received := ⟨429, interim ++ status :: final, Utf8.encode "no"⟩
    Arrival.ofBytes (r.lines.flatten ++ r.body) = .settled (.ok r) ∧
      r.lines.map (fun line => decide (OpensBlock line)) = [true, false, false, true, false, false] ∧
      r.response.field? "Retry-After" = some "9" ∧
      ¬ ∃ line ∈ final, ∃ text, Utf8.decode? line = some text ∧
        Http.fieldOfLine? (Text.trimBoth text.toList) = some ("Retry-After", "9") := by
  intro interim status final r
  have none_ : (final.all fun line => (Utf8.decode? line).all fun text =>
      Http.fieldOfLine? (Text.trimBoth text.toList) != some ("Retry-After", "9")) = true := by
    decide +kernel
  refine ⟨by decide +kernel, by decide +kernel, by decide +kernel, ?_⟩
  rintro ⟨line, mem, text, read, field⟩
  have other := List.all_eq_true.1 none_ line mem
  rw [read, Option.all_some, field] at other
  simp at other

end WebCall.Wire
