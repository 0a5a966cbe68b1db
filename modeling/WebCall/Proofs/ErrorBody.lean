import WebCall.ErrorBody
import WebCall.Proofs.Json.Values

/-!
# What error bodies say

What is found in a body depends on the value that the body writes, not on how it is written. Of the
two shapes the message is looked for first, and a field of another kind than a scalar is no field of
its shape. A body that writes no value is a body in neither shape.

## Main definitions

* `MessageIs`, `DescriptionIs`: the two shapes.
* `ofText_shapes`: what every body says.
-/
namespace WebCall

/-- A word stands somewhere in a text if the text is one around it. -/
theorem Text.contains_iff {hay needle : List Char} :
    Text.contains hay needle = true ↔ needle <:+: hay := by
  induction hay with
  | nil => simp [Text.contains]
  | cons c cs ih =>
    rw [Text.contains, Bool.or_eq_true, List.isPrefixOf_iff_prefix, ih, List.infix_cons_iff]

namespace ErrorBody

open Json (Alike Holds Says Writes lookup parse?)

/-! ## The two shapes -/

/-- The value is an object whose `error` is an object with this message, the text of a scalar. -/
def MessageIs (v : Json) (m : String) : Prop :=
  ∃ members inner scalar, v = .object members ∧ Holds members "error" (.object inner) ∧
    Holds inner "message" scalar ∧ Says scalar m

/-- The value is an object with this description of an error, the text of a scalar. -/
def DescriptionIs (v : Json) (d : String) : Prop :=
  ∃ members scalar, v = .object members ∧ Holds members "error_description" scalar ∧ Says scalar d

/-- The scalar text of a key, if the value is an object. -/
def fieldOf? (key : String) (v : Json) : Option String := v.members?.bind (scalarOf? · key)

/-- The message inside a value's `error`, if the value is an object. -/
def errorOf? (v : Json) : Option String := v.members?.bind messageOf?

theorem fieldOf?_eq_some_iff {key d : String} {v : Json} :
    fieldOf? key v = some d ↔
      ∃ members scalar, v = .object members ∧ Holds members key scalar ∧ Says scalar d := by
  cases v with
  | object members =>
    simp [fieldOf?, Json.members?, scalarOf?, Option.bind_eq_some_iff, Json.lookup_eq_some_iff,
      Json.scalarText?_eq_some_iff]
  | null | bool | number | string | array => simp [fieldOf?, Json.members?]

theorem errorOf?_object (members : List (String × Json)) :
    errorOf? (.object members) = (lookup members "error").bind (fieldOf? "message") := by
  rw [errorOf?, Json.members?, Option.bind_some, messageOf?, Option.bind_assoc]
  rfl

theorem errorOf?_eq_some_iff {m : String} {v : Json} : errorOf? v = some m ↔ MessageIs v m := by
  cases v with
  | object members =>
    rw [errorOf?_object, Option.bind_eq_some_iff]
    simp only [Json.lookup_eq_some_iff, fieldOf?_eq_some_iff, MessageIs]
    constructor
    · rintro ⟨_, error, inner, scalar, rfl, message, told⟩
      exact ⟨members, inner, scalar, rfl, error, message, told⟩
    · rintro ⟨_, inner, scalar, eq, error, message, told⟩
      cases eq
      exact ⟨_, error, inner, scalar, rfl, message, told⟩
  | null | bool | number | string | array => simp [errorOf?, MessageIs, Json.members?]

/-! ## How a value is written -/

theorem bind_eq_of_rel {α : Type} {f : Json → Option α} {a b : Option Json}
    (same : ∀ {a b}, Alike a b → f a = f b) (rel : Option.Rel Alike a b) : a.bind f = b.bind f := by
  cases rel with
  | some alike => exact same alike
  | none => rfl

/-- Values that are alike have the same scalar texts. -/
theorem fieldOf?_of_alike {key : String} {t v : Json} (h : Alike t v) :
    fieldOf? key t = fieldOf? key v := by
  cases h with
  | object each => exact bind_eq_of_rel Alike.scalarText? (each key)
  | null | bool | number | string | array => rfl

/-- Values that are alike have the same message. -/
theorem errorOf?_of_alike {t v : Json} (h : Alike t v) : errorOf? t = errorOf? v := by
  cases h with
  | object each =>
    rw [errorOf?_object, errorOf?_object]
    exact bind_eq_of_rel fieldOf?_of_alike (each "error")
  | null | bool | number | string | array => rfl

/-- What is found in a value. -/
def Finding.ofValue (v : Json) : Finding :=
  match errorOf? v with
  | some m => .message m
  | none =>
    match fieldOf? "error_description" v with
    | some d => .description d
    | none => .neither

theorem Finding.ofText_of_parse? {body : String} {t : Json} (h : parse? body = some t) :
    ofText body = ofValue t := by
  simp only [ofText, h]
  cases t with
  | object members => rfl
  | null | bool | number | string | array => rfl

/-- What is found in a body is what is found in the value that it writes. -/
theorem Finding.ofText_of_writes {body : String} {v : Json} (h : Writes v body) :
    ofText body = ofValue v := by
  obtain ⟨t, spelled, alike⟩ := h
  rw [ofText_of_parse? (Json.parse?_eq_some_iff.2 spelled), ofValue, ofValue,
    errorOf?_of_alike alike, fieldOf?_of_alike alike]

theorem ofText_message {body m : String} {v : Json} (h : Writes v body) (shape : MessageIs v m) :
    ofText body =
      if Text.contains m.toList expiryWord.toList then .tokenExpired m else .message m := by
  rw [ofText, Finding.ofText_of_writes h, Finding.ofValue, errorOf?_eq_some_iff.2 shape]
  rfl

theorem errorOf?_eq_none {v : Json} (other : ∀ m, ¬ MessageIs v m) : errorOf? v = none := by
  rw [Option.eq_none_iff_forall_ne_some]
  exact fun m found => other m (errorOf?_eq_some_iff.1 found)

/-- A body says what the value that it writes says, however it is written: its message if it has
one, which may tell of an expired token, else its description if it has one. All other bodies are
in neither shape. -/
theorem ofText_shapes (body : String) :
    (∀ v, Writes v body →
      (∀ m, MessageIs v m →
        ("expired".toList <:+: m.toList → ofText body = .tokenExpired m) ∧
        (¬ "expired".toList <:+: m.toList → ofText body = .message m)) ∧
      ((∀ m, ¬ MessageIs v m) →
        (∀ d, DescriptionIs v d → ofText body = .authorization d) ∧
        ((∀ d, ¬ DescriptionIs v d) → ofText body = .message "Unknown response"))) ∧
    ((∀ v, ¬ Writes v body) → ofText body = .message "Unknown response") := by
  refine ⟨fun v writes => ⟨fun m shape => ⟨fun word => ?_, fun word => ?_⟩, fun other =>
    ⟨fun d shape => ?_, fun other' => ?_⟩⟩, fun refused => ?_⟩
  · have found : Text.contains m.toList expiryWord.toList = true := Text.contains_iff.2 word
    rw [ofText_message writes shape, if_pos found]
  · have missing : ¬ Text.contains m.toList expiryWord.toList = true :=
      fun found => word (Text.contains_iff.1 found)
    rw [ofText_message writes shape, if_neg missing]
  · have found : fieldOf? "error_description" v = some d := fieldOf?_eq_some_iff.2 shape
    rw [ofText, Finding.ofText_of_writes writes, Finding.ofValue, errorOf?_eq_none other, found]
    rfl
  · have missing : fieldOf? "error_description" v = none := by
      rw [Option.eq_none_iff_forall_ne_some]
      exact fun d found => other' d (fieldOf?_eq_some_iff.1 found)
    rw [ofText, Finding.ofText_of_writes writes, Finding.ofValue, errorOf?_eq_none other, missing]
    rfl
  · rw [ofText, Finding.ofText, Json.parse?_eq_none_iff_writes.2 refused]
    rfl

/-- A body with a key that comes twice and a message in escapes tells of an expired token. -/
theorem ofText_shapes_escaped :
    let body :=
      "\x7b\"error\":0, \"error\" :\x7b\"message\":\"\\uD83D\\uDE00\\u0020expired\"\x7d\x7d"
    let v := Json.object [("error", .object [("message", .string "😀 expired")])]
    Writes v body ∧ MessageIs v "😀 expired" ∧ "expired".toList <:+: "😀 expired".toList ∧
      ofText body = .tokenExpired "😀 expired" := by
  intro body v
  have error : Json.StringText "error".toList "error".toList := .plain (by simp)
  have message : Json.StringText "message".toList "message".toList := .plain (by simp)
  have high : Json.Hex4 "D83D".toList 0xD83D := ⟨rfl, List.all_eq_true.1 rfl, rfl⟩
  have low : Json.Hex4 "DE00".toList 0xDE00 := ⟨rfl, List.all_eq_true.1 rfl, rfl⟩
  have blank : Json.Hex4 "0020".toList ' '.toNat := ⟨rfl, List.all_eq_true.1 rfl, rfl⟩
  have last : Json.StringText "expired".toList "expired".toList := .plain (by simp)
  have spelled : Json.StringText "😀 expired".toList "\\uD83D\\uDE00\\u0020expired".toList :=
    .cons (.pair high low (by decide) (by decide) (by decide)) (.cons (.unit blank) last)
  have no : Json.Blanks [] := by simp [Json.Blanks]
  have one : Json.Blanks [' '] := by simp [Json.Blanks]
  have zero : Json.ValueText 126 (.number (.whole 0)) ['0'] :=
    .number (.whole (by decide) (by decide))
  have inner := @Json.ValueText.object 125 _ _ _ no (.last (.mk message no no (.string spelled)) no)
  have text : Json.IsText (.object [("error", .number (.whole 0)),
      ("error", .object [("message", .string "😀 expired")])]) body :=
    ⟨[], _, [], no, .object no (.more (.mk error no no zero) no one
      (.last (.mk error one no inner) no)), no, by decide⟩
  have writes : Writes v body := ⟨_, text, @Alike.overwritten _ _ [] _ (by simp)⟩
  have shape : MessageIs v "😀 expired" :=
    ⟨_, _, _, rfl, ⟨[], [], rfl, by simp⟩, ⟨[], [], rfl, by simp⟩, .string _⟩
  have word : "expired".toList <:+: "😀 expired".toList := ⟨"😀 ".toList, [], rfl⟩
  exact ⟨writes, shape, word, (((ofText_shapes body).1 v writes).1 _ shape).1 word⟩

end ErrorBody

end WebCall
