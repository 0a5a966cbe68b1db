import Mathlib.Data.List.Pairwise
import WebCall.Call.Caller
import WebCall.Proofs.Http.FieldLines
import WebCall.Proofs.Http.Fields
import WebCall.Wire.Outgoing

/-!
# Names on header lines

A peer reads the name of a field off its line: what stands before the first colon, without outer
blanks. The fields of a request are told apart by their names as they were given, so two fields with
different names can end up on lines with one name. Header lines have names of their own exactly when
names that read alike were given alike. In particular a second credential can stand beside that of
the call, and it does exactly when a name was given that reads like the name of the credential's
field and is another.

## Main definitions

* `lineName?`: the field name of a line.
* `nameAsRead`: the field name on the line of a field.
* `headerLines_request`: when header lines have names of their own.
-/
namespace WebCall.Wire

open Http (Request)
open Text (sameName sameName_comm sameName_congr_left sameName_eq_true_iff)

/-- The field name of a line. -/
def lineName? (line : String) : Option String := (Http.fieldOfLine? line.toList).map (·.1)

/-- Whether two lines give fields of one name. -/
def SameField (k l : String) : Prop :=
  ∃ n m, lineName? k = some n ∧ lineName? l = some m ∧ sameName n m = true

/-- The field name on the line of a field, for the name that the field was given. -/
def nameAsRead (name : String) : String := .ofList (Text.trimBoth (Text.upTo ':' name.toList))

/-- A name that a line shows as it was given. -/
def Plain (name : String) : Prop := Text.trimBoth name.toList = name.toList ∧ ':' ∉ name.toList

instance (name : String) : Decidable (Plain name) := inferInstanceAs (Decidable (_ ∧ _))

theorem nameAsRead_of_plain {name : String} (h : Plain name) : nameAsRead name = name := by
  rw [nameAsRead, Text.upTo_of_notMem h.2, h.1, String.ofList_toList]

/-- Names that differ at most in the case of their letters are read alike. -/
theorem sameName_nameAsRead {a b : String} (h : sameName a b = true) :
    sameName (nameAsRead a) (nameAsRead b) = true := by
  rw [sameName_eq_true_iff] at h ⊢
  simp only [nameAsRead, String.toList_ofList, Text.map_lower_trimBoth,
    Text.map_lower_upTo Text.lower_eq_colon_iff, h]

/-- The header line of a field is the line of what is left of it without outer blanks. -/
theorem headerLine_eq (f : String × String) :
    headerLine f = Http.lineOf (Text.trim f.1, Text.trim f.2) := rfl

theorem headerLine_of_shown {f : String × String} (h : Http.Shown f) :
    headerLine f = Http.lineOf f := by
  rw [headerLine_eq, Text.trim, Text.trim, h.name, h.value, String.ofList_toList,
    String.ofList_toList]

theorem toList_headerLine (f : String × String) :
    (headerLine f).toList =
      Text.trimBoth f.1.toList ++ ':' :: ' ' :: Text.trimBoth f.2.toList := by
  rw [headerLine_eq, Http.toList_lineOf, Text.toList_trim, Text.toList_trim]

/-- The line of a field has the name that is read off the name of the field. -/
theorem lineName?_headerLine (f : String × String) :
    lineName? (headerLine f) = some (nameAsRead f.1) := by
  have solid : Text.isBlank ':' = false := by decide
  rw [lineName?, Http.fieldOfLine?, toList_headerLine, Text.splitFirst?_eq, if_pos (by simp),
    Text.upTo_append_cons]
  simp only [Option.map_some, nameAsRead, Text.trimBoth_upTo_trimBoth solid]

/-- The line of a field with a plain name is read back as that field, but for the outer blanks of
its value. -/
theorem fieldOfLine?_headerLine {f : String × String} (plain : Plain f.1) :
    Http.fieldOfLine? (headerLine f).toList = some (f.1, Text.trim f.2) := by
  have name : Text.trim f.1 = f.1 := by rw [Text.trim, plain.1, String.ofList_toList]
  have shown : Http.Shown (f.1, Text.trim f.2) :=
    ⟨plain.1, plain.2, by rw [Text.toList_trim, Text.trimBoth_trimBoth]⟩
  rw [headerLine_eq, name, Http.fieldOfLine?_lineOf shown]

theorem sameField_headerLine_iff (f g : String × String) :
    SameField (headerLine f) (headerLine g) ↔
      sameName (nameAsRead f.1) (nameAsRead g.1) = true := by
  simp [SameField, lineName?_headerLine]

variable {method : Http.Method} {url : String} {steps : List Request.Step}

/-- The lines of a request have names of their own exactly when names that read alike were given
alike. -/
theorem pairwise_headerLines_make_iff :
    (headerLines (.make method url steps)).Pairwise (fun k l => ¬ SameField k l) ↔
      ∀ n ∈ Request.names steps, ∀ m ∈ Request.names steps,
        sameName (nameAsRead n) (nameAsRead m) = true → sameName n m = true := by
  simp only [headerLines, List.pairwise_map, sameField_headerLine_iff]
  constructor
  · intro apart n hn m hm alike
    obtain ⟨f, hf, fn⟩ := Request.exists_mem_make_of_mem_names method url hn
    obtain ⟨g, hg, gm⟩ := Request.exists_mem_make_of_mem_names method url hm
    have read : sameName (nameAsRead f.1) (nameAsRead g.1) = true := by
      rw [sameName_congr_left (sameName_nameAsRead fn), sameName_comm,
        sameName_congr_left (sameName_nameAsRead gm), sameName_comm]
      exact alike
    -- Two fields that are read alike are one field, so both names are names of that field.
    by_cases one : f = g
    · subst one
      rw [← sameName_congr_left fn]
      exact gm
    · have symm : Std.Symm fun f g : String × String =>
          ¬ sameName (nameAsRead f.1) (nameAsRead g.1) = true :=
        ⟨fun f g h => by rwa [sameName_comm]⟩
      exact absurd read (apart.forall hf hg one)
  · intro given
    refine (Request.distinct_make method url steps).imp_of_mem fun {f g} hf hg apart alike => ?_
    rw [given f.1 (Request.name_mem_of_mem_make hf) g.1 (Request.name_mem_of_mem_make hg) alike]
      at apart
    cases apart

/-- The lines of a request have names of their own when the names were given as lines show them. -/
theorem pairwise_headerLines_of_plain (plain : ∀ n ∈ Request.names steps, Plain n) :
    (headerLines (.make method url steps)).Pairwise fun k l => ¬ SameField k l := by
  refine pairwise_headerLines_make_iff.2 fun n hn m hm alike => ?_
  rwa [nameAsRead_of_plain (plain n hn), nameAsRead_of_plain (plain m hm)] at alike

theorem headerLines_setField (r : Request) (name value : String) :
    headerLines (r.setField name value) =
      (r.fields.without name).map headerLine ++ [headerLine (name, value)] := by
  simp [headerLines, Http.Fields.set]

/-- The lines before that of a field that was set last have other names exactly when no other name
was given that reads like the name of that field. -/
theorem forall_without_iff {name : String} (plain : Plain name) (value : String) :
    (∀ l ∈ ((Request.make method url steps).fields.without name).map headerLine,
      ¬ SameField l (headerLine (name, value))) ↔
    ∀ n ∈ Request.names steps, sameName (nameAsRead n) name = true → sameName n name = true := by
  simp only [List.forall_mem_map, sameField_headerLine_iff, nameAsRead_of_plain plain,
    Http.Fields.mem_without_iff]
  constructor
  · intro others n hn alike
    obtain ⟨f, hf, fn⟩ := Request.exists_mem_make_of_mem_names method url hn
    have read := sameName_nameAsRead fn
    by_contra other
    refine others f ⟨hf, ?_⟩ ?_
    · rw [sameName_congr_left fn]
      simpa using other
    · rw [sameName_congr_left read]
      exact alike
  · rintro given f ⟨hf, other⟩ alike
    rw [given f.1 (Request.name_mem_of_mem_make hf) alike] at other
    cases other

/-- The header lines of an attempt whose request was made step by step. The last one carries the
credential of the call. All lines have names of their own exactly when names that read alike were
given alike; and no other line has the name of the credential's field exactly when no other name was
given that reads like it. -/
theorem headerLines_request (c : Call.Caller) {method : Http.Method} {url : String}
    {steps : List Request.Step} (built : c.order.build c.built = .make method url steps) :
    let lines := headerLines c.request
    let names := Request.names steps ++ [Call.authorizationField]
    (lines.Pairwise (fun k l => ¬ SameField k l) ↔
      ∀ n ∈ names, ∀ m ∈ names,
        sameName (nameAsRead n) (nameAsRead m) = true → sameName n m = true) ∧
    ∃ others own, lines = others ++ [own] ∧
      Http.fieldOfLine? own.toList =
        some (Call.authorizationField, Text.trim c.order.authorization) ∧
      ((∀ l ∈ others, ¬ SameField l own) ↔
        ∀ n ∈ Request.names steps, sameName (nameAsRead n) Call.authorizationField = true →
          sameName n Call.authorizationField = true) := by
  intro lines names
  have plain : Plain Call.authorizationField := by decide
  constructor
  · have whole : c.request =
        .make method url (steps ++ [.field Call.authorizationField c.order.authorization]) := by
      rw [Request.make_concat, Call.Caller.request, built]
      rfl
    have given : Request.names (steps ++ [.field Call.authorizationField c.order.authorization]) =
        names := by
      simp [Request.names, Request.Step.name?, names]
    rw [← given, ← pairwise_headerLines_make_iff, ← whole]
  · refine ⟨_, _, headerLines_setField _ _ _, fieldOfLine?_headerLine plain, ?_⟩
    rw [built]
    exact forall_without_iff plain _

/-- A request that was given a credential under another spelling of the name: it is replaced, and no
two lines have one name. -/
theorem headerLines_request_respelled :
    let steps : List Request.Step :=
      [.field "authorization" "Bearer stale", .field "Accept" "text/plain", .body []]
    let order : Call.Order := ⟨fun _ => .make .post "http://host/" steps, "Bearer t ", {}⟩
    let c : Call.Caller := { order, token := 0, cell := 0 }
    c.order.build c.built = .make .post "http://host/" steps ∧
      headerLines c.request = ["Accept: text/plain", "Authorization: Bearer t"] ∧
      (headerLines c.request).Pairwise fun k l => ¬ SameField k l := by
  intro steps order c
  have built : c.order.build c.built = .make .post "http://host/" steps := rfl
  exact ⟨built, by decide, (headerLines_request c built).1.2 (by decide)⟩

/-- A blank after the name is enough for a second credential: the lines of this request both have
the name of the credential's field, and the first one carries another credential. -/
theorem headerLines_two_credentials :
    let steps : List Request.Step := [.field "Authorization " "Bearer stale"]
    let order : Call.Order := ⟨fun _ => .make .get "http://host/" steps, "Bearer t", {}⟩
    let c : Call.Caller := { order, token := 0, cell := 0 }
    headerLines c.request = ["Authorization: Bearer stale", "Authorization: Bearer t"] ∧
      ¬ (headerLines c.request).Pairwise fun k l => ¬ SameField k l := by
  intro steps order c
  have lines : headerLines c.request =
      ["Authorization: Bearer stale", "Authorization: Bearer t"] := by decide
  refine ⟨lines, fun apart => ?_⟩
  rw [lines, List.pairwise_pair] at apart
  exact apart ⟨"Authorization", "Authorization", by decide, by decide, by decide⟩

end WebCall.Wire
