import Mathlib.Data.List.Basic
import WebCall.Proofs.Http.Fields

/-!
# The fields of a request as a map

The fields of a request that is made step by step are a map from names, in any case of their
letters, to values: what was set last is found. They stand in the order in which they were set last,
each in the spelling that it had then, and setting a field moves no field of another name.

## Main definitions

* `Request.settings`: the fields that steps set, all of them and in their order.
* `Request.SetLast`: the value that a name was given last.
* `Request.make_lastSettings`: what the fields of a request are.
-/
namespace WebCall.Http

open Text (sameName sameName_comm)

namespace Fields

variable {fields : Fields} {name : String}

theorem get?_eq_none_iff : fields.get? name = none ↔ ∀ f ∈ fields, sameName f.1 name = false := by
  simp [get?]

/-- A field that was set is found under every spelling of its name, and under other names the field
that was there before. -/
theorem get?_set (fields : Fields) (name value other : String) :
    (fields.set name value).get? other =
      if sameName name other then some value else fields.get? other := by
  split
  · next same => exact get?_set_of_sameName same
  · next apart =>
    have kept : (fields.without name).get? other = fields.get? other := by
      rw [get?, get?, without, List.find?_filter]
      congr 2
      funext f
      by_cases found : sameName f.1 other = true
      · have stays : sameName f.1 name = false := by
          rw [Text.sameName_congr_left found, sameName_comm]
          simpa using apart
        simp [found, stays]
      · simp [found]
    rw [← kept, get?, set, List.find?_append]
    simp [get?, apart]

/-- Taking away the fields of two names gives the same in either order. -/
theorem without_comm (fields : Fields) (name other : String) :
    (fields.without name).without other = (fields.without other).without name := by
  simp only [without, List.filter_filter, Bool.and_comm]

/-- The fields of other names do not depend on what a field is set to, or whether it is set. -/
theorem without_set_congr {kept : Fields} (h : fields.without name = kept.without name)
    (other value : String) :
    (fields.set other value).without name = (kept.set other value).without name := by
  have split (fields : Fields) : (fields.set other value).without name =
      (fields.without name).without other ++ Fields.without [(other, value)] name := by
    rw [set, without_comm]
    exact List.filter_append ..
  rw [split, split, h]

end Fields

namespace Request

variable {steps : List Step} {method : Method} {url name value : String}

/-- The field that a step sets. -/
def Step.setting? : Step → Option (String × String)
  | field name value => some (name, value)
  | body _ => none

/-- The fields that steps set, in the order of the steps. -/
def settings (steps : List Step) : Fields := steps.filterMap Step.setting?

/-- A name was set to a value, under one of its spellings, and was not set again. -/
def SetLast (steps : List Step) (name value : String) : Prop :=
  ∃ before spelled after, steps = before ++ .field spelled value :: after ∧
    sameName spelled name = true ∧ ∀ n ∈ names after, sameName n name = false

theorem names_concat (steps : List Step) (s : Step) :
    names (steps ++ [s]) = names steps ++ s.name?.toList := by
  cases s <;> simp [names, Step.name?]

theorem settings_concat (steps : List Step) (s : Step) :
    settings (steps ++ [s]) = settings steps ++ s.setting?.toList := by
  cases s <;> simp [settings, Step.setting?]

/-- The fields of a request are the last settings of all names, in the order of these. -/
theorem fields_make (method : Method) (url : String) (steps : List Step) :
    (make method url steps).fields = Fields.latest (settings steps) := by
  induction steps using List.reverseRecOn with
  | nil => rfl
  | append_singleton steps s ih =>
    rw [make_concat, settings_concat]
    cases s with
    | field name value =>
      simp only [Step.setting?, Option.toList_some, Fields.latest_concat, ← ih]
      rfl
    | body body =>
      simp only [Step.setting?, Option.toList_none, List.append_nil, ← ih]
      rfl

/-- The last step sets a name, or leaves it as it was set before. -/
theorem setLast_concat_iff (s : Step) : SetLast (steps ++ [s]) name value ↔
    (∃ spelled, s = .field spelled value ∧ sameName spelled name = true) ∨
      ((∀ n ∈ s.name?, sameName n name = false) ∧ SetLast steps name value) := by
  constructor
  · rintro ⟨before, spelled, after, split, same, others⟩
    rcases List.eq_nil_or_concat' after with rfl | ⟨after, last, rfl⟩
    · obtain ⟨-, last⟩ := List.append_inj' split rfl
      exact .inl ⟨spelled, List.singleton_inj.1 last, same⟩
    · rw [← List.cons_append, ← List.append_assoc] at split
      obtain ⟨rfl, one⟩ := List.append_inj' split rfl
      obtain rfl := List.singleton_inj.1 one
      rw [names_concat, List.forall_mem_append] at others
      exact .inr ⟨fun n hn => others.2 n (Option.mem_toList.2 hn),
        before, spelled, after, rfl, same, others.1⟩
  · rintro (⟨spelled, rfl, same⟩ | ⟨other, before, spelled, after, rfl, same, others⟩)
    · exact ⟨steps, spelled, [], rfl, same, nofun⟩
    · refine ⟨before, spelled, after ++ [s], by simp, same, ?_⟩
      rw [names_concat, List.forall_mem_append]
      exact ⟨others, fun n hn => other n (Option.mem_toList.1 hn)⟩

/-- The value that is found is the one that was set last. -/
theorem field?_make_eq_some_iff :
    (make method url steps).field? name = some value ↔ SetLast steps name value := by
  induction steps using List.reverseRecOn with
  | nil => simp [make, new, field?, SetLast]
  | append_singleton steps s ih =>
    rw [make_concat, setLast_concat_iff, ← ih]
    cases s with
    | field other v =>
      rw [step, field?, fields_setField, Fields.get?_set]
      by_cases same : sameName other name = true
      · simp [same, Step.name?]
      · simp [same, Step.name?, field?]
    | body body =>
      simp [step, withBody, field?, Step.name?]

/-- Nothing is found under a name exactly when no step set it. -/
theorem field?_make_eq_none_iff : (make method url steps).field? name = none ↔
    ∀ n ∈ names steps, sameName n name = false := by
  rw [field?, Fields.get?_eq_none_iff]
  constructor
  · intro none_ n set_
    obtain ⟨f, mem, same⟩ := exists_mem_make_of_mem_names method url set_
    rw [← Text.sameName_congr_left same]
    exact none_ f mem
  · intro unset f mem
    exact unset f.1 (name_mem_of_mem_make mem)

/-- A step that sets a field has no part in the fields of other names, whatever follows it. -/
theorem without_make_insert (method : Method) (url : String) (before after : List Step)
    (name value : String) :
    (make method url (before ++ .field name value :: after)).fields.without name =
      (make method url (before ++ after)).fields.without name := by
  induction after using List.reverseRecOn with
  | nil =>
    rw [make_concat, List.append_nil]
    exact Fields.without_set ..
  | append_singleton after s ih =>
    rw [← List.cons_append, ← List.append_assoc, ← List.append_assoc, make_concat, make_concat]
    cases s with
    | field other v => exact Fields.without_set_congr ih other v
    | body body => exact ih

/-- What the fields of a request are that steps made out of a new one, whatever names and values they
set. No two fields have one name. Under every spelling of a name the value is found that was set
last, and none is found exactly when none was set. The fields are those that were set last of their
names, in the order in which they were set. And a step that sets a field makes no difference to the
fields of other names, wherever it stands among the steps. -/
theorem make_lastSettings (method : Method) (url : String) (steps : List Step) :
    let r := make method url steps
    r.fields.Distinct ∧
    (∀ name value, r.field? name = some value ↔ SetLast steps name value) ∧
    (∀ name, r.field? name = none ↔ ∀ n ∈ names steps, sameName n name = false) ∧
    r.fields = Fields.latest (settings steps) ∧
    ∀ name value after,
      (make method url (steps ++ .field name value :: after)).fields.without name =
        (make method url (steps ++ after)).fields.without name :=
  ⟨distinct_make method url steps, fun _ _ => field?_make_eq_some_iff,
    fun _ => field?_make_eq_none_iff, fields_make method url steps,
    fun name value after => without_make_insert method url steps after name value⟩

-- Letters outside ASCII have no case here, and an empty name is a name.
example : (make .get "http://host/" [.field "Étag" "1", .field "x-id" "2", .field "" "3", .body [],
    .field "X-Id" "4", .field "étag" "5"]).fields =
    [("Étag", "1"), ("", "3"), ("X-Id", "4"), ("étag", "5")] := by decide

end Request

end WebCall.Http
