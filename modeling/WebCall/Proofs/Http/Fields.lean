import Mathlib.Data.List.Induction
import WebCall.Http.Message

/-!
# Fields of requests

The fields of a request that is made step by step. No two of them have one name, a name that was set
has a field, and there is no field but of a name that was set.

## Main definitions

* `Fields.Distinct`: no two fields have one name.
* `Fields.latest`: the last field of each name.
* `Fields.First`: what the first field of a name holds.
* `Request.names`: the names that steps set fields of.
-/
namespace WebCall.Http

open Text (sameName sameName_comm)

namespace Fields

/-- No two fields have one name. -/
def Distinct (fields : Fields) : Prop := fields.Pairwise fun f g => sameName f.1 g.1 = false

variable {fields : Fields} {f : String × String} {name value : String}

theorem mem_without_iff : f ∈ fields.without name ↔ f ∈ fields ∧ sameName f.1 name = false := by
  simp [without]

theorem mem_set_iff : f ∈ fields.set name value ↔
    (f ∈ fields ∧ sameName f.1 name = false) ∨ f = (name, value) := by
  rw [set, List.mem_append, mem_without_iff, List.mem_singleton]

/-- Setting a field leaves one field of a name. -/
theorem Distinct.set (h : fields.Distinct) (name value : String) :
    (fields.set name value).Distinct := by
  refine List.pairwise_append.2 ⟨h.filter _, List.pairwise_singleton .., ?_⟩
  intro f hf g hg
  rw [List.mem_singleton.1 hg]
  exact sameName_eq_false_of_mem_without hf

/-- The field that was set is the only one of its name. -/
theorem filter_sameName_set (fields : Fields) (name value : String) :
    ((fields.set name value).filter fun f => sameName f.1 name) = [(name, value)] := by
  have gone : ((fields.without name).filter fun f => sameName f.1 name) = [] := by
    rw [List.filter_eq_nil_iff]
    intro f hf
    simp [sameName_eq_false_of_mem_without hf]
  rw [set, List.filter_append, gone]
  simp

/-- The fields of other names stay as they are. -/
theorem without_set (fields : Fields) (name value : String) :
    (fields.set name value).without name = fields.without name := by
  simp [set, without]

/-- The last field of each name, in its spelling and in its place among the others. -/
def latest : Fields → Fields
  | [] => []
  | f :: rest => if rest.any fun g => sameName g.1 f.1 then latest rest else f :: latest rest

/-- A field that comes last takes the place of every other of its name. -/
theorem latest_concat (fields : Fields) (f : String × String) :
    latest (fields ++ [f]) = (latest fields).set f.1 f.2 := by
  induction fields with
  | nil => rfl
  | cons g rest ih =>
    have again : ((rest ++ [f]).any fun h => sameName h.1 g.1) =
        ((rest.any fun h => sameName h.1 g.1) || sameName g.1 f.1) := by
      rw [List.any_append, sameName_comm g.1]
      simp
    rw [List.cons_append, latest, latest, again, ih]
    by_cases repeated : (rest.any fun h => sameName h.1 g.1) = true
    · simp [repeated]
    · by_cases replaced : sameName g.1 f.1 = true
      · simp [repeated, replaced, set, without]
      · simp [repeated, replaced, set, without]

/-- Setting fields one after the other leaves the last of each name. -/
theorem foldl_set_eq_latest (fields : Fields) :
    fields.foldl (fun (kept : Fields) f => kept.set f.1 f.2) [] = latest fields := by
  induction fields using List.reverseRecOn with
  | nil => rfl
  | append_singleton fields f ih =>
    rw [List.foldl_append, ih, latest_concat]
    rfl

/-- The first field of a name has this value, whatever comes after it. -/
def First (fields : Fields) (name value : String) : Prop :=
  ∃ before spelled after, fields = before ++ (spelled, value) :: after ∧
    sameName spelled name = true ∧ ∀ f ∈ before, sameName f.1 name = false

theorem get?_eq_some_iff : fields.get? name = some value ↔ fields.First name value := by
  rw [get?, Option.map_eq_some_iff]
  constructor
  · rintro ⟨⟨spelled, v⟩, found, rfl⟩
    obtain ⟨same, before, after, split, others⟩ := List.find?_eq_some_iff_append.1 found
    exact ⟨before, spelled, after, split, same, fun f hf => by simpa using others f hf⟩
  · rintro ⟨before, spelled, after, split, same, others⟩
    refine ⟨(spelled, value), List.find?_eq_some_iff_append.2 ⟨same, before, after, split, ?_⟩, rfl⟩
    exact fun f hf => by simpa using others f hf

theorem distinct_latest (fields : Fields) : (latest fields).Distinct := by
  induction fields using List.reverseRecOn with
  | nil => exact .nil
  | append_singleton fields f ih =>
    rw [latest_concat]
    exact ih.set f.1 f.2

end Fields

namespace Request

variable {steps : List Step}

/-- The names that steps set fields of. -/
def names (steps : List Step) : List String := steps.filterMap Step.name?

theorem make_concat (method : Method) (url : String) (steps : List Step) (s : Step) :
    make method url (steps ++ [s]) = (make method url steps).step s := by
  simp [make]

/-- No two fields of a request have one name. -/
theorem distinct_make (method : Method) (url : String) (steps : List Step) :
    (make method url steps).fields.Distinct := by
  induction steps using List.reverseRecOn with
  | nil => exact .nil
  | append_singleton steps s ih =>
    rw [make_concat]
    cases s with
    | field name value => exact ih.set name value
    | body body => exact ih

/-- Every field of a request is of a name that was set. -/
theorem name_mem_of_mem_make {method : Method} {url : String} {f : String × String}
    (h : f ∈ (make method url steps).fields) : f.1 ∈ names steps := by
  induction steps using List.reverseRecOn with
  | nil => cases h
  | append_singleton steps s ih =>
    rw [make_concat] at h
    rw [names, List.filterMap_append, List.mem_append]
    cases s with
    | field name value =>
      rcases Fields.mem_set_iff.1 h with ⟨before, -⟩ | rfl
      · exact .inl (ih before)
      · exact .inr (by simp [Step.name?])
    | body body => exact .inl (ih h)

/-- Every name that was set has a field. -/
theorem exists_mem_make_of_mem_names (method : Method) (url : String) {name : String}
    (h : name ∈ names steps) :
    ∃ f ∈ (make method url steps).fields, sameName f.1 name = true := by
  induction steps using List.reverseRecOn with
  | nil => cases h
  | append_singleton steps s ih =>
    rw [make_concat]
    rw [names, List.filterMap_append, List.mem_append] at h
    cases s with
    | field other value =>
      by_cases same : sameName other name = true
      · exact ⟨(other, value), Fields.mem_set_iff.2 (.inr rfl), same⟩
      · -- A field of another name is not touched.
        have earlier : name ∈ names steps := by
          refine h.resolve_right fun last => ?_
          obtain rfl : name = other := by simpa [Step.name?] using last
          simp at same
        obtain ⟨f, hf, hs⟩ := ih earlier
        refine ⟨f, Fields.mem_set_iff.2 (.inl ⟨hf, ?_⟩), hs⟩
        rw [Text.sameName_congr_left hs, sameName_comm]
        simpa using same
    | body body =>
      exact ih (h.resolve_right (by simp [Step.name?]))

end Request

end WebCall.Http
