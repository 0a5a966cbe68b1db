import Mathlib.Data.List.Forall2
import WebCall.Proofs.Json.Reader

/-!
# Values and the texts that write them

What is read from a text still has its members in order and the overwritten ones among them. Two
such values are alike if every key has the same value in both. A text writes a value if what it is
the text of is alike to it, so the order of members and values that are overwritten do not matter.

## Main definitions

* `Holds`: which value a key has.
* `Alike`: values that differ in nothing a key shows.
* `Writes`: a text writes a value.
* `Says`: the text of a scalar.
-/
namespace WebCall.Json

variable {members : List (String × Json)} {key : String} {value : Json}

/-! ## Values of keys -/

/-- The key has the value: a member says so, and no later one has the key. -/
def Holds (members : List (String × Json)) (key : String) (value : Json) : Prop :=
  ∃ before after, members = before ++ (key, value) :: after ∧ ∀ m ∈ after, m.1 ≠ key

/-- The last of equal keys is looked up. -/
theorem lookup_eq_some_iff : lookup members key = some value ↔ Holds members key value := by
  rw [lookup, Option.map_eq_some_iff]
  constructor
  · rintro ⟨⟨k, v⟩, found, rfl⟩
    rw [List.find?_eq_some_iff_append] at found
    obtain ⟨same, later, earlier, whole, others⟩ := found
    obtain rfl : k = key := beq_iff_eq.1 same
    rw [List.reverse_eq_iff, List.reverse_append, List.reverse_cons, List.append_assoc] at whole
    refine ⟨earlier.reverse, later.reverse, whole, fun m hm same => ?_⟩
    simpa [same] using others m (List.mem_reverse.1 hm)
  · rintro ⟨before, after, rfl, others⟩
    refine ⟨(key, value), ?_, rfl⟩
    rw [List.find?_eq_some_iff_append]
    refine ⟨beq_iff_eq.2 rfl, after.reverse, before.reverse, by simp, fun m hm => ?_⟩
    simpa using others m (List.mem_reverse.1 hm)

/-- With distinct keys every member counts. -/
theorem holds_iff_mem (distinct : (members.map Prod.fst).Nodup) :
    Holds members key value ↔ (key, value) ∈ members := by
  constructor
  · rintro ⟨before, after, rfl, -⟩
    simp
  · intro mem
    obtain ⟨before, after, rfl⟩ := List.append_of_mem mem
    refine ⟨before, after, rfl, fun m hm same => ?_⟩
    rw [List.map_append, List.map_cons, List.nodup_append, List.nodup_cons] at distinct
    exact distinct.2.1.1 (List.mem_map.2 ⟨m, hm, same⟩)

/-- The order of members with distinct keys does not matter. -/
theorem lookup_perm {members' : List (String × Json)} (distinct : (members.map Prod.fst).Nodup)
    (same : members.Perm members') : lookup members key = lookup members' key := by
  have distinct' := (same.map Prod.fst).nodup distinct
  refine Option.ext fun value => ?_
  rw [lookup_eq_some_iff, lookup_eq_some_iff, holds_iff_mem distinct, holds_iff_mem distinct',
    same.mem_iff]

/-- A member with a later one of the same key does not matter. -/
theorem lookup_overwritten {k : String} {before after : List (String × Json)}
    (later : ∃ m ∈ after, m.1 = k) :
    lookup (before ++ (k, value) :: after) key = lookup (before ++ after) key := by
  simp only [lookup, List.reverse_append, List.reverse_cons, List.append_assoc, List.find?_append]
  by_cases same : k = key
  · subst same
    obtain ⟨m, mem, same⟩ := later
    have found : (after.reverse.find? fun m => m.1 == k).isSome = true := by
      rw [List.find?_isSome]
      exact ⟨m, List.mem_reverse.2 mem, beq_iff_eq.2 same⟩
    obtain ⟨last, found⟩ := Option.isSome_iff_exists.1 found
    rw [found, Option.some_or, Option.some_or]
  · simp [same]

/-! ## Values that are alike -/

/-- Values that differ at most in the order of their members and in members that are overwritten. -/
inductive Alike : Json → Json → Prop
  | null : Alike .null .null
  | bool (b : Bool) : Alike (.bool b) (.bool b)
  | number (n : Number) : Alike (.number n) (.number n)
  | string (s : String) : Alike (.string s) (.string s)
  | array {items items' : List Json} (each : List.Forall₂ Alike items items') :
      Alike (.array items) (.array items')
  | object {members members' : List (String × Json)}
      (each : ∀ key, Option.Rel Alike (lookup members key) (lookup members' key)) :
      Alike (.object members) (.object members')

theorem sizeOf_lt_of_lookup (h : lookup members key = some value) :
    sizeOf value < sizeOf members := by
  obtain ⟨before, after, rfl, -⟩ := lookup_eq_some_iff.1 h
  have mem : (key, value) ∈ before ++ (key, value) :: after := by simp
  have whole := List.sizeOf_lt_of_mem mem
  have part : sizeOf (key, value) = 1 + sizeOf key + sizeOf value := rfl
  exact Nat.lt_trans (by omega) whole

theorem Alike.refl (v : Json) : Alike v v :=
  match v with
  | .null => .null
  | .bool b => .bool b
  | .number n => .number n
  | .string s => .string s
  | .array _ => .array (List.forall₂_same.2 fun item _ => Alike.refl item)
  | .object members => .object fun key =>
    match _found : lookup members key with
    | none => .none
    | some value => .some (Alike.refl value)
termination_by sizeOf v
decreasing_by
  · next mem =>
    have := List.sizeOf_lt_of_mem mem
    simp only [Json.array.sizeOf_spec]
    omega
  · have := sizeOf_lt_of_lookup _found
    simp only [Json.object.sizeOf_spec]
    omega

theorem Alike.of_lookup {members' : List (String × Json)}
    (same : ∀ key, lookup members key = lookup members' key) :
    Alike (.object members) (.object members') :=
  .object fun key => by
    rw [same key]
    cases lookup members' key with
    | none => exact .none
    | some value => exact .some (.refl value)

/-- The order of members with distinct keys does not matter. -/
theorem Alike.reordered {members' : List (String × Json)} (distinct : (members.map Prod.fst).Nodup)
    (same : members.Perm members') : Alike (.object members) (.object members') :=
  .of_lookup fun _ => lookup_perm distinct same

/-- A member with a later one of the same key does not matter. -/
theorem Alike.overwritten {before after : List (String × Json)} (later : ∃ m ∈ after, m.1 = key) :
    Alike (.object (before ++ (key, value) :: after)) (.object (before ++ after)) :=
  .of_lookup fun _ => lookup_overwritten later

/-- The text writes the value: it is the text of a value that is alike. -/
def Writes (v : Json) (text : String) : Prop := ∃ t, IsText t text ∧ Alike t v

/-- A text that writes no value is refused. -/
theorem parse?_eq_none_iff_writes {text : String} : parse? text = none ↔ ∀ v, ¬ Writes v text := by
  rw [parse?_eq_none_iff]
  constructor
  · rintro h v ⟨t, spelled, -⟩
    exact h t spelled
  · intro h t spelled
    exact h t ⟨t, spelled, .refl t⟩

/-! ## Scalars -/

/-- The text of a scalar: a string says itself, a whole number its decimal digits. -/
inductive Says : Json → String → Prop
  | string (s : String) : Says (.string s) s
  | whole (n : Int) : Says (.number (.whole n)) (.ofList (decimal n))
  | real (negative : Bool) (x : Binary64) :
      Says (.number (.real negative x)) (Number.real negative x).text
  | yes : Says (.bool true) "true"
  | no : Says (.bool false) "false"

theorem text_whole (n : Int) : (Number.whole n).text = .ofList (decimal n) := by
  cases n with
  | ofNat n => rfl
  | negSucc n =>
    rw [decimal, if_pos (Int.negSucc_lt_zero n), String.ofList_append]
    rfl

theorem scalarText?_eq_some_iff {m : String} : value.scalarText? = some m ↔ Says value m := by
  constructor
  · intro h
    unfold scalarText? at h
    split at h
    · cases h
      exact .string _
    · next n =>
      cases h
      cases n with
      | whole n => exact text_whole n ▸ .whole n
      | real negative x => exact .real negative x
    · next b =>
      cases h
      cases b with
      | true => exact .yes
      | false => exact .no
    · cases h
  · intro h
    cases h with
    | whole n => rw [scalarText?, text_whole]
    | string | real | yes | no => rfl

/-- Values that are alike have the same text. -/
theorem Alike.scalarText? {v : Json} (h : Alike value v) : value.scalarText? = v.scalarText? := by
  cases h <;> rfl

end WebCall.Json
