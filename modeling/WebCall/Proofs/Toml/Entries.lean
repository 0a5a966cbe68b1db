import WebCall.Proofs.Toml.Lines

/-!
# Tables from lines

The lines of one table add their keys in their order, and the table has the value of each of them,
as far as there is an item for every value.

## Main definitions

* `Table.ofEntries?`: the table of keys and values.
* `Document.parse?_flat`: the table of a text without headers.
* `Document.parse?_section`: the table of a text with one header.
-/
namespace WebCall.Toml

variable {t : Table} {key : String} {item : Item} {es : List (String × Scalar)}

namespace Table

/-! ## Adding keys -/

/-- What has no key of the name keeps its place. -/
theorem set_append (h : t.get? key = none) (u : Table) (item : Item) :
    set (t ++ u) key item = t ++ u.set key item := by
  induction t with
  | nil => rfl
  | cons entry t ih =>
    rw [get?, List.lookup_cons] at h
    split at h
    · cases h
    · next other =>
      have apart : entry.1 ≠ key := fun same => by simp [same] at other
      rw [List.cons_append, set, if_neg apart, ih h, List.cons_append]

/-- A key that is not there is put at the end. -/
theorem set_of_get?_eq_none (h : t.get? key = none) : t.set key item = t ++ [(key, item)] := by
  simpa [set] using set_append h [] item

theorem add_of_get?_eq_none (h : t.get? key = none) :
    t.add key item = some (t ++ [(key, item)]) := by
  rw [add, h, set_of_get?_eq_none h]

theorem get?_append (t u : Table) (key : String) :
    get? (t ++ u) key = (t.get? key).or (u.get? key) :=
  List.lookup_append

/-- The table of keys and values, if there is an item for every value. -/
def ofEntries? : List (String × Scalar) → Option Table
  | [] => some []
  | (key, value) :: es =>
    value.item?.bind fun item => (ofEntries? es).map fun t => (key, item) :: t

theorem exists_ofEntries? (h : ∀ e ∈ es, e.2.item?.isSome = true) :
    ∃ t, ofEntries? es = some t := by
  induction es with
  | nil => exact ⟨[], rfl⟩
  | cons e es ih =>
    obtain ⟨item, value⟩ := Option.isSome_iff_exists.1 (h e List.mem_cons_self)
    obtain ⟨t, rest⟩ := ih fun e' he => h e' (List.mem_cons_of_mem e he)
    exact ⟨(e.1, item) :: t, by rw [ofEntries?, value, rest]; rfl⟩

/-- The item of a key is that of its value. -/
theorem get?_of_ofEntries? (h : ofEntries? es = some t) (key : String) :
    t.get? key = (es.lookup key).bind Scalar.item? := by
  induction es generalizing t with
  | nil =>
    cases h
    rfl
  | cons e es ih =>
    rw [ofEntries?, Option.bind_eq_some_iff] at h
    obtain ⟨item, value, h⟩ := h
    obtain ⟨rest, later, rfl⟩ := Option.map_eq_some_iff.1 h
    rw [get?, List.lookup_cons, List.lookup_cons]
    split
    · exact value.symm
    · exact ih later

/-- Where there is a table, there is an item for the value of every key. -/
theorem isSome_of_ofEntries? (h : ofEntries? es = some t) :
    ∀ e ∈ es, e.2.item?.isSome = true := by
  induction es generalizing t with
  | nil => simp
  | cons e es ih =>
    rw [ofEntries?, Option.bind_eq_some_iff] at h
    obtain ⟨item, value, h⟩ := h
    obtain ⟨rest, later, -⟩ := Option.map_eq_some_iff.1 h
    rintro e' he
    rcases List.mem_cons.1 he with rfl | he
    · rw [value]
      rfl
    · exact ih later e' he

end Table

/-- The value of a key that is given once. -/
theorem TableLines.lookup_of_mem {lines : List Line} (h : TableLines lines)
    {e : String × Scalar} (there : e ∈ entries lines) : (entries lines).lookup e.1 = some e.2 := by
  obtain ⟨front, back, split⟩ := List.append_of_mem there
  refine List.lookup_eq_some_iff.2 ⟨front, back, split, fun p hp => ?_⟩
  have distinct := h.distinct
  rw [split, List.map_append, List.nodup_append] at distinct
  rw [bne_iff_ne]
  exact Ne.symm (distinct.2.2 p.1 (List.mem_map_of_mem hp) e.1 List.mem_cons_self)

namespace Document

/-- Keys that are new are added one after the other, to whichever table of a document is the `place`
that its lines add to. -/
theorem foldlM_add? {lines : List Line} (place : Table → Document) (table : TableLines lines)
    (own : ∀ t key item, (place t).addPair ([key], item) = (t.add key item).map place)
    (new : ∀ e ∈ entries lines, t.get? e.1 = none) :
    lines.foldlM add? (place t) =
      (Table.ofEntries? (entries lines)).map fun items => place (t ++ items) := by
  obtain ⟨flat, distinct⟩ := table
  induction lines generalizing t with
  | nil =>
    change some (place t) = some (place (t ++ []))
    rw [List.append_nil]
  | cons line lines ih =>
    have flat' := fun l hl => flat l (List.mem_cons_of_mem line hl)
    cases line with
    | empty => exact ih new flat' distinct
    | header key => exact absurd rfl (flat _ List.mem_cons_self key)
    | pair key value =>
      obtain ⟨fresh, distinct⟩ := List.nodup_cons.1 distinct
      have free : t.get? key = none := new (key, value) List.mem_cons_self
      have whole : entries (.pair key value :: lines) = (key, value) :: entries lines := rfl
      rw [List.foldlM_cons, add?, whole, Table.ofEntries?]
      cases value.item? with
      | none => rfl
      | some item =>
        have step := own t key item
        rw [Table.add_of_get?_eq_none free, Option.map_some] at step
        have later : ∀ e ∈ entries lines, Table.get? (t ++ [(key, item)]) e.1 = none := by
          intro e he
          have apart : (e.1 == key) = false := by
            rw [beq_eq_false_iff_ne]
            exact fun same => fresh (List.mem_map.2 ⟨e, he, same⟩)
          rw [Table.get?_append, new e (List.mem_cons_of_mem _ he)]
          simp [Table.get?, List.lookup_cons, apart]
        rw [Option.bind_some, step, Option.bind_some, Option.map_map]
        refine (ih later flat' distinct).trans ?_
        simp [Function.comp_def]

/-- A text without headers gives the top table its keys. -/
theorem parse?_flat {lines : List Line} {text : String} (table : TableLines lines)
    (h : LinesText lines text.toList) : parse? text = Table.ofEntries? (entries lines) := by
  have top := foldlM_add? (t := []) (fun t => { top := t }) table (fun _ _ _ => rfl) fun _ _ => rfl
  rw [parse?_eq h, top, Option.map_map]
  simp [Function.comp_def]

/-- The document after a header under the keys `t`, when the table that the header opens is `sub`.
-/
def opened (t : Table) (name : String) (sub : Table) : Document where
  top := t ++ [(name, .table .header sub)]
  header := [name]

theorem add?_header {name : String} (new : t.get? name = none) :
    add? { top := t } (.header name) = some (opened t name []) := by
  have change : Table.openTable name t = some (t ++ [(name, .table .header [])]) := by
    rw [Table.openTable, new, Table.set_of_get?_eq_none new]
  exact congrArg (Option.map _) change

theorem addPair_opened {name : String} (new : t.get? name = none) (sub : Table) (key : String)
    (item : Item) :
    (opened t name sub).addPair ([key], item) = (sub.add key item).map (opened t name) := by
  have found : Table.get? (t ++ [(name, .table .header sub)]) name =
      some (.table .header sub) := by
    rw [Table.get?_append, new]
    simp [Table.get?]
  have change : Table.within (opened t name sub).header (·.addPair ([key], item))
      (opened t name sub).top = (sub.add key item).map fun sub => (opened t name sub).top := by
    simp only [opened, Table.within, found, Table.set_append new, Table.set, if_true]
    rfl
  rw [addPair, change, Option.map_map]
  rfl

/-- A text with one header gives their keys to the top table and to the one that the header opens.
-/
theorem parse?_section {lines lines' : List Line} {name : String} {text : String}
    (table : TableLines lines) (table' : TableLines lines')
    (free : (entries lines).lookup name = none)
    (h : LinesText (lines ++ .header name :: lines') text.toList) :
    parse? text = (Table.ofEntries? (entries lines)).bind fun t =>
      (Table.ofEntries? (entries lines')).map fun sub => t ++ [(name, .table .header sub)] := by
  have top := foldlM_add? (t := []) (fun t => { top := t }) table (fun _ _ _ => rfl) fun _ _ => rfl
  rw [parse?_eq h, List.foldlM_append, top]
  cases above : Table.ofEntries? (entries lines) with
  | none => rfl
  | some t =>
    have new : t.get? name = none := by rw [Table.get?_of_ofEntries? above, free]; rfl
    have inside := foldlM_add? (t := []) (opened t name) table' (addPair_opened new) fun _ _ => rfl
    rw [Option.map_some, Option.bind_eq_bind, Option.bind_some, List.foldlM_cons]
    change ((add? { top := t } (.header name)).bind fun d => lines'.foldlM add? d).map _ = _
    rw [add?_header new, Option.bind_some, inside, Option.map_map]
    rfl

end Document

end WebCall.Toml
