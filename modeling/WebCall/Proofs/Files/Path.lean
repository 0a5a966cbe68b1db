import Mathlib.Data.List.Basic
import WebCall.Files.Tree
import WebCall.Proofs.Text.Pieces

/-!
# The names in a path

The path of the directory that holds a file has the names of the file's path but for the last one.

## Main definitions

* `steps_parent`: what is left of the names of a path in that of its directory.
-/
namespace WebCall

/-- There is no separator in a piece. -/
theorem Text.notMem_of_mem_pieces {sep : Char} {cs piece : List Char}
    (h : piece ∈ pieces sep cs) : sep ∉ piece := by
  induction cs generalizing piece with
  | nil =>
    rw [List.mem_singleton.1 h]
    exact List.not_mem_nil
  | cons c cs ih =>
    rw [pieces] at h
    split at h
    · rcases List.mem_cons.1 h with rfl | later
      · exact List.not_mem_nil
      · exact ih later
    · next other =>
      split at h
      · rw [List.mem_singleton.1 h]
        simpa using Ne.symm other
      · next p ps split =>
        rcases List.mem_cons.1 h with rfl | later
        · have first : sep ∉ p := ih (split ▸ List.mem_cons_self)
          simp [first, Ne.symm other]
        · exact ih (split ▸ List.mem_cons_of_mem p later)

namespace Path

/-- A name is not empty, and there is no slash in it. -/
theorem name_of_mem_names {path name : String} (h : name ∈ names path) :
    name ≠ "" ∧ '/' ∉ name.toList := by
  obtain ⟨piece, hp, hn⟩ := List.mem_filterMap.1 h
  split at hn
  · cases hn
  · next nonempty =>
    cases hn
    rw [String.toList_ofList]
    refine ⟨fun empty => nonempty ?_, Text.notMem_of_mem_pieces hp⟩
    simpa using empty

/-- Names are read back from the path that they make. -/
theorem names_intercalate {parts : List String}
    (h : ∀ part ∈ parts, part ≠ "" ∧ '/' ∉ part.toList) :
    names ("/".intercalate parts) = parts := by
  by_cases none_ : parts = []
  · subst none_
    rfl
  · have pieces : Text.pieces '/' ("/".intercalate parts).toList = parts.map String.toList := by
      rw [String.toList_intercalate]
      refine Text.pieces_intercalate (by simpa using none_) fun piece hp => ?_
      obtain ⟨part, there, rfl⟩ := List.mem_map.1 hp
      exact (h part there).2
    rw [names, pieces, List.filterMap_map]
    conv_rhs => rw [← List.filterMap_some (l := parts)]
    refine List.filterMap_congr fun part there => ?_
    simp [(h part there).1]

/-- A slash in front names nothing. -/
theorem names_slash (path : String) : names ("/" ++ path) = names path := by
  have front : ("/" ++ path).toList = '/' :: path.toList := by simp
  rw [names, names, front, Text.pieces, if_pos rfl]
  rfl

/-- The directory that holds a file is named by all steps of its path but the last. -/
theorem steps_parent (path : String) : steps (parent path) = (steps path).dropLast := by
  have left {name : String} (h : name ∈ (steps path).dropLast) :
      name ∈ names path ∧ name ≠ "." := by
    simpa [steps] using List.dropLast_subset _ h
  have read : names (parent path) = (steps path).dropLast := by
    have whole : names ("/".intercalate (steps path).dropLast) = (steps path).dropLast :=
      names_intercalate fun part hp => name_of_mem_names (left hp).1
    rw [parent]
    split
    · rw [names_slash, whole]
    · rwa [String.empty_append]
  rw [steps, read, List.filter_eq_self]
  exact fun name hn => by simpa using (left hn).2

end Path

end WebCall
