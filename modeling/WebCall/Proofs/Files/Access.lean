import WebCall.Proofs.Files.Path
import WebCall.Proofs.Files.Tree

/-!
# Files and the directories that hold them

What is at a path once the directories above it were made, and what a written file reads as.

## Main definitions

* `FileTree.Settled`: a path at which nothing comes up by making the directories above it.
* `FileTree.has_makeParents`, `FileTree.makeParents_of_settled`: what making them leaves open there.
* `FileTree.read_write`: a written file holds what was written.
-/
namespace WebCall.FileTree

variable {t : FileTree} {path : String} {q : Place} {node : FileNode} {bytes : Bytes}

/-! ## What a path leads to -/

theorem sought_cases (path : String) :
    (∃ e, sought path = .error e) ∨ sought path = .ok (Path.names path) := by
  unfold sought names
  grind

theorem bind_eq_ok_iff {α β : Type} {w : Except FileError α} {f : α → Except FileError β} {b : β} :
    w.bind f = .ok b ↔ ∃ a, w = .ok a ∧ f a = .ok b := by
  cases w <;> simp [Except.bind]

/-- A slash at the end asks for a directory. -/
theorem walk_ending_eq_ok_iff {p : Place} {ns : List String} {slash : Bool} :
    t.walk p (if slash = true then ns ++ ["."] else ns) = .ok q ↔
      t.walk p ns = .ok q ∧ (slash = true → t.node? q = some .directory) := by
  split
  · next there =>
    rw [walk_concat_eq_ok_iff]
    constructor
    · rintro ⟨r, walk, dir, ⟨⟩⟩
      exact ⟨walk, fun _ => dir⟩
    · rintro ⟨walk, dir⟩
      exact ⟨q, walk, dir there, rfl⟩
  · next absent => simp [absent]

/-- A path leads to what its names lead to, which has to be a directory if it ends with a slash. -/
theorem resolve_eq_ok_iff : t.resolve path = .ok (q, node) ↔
    sought path = .ok (Path.names path) ∧ t.walk [] (Path.names path) = .ok q ∧
      t.node? q = some node ∧ (Path.endsWithSlash path = true → node = .directory) := by
  rw [resolve]
  rcases sought_cases path with ⟨e, bad⟩ | good
  · simp [bad, Except.bind]
  · rw [good, bind_eq_ok_iff]
    simp only [bind_eq_ok_iff]
    constructor
    · rintro ⟨_, ⟨⟩, r, walk, found⟩
      cases here : t.node? r with
      | none => simp [here] at found
      | some other =>
        simp only [here, Except.ok.injEq, Prod.mk.injEq] at found
        obtain ⟨rfl, rfl⟩ := found
        obtain ⟨walk, dir⟩ := walk_ending_eq_ok_iff.1 walk
        exact ⟨trivial, walk, here, fun slash => Option.some.inj (here.symm.trans (dir slash))⟩
    · rintro ⟨-, walk, there, dir⟩
      exact ⟨_, rfl, q, walk_ending_eq_ok_iff.2 ⟨walk, fun slash => dir slash ▸ there⟩,
        by simp [there]⟩

theorem has_iff : t.has path = true ↔ ∃ q node, t.resolve path = .ok (q, node) := by
  unfold has
  cases t.resolve path with
  | error e => simp
  | ok r => exact ⟨fun _ => ⟨_, _, rfl⟩, fun _ => rfl⟩

theorem read_eq_ok_iff :
    t.read path = .ok bytes ↔ ∃ q, t.resolve path = .ok (q, .file bytes) := by
  unfold read
  cases t.resolve path with
  | error e => simp [Except.bind]
  | ok r =>
    obtain ⟨q, node⟩ := r
    cases node <;> simp [Except.bind]

theorem has_of_read (h : t.read path = .ok bytes) : t.has path = true := by
  obtain ⟨q, found⟩ := read_eq_ok_iff.1 h
  exact has_iff.2 ⟨q, _, found⟩

/-- A file can be written where the names lead to, if neither they nor what is there speak of a
directory. -/
theorem target_eq_ok_iff : t.target path = .ok q ↔
    sought path = .ok (Path.names path) ∧ t.walk [] (Path.names path) = .ok q ∧
      Path.endsWithSlash path = false ∧
      (Path.names path).getLast? ∉ [none, some ".", some ".."] ∧
      t.node? q ≠ some .directory := by
  rw [target]
  rcases sought_cases path with ⟨e, bad⟩ | good
  · simp [bad, Except.bind]
  · rw [good]
    change Except.bind (t.walk [] (Path.names path)) _ = _ ↔ _
    cases t.walk [] (Path.names path) with
    | error e => simp [Except.bind]
    | ok r =>
      simp only [Except.bind]
      grind

theorem ne_nil_of_target (h : t.target path = .ok q) : q ≠ [] := by
  rintro rfl
  exact (target_eq_ok_iff.1 h).2.2.2.2 (node?_nil t)

theorem has_of_target (h : t.target path = .ok q) (there : t.node? q = some node) :
    t.has path = true := by
  obtain ⟨sought, walk, slash, -⟩ := target_eq_ok_iff.1 h
  exact has_iff.2 ⟨q, node, resolve_eq_ok_iff.2 ⟨sought, walk, there, by simp [slash]⟩⟩

/-- A file that can be read can be written. -/
theorem target_of_read (rooted : t.Rooted) (h : t.read path = .ok bytes) :
    ∃ q, t.target path = .ok q := by
  obtain ⟨q, found⟩ := read_eq_ok_iff.1 h
  obtain ⟨sought, walk, there, slash⟩ := resolve_eq_ok_iff.1 found
  refine ⟨q, target_eq_ok_iff.2 ⟨sought, walk, ?_, ?_, by simp [there]⟩⟩
  · by_contra ends
    exact nomatch slash (by simpa using ends)
  · cases last : (Path.names path).getLast? with
    | none =>
      rw [List.getLast?_eq_none_iff.1 last] at walk
      cases walk
      simp at there
    | some n =>
      obtain ⟨ns, split⟩ := List.getLast?_eq_some_iff.1 last
      rw [split] at walk
      obtain ⟨r, -, dir, step⟩ := walk_concat_eq_ok_iff.1 walk
      have up := rooted.tail dir
      unfold FileTree.step at step
      grind

/-- A written file holds what was written. -/
theorem read_write (h : t.target path = .ok q) (bytes : Bytes) :
    (t.set q (.file bytes)).read path = .ok bytes := by
  obtain ⟨sought, walk, slash, -, free⟩ := target_eq_ok_iff.1 h
  have low := ne_nil_of_target h
  refine read_eq_ok_iff.2 ⟨q, resolve_eq_ok_iff.2 ⟨sought, ?_, ?_, by simp [slash]⟩⟩
  · refine walk_mono (fun place dir => ?_) walk
    rwa [node?_set low, if_neg fun same => free (by rwa [← same])]
  · simp [node?_set low]

/-! ## The directories above -/

/-- The directories above a path are made by its names, or there is no path to them at all. -/
theorem makeParents_cases (path : String) : (∃ e, ∀ t, makeParents t path = (.error e, t)) ∨
    ∀ t, makeParents t path = t.makeAll (Path.steps path).dropLast.reverse := by
  cases h : names (Path.parent path) with
  | error e => exact .inl ⟨e, fun t => by simp [makeParents, makeDirectories, h]⟩
  | ok ns =>
    exact .inr fun t => by simp [makeParents, makeDirectories, h, Path.steps_parent]

theorem grown_makeParents (t : FileTree) (path : String) :
    Grown (Path.steps path).dropLast.length t (t.makeParents path).2 := by
  rcases makeParents_cases path with ⟨e, bad⟩ | good
  · rw [bad]
    exact .refl _ t
  · rw [good]
    simpa using grown_makeAll t (Path.steps path).dropLast.reverse

/-- What is there is in a directory. -/
theorem isDirectory_of_has (h : t.has path = true) :
    t.isDirectory (Path.steps path).dropLast = true := by
  obtain ⟨q, node, found⟩ := has_iff.1 h
  have walk := walk_solid (resolve_eq_ok_iff.1 found).2.1
  change t.walk [] (Path.steps path) = _ at walk
  cases last : (Path.steps path).getLast? with
  | none =>
    rw [List.getLast?_eq_none_iff.1 last]
    simp [isDirectory, FileTree.walk]
  | some n =>
    obtain ⟨ns, split⟩ := List.getLast?_eq_some_iff.1 last
    rw [split] at walk ⊢
    obtain ⟨r, before, dir, -⟩ := walk_concat_eq_ok_iff.1 walk
    exact isDirectory_iff.2 ⟨r, by simpa using before, dir⟩

/-- Nothing comes up at a path by failing to make the directories above it. -/
theorem has_of_makeParents_error {e : FileError} (free : t.has path = false)
    (failed : (t.makeParents path).1 = .error e) : (t.makeParents path).2.has path = false := by
  rcases makeParents_cases path with ⟨e, bad⟩ | good
  · rwa [bad]
  · rw [good] at failed ⊢
    have there := isDirectory_makeAll t (Path.steps path).dropLast.reverse
    rw [failed, List.reverse_reverse] at there
    by_contra up
    exact Bool.eq_false_iff.1 there (isDirectory_of_has (by simpa using up))

/-- A directory is no place for a file. -/
theorem target_of_directory (h : t.resolve path = .ok (q, .directory)) :
    t.target path = .error .isDirectory := by
  obtain ⟨sought, walk, there, -⟩ := resolve_eq_ok_iff.1 h
  simp [target, sought, walk, there, Except.bind]

/-- Where a file cannot be written nothing can be read. -/
theorem eq_isDirectory_of_target {e : FileError} (rooted : t.Rooted) (there : t.has path = true)
    (bad : t.target path = .error e) : e = .isDirectory ∧ t.read path = .error .isDirectory := by
  obtain ⟨q, node, found⟩ := has_iff.1 there
  cases node with
  | file bytes =>
    obtain ⟨r, good⟩ := target_of_read rooted (read_eq_ok_iff.2 ⟨q, found⟩)
    rw [good] at bad
    cases bad
  | directory =>
    rw [target_of_directory found] at bad
    cases bad
    exact ⟨rfl, by simp [read, found, Except.bind]⟩

/-- Making the directories above a path again changes nothing, and comes to the same but for a file
that was in the place of one of them. -/
theorem makeParents_makeParents (t : FileTree) (path : String) :
    (t.makeParents path).2.makeParents path = t.makeParents path ∨
      ((t.makeParents path).1 = .error .occupied ∧
        (t.makeParents path).2.makeParents path =
          (.error .notDirectory, (t.makeParents path).2)) := by
  rcases makeParents_cases path with ⟨e, bad⟩ | good
  · exact .inl (by rw [bad, bad])
  · rw [good, good]
    exact makeAll_makeAll t _

theorem makeParents_of_isDirectory (h : t.isDirectory (Path.steps path).dropLast = true) :
    (t.makeParents path).2 = t := by
  rcases makeParents_cases path with ⟨e, bad⟩ | good
  · rw [bad]
  · rw [good, makeAll_of_isDirectory (by simpa using h)]

/-! ## Settled paths -/

/-- A path at which nothing can come up by making the directories above it: its names lead downwards
from a directory that is there. Any path without a `..` is one, for it leads downwards from the
top. -/
def Settled (t : FileTree) (path : String) : Prop := t.Descends (Path.names path)

/-- The directories that are made above a settled path are not as deep as the path leads. -/
theorem grown_makeParents_below {up down : List String} {p : Place}
    (names : Path.names path = up ++ down) (plain : ".." ∉ down) (walk : t.walk [] up = .ok p)
    (dir : t.node? p = some .directory) :
    Grown (p.length + ((down.filter (· != ".")).length - 1)) t (t.makeParents path).2 := by
  rcases makeParents_cases path with ⟨e, bad⟩ | good
  · rw [bad]
    exact .refl _ t
  have steps : Path.steps path = up.filter (· != ".") ++ down.filter (· != ".") := by
    rw [Path.steps, names, List.filter_append]
  rcases List.eq_nil_or_concat' (down.filter (· != ".")) with none_ | ⟨front, n, split⟩
  · -- All directories above are there.
    have whole : t.isDirectory (Path.steps path) = true := by
      rw [steps, none_, List.append_nil]
      exact isDirectory_solid (isDirectory_iff.2 ⟨p, walk, dir⟩)
    rw [makeParents_of_isDirectory (isDirectory_dropLast whole)]
    exact .refl _ t
  · rw [good, steps, split, ← List.append_assoc, List.dropLast_concat, List.reverse_append]
    have plain' : ".." ∉ front.reverse := by
      intro up
      have there : ".." ∈ down.filter (· != ".") := by
        rw [split]
        exact List.mem_append_left _ (List.mem_reverse.1 up)
      exact plain (List.mem_filter.1 there).1
    simpa using grown_makeAll_below (walk_solid walk) dir plain'

/-- Nothing comes up at a settled path by making the directories above it. -/
theorem has_makeParents (rooted : t.Rooted) (settled : t.Settled path)
    (free : t.has path = false) : (t.makeParents path).2.has path = false := by
  obtain ⟨up, down, names, plain, dir⟩ := settled
  obtain ⟨p, there, here⟩ := isDirectory_iff.1 dir
  have grown := grown_makeParents_below names plain there here
  by_contra found
  obtain ⟨q, node, found⟩ := has_iff.1 (by simpa using found)
  obtain ⟨sought, walk, node_, slash⟩ := resolve_eq_ok_iff.1 found
  rw [names, walk_append, grown.walk there] at walk
  obtain ⟨below, rfl, length⟩ := exists_append_of_walk (p := p) walk plain
  -- The directories that were made lie higher.
  have before : t.node? (below ++ p) = some node := by
    rcases grown.added node_ with before | ⟨rfl, high⟩
    · exact before
    · have top : below = [] := by
        apply List.eq_nil_of_length_eq_zero
        simp only [List.length_append] at high
        omega
      simpa [top] using here
  have again := grown.walk_of_node rooted plain walk before
  have way : t.walk [] (Path.names path) = .ok (below ++ p) := by
    rw [names, walk_append, there]
    exact again
  have up := has_iff.2 ⟨_, node, resolve_eq_ok_iff.2 ⟨sought, way, before, slash⟩⟩
  simp [up] at free

/-- Making the directories above a settled path again comes to the same. -/
theorem makeParents_of_settled (rooted : t.Rooted) (settled : t.Settled path) :
    (t.makeParents path).2.makeParents path = t.makeParents path := by
  rcases makeParents_cases path with ⟨e, bad⟩ | good
  · rw [bad, bad]
  · rw [good, good]
    refine makeAll_of_descends rooted ?_
    rw [List.reverse_reverse]
    exact settled.solid.dropLast

end WebCall.FileTree
