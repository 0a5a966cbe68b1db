import WebCall.Config.Load
import WebCall.Proofs.Files.Access

/-!
# Loading is repeatable

What loading a configuration does to the files, and what loading it once more comes to. A file that
is there is read and left alone. One that is missing is made, and only directories are new where
that fails. Loading once more changes nothing.

A path that leads upwards out of a directory that has to be made first is different: making the
directory may bring the path to something that could not be reached before. If that is a file it is
written over, and if something else is in the way the error is another one the second time.

## Main definitions

* `Config.load_cases`: the four ways in which loading goes.
* `Config.load_repeatable`: the files after loading, and loading again.
-/
namespace WebCall.Config

open FileTree

variable {t : FileTree} {path : String}

/-- Either something is at the path and is read, or the directories above cannot be made, or the
file cannot be written, or the default configuration is there afterwards. -/
theorem load_cases (t : FileTree) (path : String) :
    (t.has path = true ∧ load t path = { result := readFile t path, files := t }) ∨
    (t.has path = false ∧ ∃ e, (t.makeParents path).1 = .error e ∧
      load t path = { result := .error (.create e), files := (t.makeParents path).2 }) ∨
    (t.has path = false ∧ ∃ e, (t.makeParents path).1 = .ok () ∧
      (t.makeParents path).2.target path = .error e ∧
      load t path = { result := .error (.create e), files := (t.makeParents path).2 }) ∨
    (t.has path = false ∧ ∃ q, (t.makeParents path).2.target path = .ok q ∧
      (load t path).result = .ok {} ∧
      (load t path).files = (t.makeParents path).2.set q (.file (Utf8.encode defaultText))) := by
  unfold load createFile
  cases t.has path with
  | true => simp
  | false =>
    obtain ⟨made, s⟩ := t.makeParents path
    cases made with
    | error e => simp
    | ok _ =>
      unfold write
      cases target : s.target path <;> simp [target]

/-- Loading from a path at which nothing is fails where the directories above cannot be made. -/
theorem load_of_makeParents {s : FileTree} {e : FileError} (free : t.has path = false)
    (failed : t.makeParents path = (.error e, s)) :
    load t path = { result := .error (.create e), files := s } := by
  simp [load, createFile, free, failed]

/-- Loading from a settled path at which nothing is does not depend on whether the directories above
were made before. -/
theorem load_makeParents (rooted : t.Rooted) (settled : t.Settled path)
    (free : t.has path = false) : load (t.makeParents path).2 path = load t path := by
  have free' := has_makeParents rooted settled free
  have made := makeParents_of_settled rooted settled
  simp [load, createFile, free, free', made]

/-- The default text holds the default configuration. -/
theorem readFile_defaultText (h : t.read path = .ok (Utf8.encode defaultText)) :
    readFile t path = .ok {} := by
  have text : Utf8.decode? (Utf8.encode defaultText) = some defaultText := by decide +kernel
  have config : ofText? defaultText = some {} := by decide +kernel
  simp [readFile, h, text, config]

/-- Where loading fails, nothing but directories is new, and no file is at the path that was not
there before. -/
theorem files_of_load_error {e : ConfigError} (rooted : t.Rooted)
    (failed : (load t path).result = .error e) :
    (∀ place bytes, (load t path).files.node? place = some (.file bytes) ↔
      t.node? place = some (.file bytes)) ∧
    ∀ bytes, (load t path).files.read path = .ok bytes → t.read path = .ok bytes := by
  have grown := grown_makeParents t path
  rcases load_cases t path with ⟨-, eq⟩ | ⟨free, e', made, eq⟩ | ⟨free, e', -, write, eq⟩ |
    ⟨-, q, -, ok, -⟩
  · rw [eq]
    exact ⟨fun _ _ => Iff.rfl, fun _ => id⟩
  · rw [eq]
    refine ⟨fun _ _ => grown.node?_eq_file_iff, fun bytes read => ?_⟩
    have none_ := has_of_makeParents_error free made
    rw [has_of_read read] at none_
    cases none_
  · rw [eq]
    refine ⟨fun _ _ => grown.node?_eq_file_iff, fun bytes read => ?_⟩
    obtain ⟨q, target⟩ := target_of_read (grown.rooted rooted) read
    rw [target] at write
    cases write
  · rw [ok] at failed
    cases failed

/-- Where a missing file is made, it holds the default configuration. -/
theorem readFile_of_load_ok {config : Config} (free : t.has path = false)
    (ok : (load t path).result = .ok config) :
    config = {} ∧ (load t path).files.read path = .ok (Utf8.encode defaultText) ∧
      readFile (load t path).files path = .ok config := by
  rcases load_cases t path with ⟨there, -⟩ | ⟨-, e, -, eq⟩ | ⟨-, e, -, -, eq⟩ |
    ⟨-, q, target, eq, files⟩
  · simp [there] at free
  · simp [eq] at ok
  · simp [eq] at ok
  · obtain rfl : {} = config := Except.ok.inj (eq.symm.trans ok)
    have read := read_write target (Utf8.encode defaultText)
    rw [files]
    exact ⟨rfl, read, readFile_defaultText read⟩

/-- Whatever was there is there after loading, but for a file at the place to which the path leads
once the directories above it are made. No file is there if the path is settled. -/
theorem kept_of_load {place : Place} {node : FileNode} (rooted : t.Rooted)
    (there : t.node? place = some node) :
    (load t path).files.node? place = some node ∨
      (¬ t.Settled path ∧ t.has path = false ∧ (load t path).result = .ok {} ∧
        (t.makeParents path).2.target path = .ok place) := by
  have kept := (grown_makeParents t path).kept there
  rcases load_cases t path with ⟨-, eq⟩ | ⟨-, e, -, eq⟩ | ⟨-, e, -, -, eq⟩ |
    ⟨free, q, target, ok, files⟩
  · rw [eq]
    exact .inl there
  · rw [eq]
    exact .inl kept
  · rw [eq]
    exact .inl kept
  · by_cases same : place = q
    · subst same
      refine .inr ⟨fun settled => ?_, free, ok, target⟩
      have none_ := has_makeParents rooted settled free
      rw [has_of_target target kept] at none_
      cases none_
    · rw [files, node?_set (ne_nil_of_target target), if_neg same]
      exact .inl kept

/-- Loading again changes nothing, and comes to the same but where something is in the way that was
brought up by making directories: a directory at the path is found by reading it then, and a file in
the place of a directory is found on the way. -/
theorem load_load (rooted : t.Rooted) :
    (load (load t path).files path).files = (load t path).files ∧
      ((load (load t path).files path).result = (load t path).result ∨
        ((load t path).result = .error (.create .isDirectory) ∧
          (load (load t path).files path).result = .error (.read path .isDirectory)) ∨
        ((load t path).result = .error (.create .occupied) ∧
          (load (load t path).files path).result = .error (.create .notDirectory))) := by
  have grown := grown_makeParents t path
  have again := makeParents_makeParents t path
  rcases load_cases t path with ⟨there, eq⟩ | ⟨free, e, made, eq⟩ | ⟨free, e, made, target, eq⟩ |
    ⟨-, q, target, result, files⟩
  · rw [eq, eq]
    exact ⟨rfl, .inl rfl⟩
  · rw [eq]
    have free' := has_of_makeParents_error free made
    rcases again with same | ⟨occupied, other⟩
    · rw [load_of_makeParents free' (same.trans (Prod.ext made rfl))]
      exact ⟨rfl, .inl rfl⟩
    · obtain rfl : e = .occupied := Except.error.inj (made.symm.trans occupied)
      rw [load_of_makeParents free' other]
      exact ⟨rfl, .inr (.inr ⟨rfl, rfl⟩)⟩
  · rw [eq]
    have same : (t.makeParents path).2.makeParents path = (.ok (), (t.makeParents path).2) := by
      rcases again with same | ⟨occupied, -⟩
      · exact same.trans (Prod.ext made rfl)
      · rw [made] at occupied
        cases occupied
    cases up : (t.makeParents path).2.has path with
    | true =>
      obtain ⟨rfl, read⟩ := eq_isDirectory_of_target (grown.rooted rooted) up target
      simp [load, up, readFile, read]
    | false => simp [load, createFile, up, same, write, target]
  · have read := read_write target (Utf8.encode defaultText)
    rw [result, files]
    simp [load, has_of_read read, readFile_defaultText read]

/-- Loading again from a settled path comes to the same. -/
theorem load_load_of_settled (rooted : t.Rooted) (settled : t.Settled path) :
    (load (load t path).files path).result = (load t path).result := by
  rcases load_cases t path with ⟨there, eq⟩ | ⟨free, e, -, eq⟩ | ⟨free, e, -, -, eq⟩ |
    ⟨-, q, -, ok, -⟩
  · rw [eq, eq]
  · have same := load_makeParents rooted settled free
    rw [eq] at same ⊢
    rw [same]
  · have same := load_makeParents rooted settled free
    rw [eq] at same ⊢
    rw [same]
  · refine (load_load rooted).2.resolve_right ?_
    rw [ok]
    rintro (⟨⟨⟩, -⟩ | ⟨⟨⟩, -⟩)

/-- What loading leaves is a tree again. -/
theorem rooted_load (rooted : t.Rooted) : (load t path).files.Rooted := by
  have made := (grown_makeParents t path).rooted rooted
  rcases load_cases t path with ⟨-, eq⟩ | ⟨-, e, -, eq⟩ | ⟨-, e, -, -, eq⟩ |
    ⟨-, q, target, -, files⟩
  · rwa [eq]
  · rwa [eq]
  · rwa [eq]
  · obtain ⟨-, walk, -, -, file⟩ := target_eq_ok_iff.1 target
    rw [files]
    exact made.set (ne_nil_of_target target) (made.walk (p := []) (node?_nil _) walk) (.inr file)

/-- Loading a configuration is repeatable and damages no file, but for a path that leads upwards out
of a directory that has to be made first. There it may write over one file, the one to which the
path leads afterwards, and a second loading that fails may do so for another reason than the
first. -/
theorem load_repeatable (rooted : t.Rooted) :
    let first := load t path
    let second := load first.files path
    -- Where loading fails, every file is as it was, and none is at the path that was not there.
    (∀ e, first.result = .error e →
      (∀ place bytes, first.files.node? place = some (.file bytes) ↔
        t.node? place = some (.file bytes)) ∧
      ∀ bytes, first.files.read path = .ok bytes → t.read path = .ok bytes) ∧
    -- Where a missing file is made, the default configuration is there.
    (∀ config, t.has path = false → first.result = .ok config →
      config = {} ∧ first.files.read path = .ok (Utf8.encode defaultText) ∧
      readFile first.files path = .ok config) ∧
    -- Whatever was there is kept, but for the file at the place that the path comes to lead to.
    (∀ place node, t.node? place = some node → first.files.node? place = some node ∨
      (¬ t.Settled path ∧ t.has path = false ∧ first.result = .ok {} ∧
        (t.makeParents path).2.target path = .ok place)) ∧
    -- What is left is a tree again, and loading again changes nothing in it.
    first.files.Rooted ∧ second.files = first.files ∧
    -- Loading again comes to the same, but for what came to be in the way.
    (second.result = first.result ∨
      (¬ t.Settled path ∧
        ((first.result = .error (.create .isDirectory) ∧
            second.result = .error (.read path .isDirectory)) ∨
          (first.result = .error (.create .occupied) ∧
            second.result = .error (.create .notDirectory))))) := by
  intro first second
  obtain ⟨files, result⟩ := @load_load t path rooted
  refine ⟨fun _ failed => files_of_load_error rooted failed,
    fun _ free ok => readFile_of_load_ok free ok,
    fun _ _ there => kept_of_load rooted there, rooted_load rooted, files, ?_⟩
  rcases result with same | other
  · exact .inl same
  · by_cases settled : t.Settled path
    · exact .inl (load_load_of_settled rooted settled)
    · exact .inr ⟨settled, other⟩

/-- The path leads upwards out of a directory that is there, and then to a directory that is made.
The file is made in it, and read back. -/
theorem load_repeatable_made :
    let t : FileTree := ⟨[(["a"], .directory), (["notes"], .file [35])]⟩
    let first := load t "a/../b/config.toml"
    let second := load first.files "a/../b/config.toml"
    t.Rooted ∧ t.Settled "a/../b/config.toml" ∧ first.result = .ok {} ∧
      first.files.read "a/../b/config.toml" = .ok [] ∧
      first.files.node? ["notes"] = some (.file [35]) ∧
      second.result = .ok {} ∧ second.files = first.files := by
  intro t first second
  have rooted : t.Rooted :=
    (rooted_singleton "notes" (.file [35])).set (p := ["a"]) (by simp) (node?_nil _) (.inl rfl)
  have settled : t.Settled "a/../b/config.toml" :=
    ⟨["a", ".."], ["b", "config.toml"], by decide +kernel, by decide, by decide +kernel⟩
  have free : t.has "a/../b/config.toml" = false := by decide +kernel
  have made : first.result = .ok {} := by decide +kernel
  obtain ⟨-, defaults, kept, -, files, result⟩ := @load_repeatable t "a/../b/config.toml" rooted
  have text : Utf8.encode defaultText = [] := by decide +kernel
  have notes := (kept ["notes"] (.file [35]) (by decide +kernel)).resolve_right (·.1 settled)
  have again := result.resolve_right (·.1 settled)
  exact ⟨rooted, settled, made, text ▸ (defaults _ free made).2.1, notes, again.trans made, files⟩

/-- Making `x` brings `x/../notes` to a file, `x/../x` to a directory and `x/../notes/b` to a place
below a file, none of which could be reached before. The file is emptied. The other two fail, and
fail in another way the second time. -/
theorem load_upwards :
    let t : FileTree := ⟨[(["notes"], .file [35])]⟩
    t.Rooted ∧
    (let first := load t "x/../notes"
     first.result = .ok {} ∧ t.node? ["notes"] = some (.file [35]) ∧
      first.files.node? ["notes"] = some (.file [])) ∧
    (let first := load t "x/../x"
     first.result = .error (.create .isDirectory) ∧
      (load first.files "x/../x").result = .error (.read "x/../x" .isDirectory)) ∧
    (let first := load t "x/../notes/b/config.toml"
     first.result = .error (.create .occupied) ∧
      (load first.files "x/../notes/b/config.toml").result = .error (.create .notDirectory)) :=
  ⟨rooted_singleton "notes" (.file [35]), by decide +kernel, by decide +kernel, by decide +kernel⟩

end WebCall.Config
