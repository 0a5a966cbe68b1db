import Mathlib.Data.List.Basic
import WebCall.Files.Tree

/-!
# Making directories

What making directories does to a tree: there are more directories afterwards, and everything else
is as it was, also where the making failed halfway. Making the same directories again changes
nothing more, and comes to the same but for one case: names that lead upwards out of a directory
that was missing may lead to a file, and that file is in the way for another reason then.

## Main definitions

* `FileTree.Rooted`: everything is in a directory.
* `FileTree.Grown`: a tree with directories more than another one.
* `FileTree.Descends`: names that lead downwards from a directory that is there.
* `FileTree.makeAll_makeAll`, `FileTree.makeAll_of_descends`: making directories twice.
-/
namespace WebCall.FileTree

variable {t t' : FileTree} {p q : Place} {n : String} {ns : List String} {node : FileNode}

/-! ## Walks -/

@[simp] theorem isOk_ok {α : Type} (a : α) : (Except.ok a : Except FileError α).isOk = true := rfl

@[simp] theorem isOk_error {α : Type} (e : FileError) :
    (Except.error e : Except FileError α).isOk = false := rfl

@[simp] theorem node?_nil (t : FileTree) : t.node? [] = some .directory := by simp [node?]

/-- A walk of one more name starts its last step at a directory. -/
theorem walk_cons_eq_ok_iff : t.walk p (n :: ns) = .ok q ↔
    t.node? p = some .directory ∧ ∃ r, step p n = .ok r ∧ t.walk r ns = .ok q := by
  rw [walk]
  cases t.node? p with
  | none => simp
  | some node =>
    cases node with
    | file bytes => simp
    | directory => cases step p n <;> simp [Except.bind]

theorem walk_append (t : FileTree) (p : Place) (ns more : List String) :
    t.walk p (ns ++ more) = (t.walk p ns).bind fun q => t.walk q more := by
  induction ns generalizing p with
  | nil => rfl
  | cons n ns ih =>
    rw [List.cons_append, walk, walk]
    cases t.node? p with
    | none => rfl
    | some node =>
      cases node with
      | file bytes => rfl
      | directory =>
        cases step p n with
        | error e => rfl
        | ok r => exact ih r

/-- A walk stops short of its last name at a directory. -/
theorem walk_concat_eq_ok_iff : t.walk p (ns ++ [n]) = .ok q ↔
    ∃ r, t.walk p ns = .ok r ∧ t.node? r = some .directory ∧ step r n = .ok q := by
  rw [walk_append]
  cases h : t.walk p ns with
  | error e => simp [Except.bind]
  | ok r =>
    change t.walk r [n] = .ok q ↔ _
    rw [walk_cons_eq_ok_iff]
    simp [walk]

/-- Nothing has to be at the place that one name leads to. -/
theorem walk_singleton_ne_missing (h : t.node? p = some .directory) :
    t.walk p [n] ≠ .error .missing := by
  rw [walk, h]
  unfold step
  grind [Except.bind, walk]

/-- A walk depends on what is a directory only. -/
theorem walk_mono
    (h : ∀ place, t.node? place = some .directory → t'.node? place = some .directory)
    (ok : t.walk p ns = .ok q) : t'.walk p ns = .ok q := by
  induction ns generalizing p with
  | nil => exact ok
  | cons n ns ih =>
    obtain ⟨here, r, first, later⟩ := walk_cons_eq_ok_iff.1 ok
    exact walk_cons_eq_ok_iff.2 ⟨h p here, r, first, ih later⟩

/-- Names that stand for the directory itself may be left out of a walk. -/
theorem walk_solid (ok : t.walk p ns = .ok q) : t.walk p (ns.filter (· != ".")) = .ok q := by
  induction ns generalizing p with
  | nil => exact ok
  | cons n ns ih =>
    obtain ⟨here, r, first, later⟩ := walk_cons_eq_ok_iff.1 ok
    by_cases dot : n = "."
    · subst dot
      cases first
      simpa using ih later
    · have solid : (n :: ns).filter (· != ".") = n :: ns.filter (· != ".") := by simp [dot]
      rw [solid]
      exact walk_cons_eq_ok_iff.2 ⟨here, r, first, ih later⟩

/-- The step of a name that does not lead upwards. -/
theorem step_cases (h : step p n = .ok q) (plain : n ≠ "..") :
    (n = "." ∧ q = p) ∨ (n ≠ "." ∧ q = n :: p) := by
  unfold step at h
  grind

/-- A walk that does not lead upwards ends below its start. -/
theorem exists_append_of_walk (h : t.walk p ns = .ok q) (plain : ".." ∉ ns) :
    ∃ below : Place, q = below ++ p ∧ below.length = (ns.filter (· != ".")).length := by
  induction ns generalizing p with
  | nil =>
    cases h
    exact ⟨[], rfl, rfl⟩
  | cons n ns ih =>
    obtain ⟨-, r, first, later⟩ := walk_cons_eq_ok_iff.1 h
    rw [List.mem_cons, not_or] at plain
    obtain ⟨below, rfl, length⟩ := ih later plain.2
    rcases step_cases first (Ne.symm plain.1) with ⟨rfl, rfl⟩ | ⟨solid, rfl⟩
    · exact ⟨below, rfl, by simpa using length⟩
    · refine ⟨below ++ [n], by simp, ?_⟩
      simp [solid, length]

/-- What is at the place that a walk leads to does not stop it. -/
theorem walk_ne_occupied (t : FileTree) (p : Place) (ns : List String) :
    t.walk p ns ≠ .error .occupied := by
  induction ns generalizing p with
  | nil => nofun
  | cons n ns ih =>
    rw [walk]
    split
    · nofun
    · nofun
    · unfold step
      split
      · exact ih p
      · split
        · exact ih p.tail
        · split
          · nofun
          · exact ih (n :: p)

/-- Each name leads to one more at most. -/
theorem length_le_of_walk (h : t.walk p ns = .ok q) : q.length ≤ p.length + ns.length := by
  induction ns generalizing p with
  | nil =>
    cases h
    exact Nat.le_add_right ..
  | cons n ns ih =>
    obtain ⟨-, r, first, later⟩ := walk_cons_eq_ok_iff.1 h
    have one : r.length ≤ p.length + 1 := by
      unfold step at first
      grind [List.length_tail]
    have rest := ih later
    rw [List.length_cons]
    omega

theorem isDirectory_iff : t.isDirectory ns = true ↔
    ∃ q, t.walk [] ns = .ok q ∧ t.node? q = some .directory := by
  unfold isDirectory
  cases t.walk [] ns <;> simp

/-- A walk to a directory passes by directories. -/
theorem isDirectory_of_append {more : List String} (h : t.isDirectory (ns ++ more) = true) :
    t.isDirectory ns = true := by
  obtain ⟨q, walk, there⟩ := isDirectory_iff.1 h
  rw [walk_append] at walk
  cases before : t.walk [] ns with
  | error e =>
    rw [before] at walk
    cases walk
  | ok r =>
    rw [before] at walk
    refine isDirectory_iff.2 ⟨r, before, ?_⟩
    cases more with
    | nil =>
      cases walk
      exact there
    | cons n more => exact (walk_cons_eq_ok_iff.1 walk).1

/-- What holds a directory is a directory. The top holds itself. -/
theorem isDirectory_dropLast (h : t.isDirectory ns = true) : t.isDirectory ns.dropLast = true := by
  rcases List.eq_nil_or_concat' ns with rfl | ⟨front, n, rfl⟩
  · exact h
  · rw [List.dropLast_concat]
    exact isDirectory_of_append h

/-- Names that stand for the directory itself may be left out of the way to a directory. -/
theorem isDirectory_solid (h : t.isDirectory ns = true) :
    t.isDirectory (ns.filter (· != ".")) = true := by
  obtain ⟨q, walk, there⟩ := isDirectory_iff.1 h
  exact isDirectory_iff.2 ⟨q, walk_solid walk, there⟩

/-- Names that lead downwards from a directory which is there: those up to the last `..` lead to
it. -/
def Descends (t : FileTree) (ns : List String) : Prop :=
  ∃ up down, ns = up ++ down ∧ ".." ∉ down ∧ t.isDirectory up = true

namespace Descends

theorem solid (h : t.Descends ns) : t.Descends (ns.filter (· != ".")) := by
  obtain ⟨up, down, rfl, plain, dir⟩ := h
  exact ⟨_, _, List.filter_append .., fun there => plain (List.mem_filter.1 there).1,
    isDirectory_solid dir⟩

theorem dropLast (h : t.Descends ns) : t.Descends ns.dropLast := by
  obtain ⟨up, down, rfl, plain, dir⟩ := h
  rcases List.eq_nil_or_concat' down with rfl | ⟨down, n, rfl⟩
  · rw [List.append_nil]
    exact ⟨up.dropLast, [], (List.append_nil _).symm, plain, isDirectory_dropLast dir⟩
  · rw [← List.append_assoc, List.dropLast_concat]
    exact ⟨up, down, rfl, fun there => plain (List.mem_append_left _ there), dir⟩

end Descends

/-! ## Growing trees -/

/-- Everything is in a directory. -/
def Rooted (t : FileTree) : Prop :=
  ∀ name place node, t.node? (name :: place) = some node → t.node? place = some .directory

/-- What holds anything is a directory. The top holds itself. -/
theorem Rooted.tail (rooted : t.Rooted) (h : t.node? p = some node) :
    t.node? p.tail = some .directory := by
  cases p with
  | nil => exact node?_nil t
  | cons name place => exact rooted name place node h

/-- Something is at every place above one at which something is. -/
theorem Rooted.exists_node (rooted : t.Rooted) {below : Place}
    (h : t.node? (below ++ p) = some node) : ∃ node, t.node? p = some node := by
  induction below generalizing node with
  | nil => exact ⟨node, h⟩
  | cons name below ih => exact ih (rooted name _ node h)

/-- A walk ends in a directory. -/
theorem Rooted.walk (rooted : t.Rooted) (up : t.node? p.tail = some .directory)
    (h : t.walk p ns = .ok q) : t.node? q.tail = some .directory := by
  induction ns generalizing p with
  | nil =>
    cases h
    exact up
  | cons n ns ih =>
    obtain ⟨here, r, first, later⟩ := walk_cons_eq_ok_iff.1 h
    refine ih ?_ later
    unfold step at first
    split at first
    · cases first
      exact up
    · split at first
      · cases first
        exact rooted.tail up
      · split at first
        · cases first
        · cases first
          exact here

/-- A node may be put into a directory, but for one that is no directory in place of one. -/
theorem Rooted.set (rooted : t.Rooted) (low : p ≠ []) (up : t.node? p.tail = some .directory)
    (free : node = .directory ∨ t.node? p ≠ some .directory) : (t.set p node).Rooted := by
  intro name place there h
  have above : t.node? place = some .directory := by
    rw [node?_set low] at h
    split at h
    · next same => rwa [← same] at up
    · exact rooted name place there h
  rw [node?_set low]
  split
  · next same =>
    subst same
    rcases free with rfl | free
    · rfl
    · exact absurd above free
  · exact above

/-- A single node may be put into the top. -/
theorem rooted_singleton (name : String) (node : FileNode) :
    (FileTree.mk [([name], node)]).Rooted :=
  have empty : (FileTree.mk []).Rooted := fun _ _ _ h => by simp [node?] at h
  empty.set (p := [name]) (by simp) (node?_nil _) (.inr (by simp [node?]))

/-- A tree with directories more than another one, at places of `depth` names at most. -/
structure Grown (depth : Nat) (t t' : FileTree) : Prop where
  kept : ∀ {place node}, t.node? place = some node → t'.node? place = some node
  added : ∀ {place node}, t'.node? place = some node →
    t.node? place = some node ∨ (node = .directory ∧ place.length ≤ depth)
  rooted : t.Rooted → t'.Rooted

namespace Grown

variable {depth : Nat}

theorem refl (depth : Nat) (t : FileTree) : Grown depth t t := ⟨id, .inl, id⟩

theorem trans {t'' : FileTree} (h : Grown depth t t') (h' : Grown depth t' t'') :
    Grown depth t t'' where
  kept there := h'.kept (h.kept there)
  added there := by
    rcases h'.added there with before | new
    · exact h.added before
    · exact .inr new
  rooted := fun rooted => h'.rooted (h.rooted rooted)

/-- The files are the same. -/
theorem node?_eq_file_iff (h : Grown depth t t') {bytes : Bytes} :
    t'.node? p = some (.file bytes) ↔ t.node? p = some (.file bytes) :=
  ⟨fun there => (h.added there).resolve_right fun new => (nomatch new.1), h.kept⟩

/-- A walk stays possible. -/
theorem walk (h : Grown depth t t') (ok : t.walk p ns = .ok q) : t'.walk p ns = .ok q :=
  walk_mono (fun _ there => h.kept there) ok

/-- A walk to a place at which something was before was possible before, unless it leads upwards. -/
theorem walk_of_node (h : Grown depth t t') (rooted : t.Rooted) (plain : ".." ∉ ns)
    (ok : t'.walk p ns = .ok q) (there : t.node? q = some node) : t.walk p ns = .ok q := by
  induction ns generalizing p with
  | nil => exact ok
  | cons n ns ih =>
    obtain ⟨below, rfl, -⟩ := exists_append_of_walk ok plain
    obtain ⟨here, r, first, later⟩ := walk_cons_eq_ok_iff.1 ok
    obtain ⟨old, before⟩ := rooted.exists_node there
    -- Nothing that was there became a directory.
    obtain rfl : old = .directory := Option.some.inj ((h.kept before).symm.trans here)
    exact walk_cons_eq_ok_iff.2 ⟨before, r, first,
      ih (fun later => plain (List.mem_cons_of_mem n later)) later⟩

end Grown

/-! ## Making directories -/

/-- Making a directory that may be there: where its names lead to decides. -/
theorem ensureDirectory_eq (t : FileTree) (ns : List String) :
    t.ensureDirectory ns = match t.walk [] ns with
      | .error e => (.error e, t)
      | .ok q => match t.node? q with
        | none => (.ok (), t.set q .directory)
        | some .directory => (.ok (), t)
        | some (.file _) => (.error .occupied, t) := by
  cases walk : t.walk [] ns with
  | error e => simp [ensureDirectory, makeDirectory, isDirectory, walk]
  | ok q =>
    cases there : t.node? q with
    | none => simp [ensureDirectory, makeDirectory, walk, there]
    | some node => cases node <;> simp [ensureDirectory, makeDirectory, isDirectory, walk, there]

/-- A directory whose place is occupied is one in whose place a file is. -/
theorem file_of_occupied (h : (t.ensureDirectory ns).1 = .error .occupied) :
    ∃ q bytes, t.walk [] ns = .ok q ∧ t.node? q = some (.file bytes) := by
  rw [ensureDirectory_eq] at h
  cases walk : t.walk [] ns with
  | error e =>
    rw [walk] at h
    cases h
    exact absurd walk (walk_ne_occupied t [] ns)
  | ok q =>
    rw [walk] at h
    cases there : t.node? q with
    | none => simp [there] at h
    | some node =>
      cases node with
      | directory => simp [there] at h
      | file bytes => exact ⟨q, bytes, rfl, there⟩

theorem makeAll_cons_of_missing (h : t.walk [] (n :: ns).reverse = .error .missing) :
    t.makeAll (n :: ns) = match t.makeAll ns with
      | (.ok _, t) => t.ensureDirectory (n :: ns).reverse
      | failed => failed := by
  have made : t.makeDirectory (n :: ns).reverse = (.error .missing, t) := by
    rw [makeDirectory, h]
  rcases above : t.makeAll ns with ⟨_ | _, s⟩ <;> simp only [makeAll, made, above]

theorem makeAll_cons_of_ne (h : t.walk [] (n :: ns).reverse ≠ .error .missing) :
    t.makeAll (n :: ns) = t.ensureDirectory (n :: ns).reverse := by
  have made : ∀ s, t.makeDirectory (n :: ns).reverse ≠ (.error .missing, s) := by
    intro s
    unfold makeDirectory
    split
    · next e walk => rintro ⟨⟩; exact h walk
    · split <;> rintro ⟨⟩
  rw [makeAll]
  split
  · next s eq => exact absurd eq (made s)
  · rfl

/-- A directory may be put where names lead to and nothing is. -/
theorem grown_set {depth : Nat} (walk : t.walk [] ns = .ok q) (free : t.node? q = none)
    (low : q.length ≤ depth) : Grown depth t (t.set q .directory) := by
  have solid : q ≠ [] := fun top => by simp [top] at free
  refine ⟨fun {place node} there => ?_, fun {place node} there => ?_, fun rooted => ?_⟩
  · rwa [node?_set solid, if_neg (fun same => by simp [same, free] at there)]
  · rw [node?_set solid] at there
    split at there
    · next same =>
      cases there
      exact .inr ⟨rfl, same ▸ low⟩
    · exact .inl there
  · exact rooted.set solid (rooted.walk (p := []) (node?_nil t) walk) (.inl rfl)

theorem grown_ensureDirectory {depth : Nat}
    (low : ∀ q, t.walk [] ns = .ok q → t.node? q = none → q.length ≤ depth) :
    Grown depth t (t.ensureDirectory ns).2 := by
  rw [ensureDirectory_eq]
  split
  · exact .refl _ t
  · next q walk =>
    split
    · next free => exact grown_set walk free (low q walk free)
    · exact .refl _ t
    · exact .refl _ t

/-- Nothing but directories is made, also where the making fails halfway. They are as deep as the
names lead at most. -/
theorem grown_makeAll_of {depth : Nat}
    (low : ∀ s above q, Grown depth t s → above <:+ ns → s.walk [] above.reverse = .ok q →
      s.node? q = none → q.length ≤ depth) :
    Grown depth t (t.makeAll ns).2 := by
  induction ns with
  | nil => exact .refl depth t
  | cons n ns ih =>
    have last {s : FileTree} (grown : Grown depth t s) :
        Grown depth t (s.ensureDirectory (n :: ns).reverse).2 :=
      grown.trans (grown_ensureDirectory fun q => low s (n :: ns) q grown List.suffix_rfl)
    by_cases missing : t.walk [] (n :: ns).reverse = .error .missing
    · rw [makeAll_cons_of_missing missing]
      have above : Grown depth t (t.makeAll ns).2 :=
        ih fun s above q grown part => low s above q grown (part.trans (List.suffix_cons n ns))
      split
      · next s made =>
        rw [made] at above
        exact last above
      · exact above
    · rw [makeAll_cons_of_ne missing]
      exact last (.refl depth t)

theorem grown_makeAll (t : FileTree) (ns : List String) : Grown ns.length t (t.makeAll ns).2 := by
  refine grown_makeAll_of fun s above q _ part walk _ => ?_
  calc q.length ≤ above.reverse.length := by simpa using length_le_of_walk walk
    _ ≤ ns.length := by simpa using part.length_le

/-- Names below a directory, given from the innermost, make nothing deeper than they are many. -/
theorem grown_makeAll_below {up low : List String} (there : t.walk [] up = .ok p)
    (dir : t.node? p = some .directory) (plain : ".." ∉ low) :
    Grown (p.length + low.length) t (t.makeAll (low ++ up.reverse)).2 := by
  refine grown_makeAll_of fun s above q grown part walk free => ?_
  rcases List.suffix_or_suffix_of_suffix part (List.suffix_append low up.reverse) with
    ⟨rest, high⟩ | ⟨front, rfl⟩
  · -- What leads upwards leads to directories that were there before.
    exfalso
    have whole : s.isDirectory (above.reverse ++ rest.reverse) = true := by
      rw [← List.reverse_append, high, List.reverse_reverse]
      exact isDirectory_iff.2 ⟨p, grown.walk there, grown.kept dir⟩
    obtain ⟨r, walk', found⟩ := isDirectory_iff.1 (isDirectory_of_append whole)
    obtain rfl : r = q := Except.ok.inj (walk'.symm.trans walk)
    simp [found] at free
  · obtain ⟨more, part⟩ := part
    rw [← List.append_assoc] at part
    obtain rfl : more ++ front = low := List.append_cancel_right part
    rw [List.reverse_append, List.reverse_reverse, walk_append, grown.walk there] at walk
    obtain ⟨below, rfl, length⟩ := exists_append_of_walk (p := p) walk
      fun up => plain (List.mem_append_right _ (List.mem_reverse.1 up))
    have short : below.length ≤ front.reverse.length := length ▸ List.length_filter_le ..
    rw [List.length_append, List.length_append]
    rw [List.length_reverse] at short
    omega

theorem isDirectory_ensureDirectory (t : FileTree) (ns : List String) :
    (t.ensureDirectory ns).2.isDirectory ns = (t.ensureDirectory ns).1.isOk := by
  rw [ensureDirectory_eq]
  cases walk : t.walk [] ns with
  | error e => simp [isDirectory, walk]
  | ok q =>
    cases there : t.node? q with
    | none =>
      have low : q ≠ [] := fun top => by simp [top] at there
      have same : (t.set q .directory).node? q = _ := node?_set low
      simp [isDirectory, there, (grown_set walk there (Nat.le_refl _)).walk walk, same]
    | some node => cases node <;> simp [isDirectory, walk, there]

/-- The directory is there afterwards just in case its making went well. -/
theorem isDirectory_makeAll (t : FileTree) (ns : List String) :
    (t.makeAll ns).2.isDirectory ns.reverse = (t.makeAll ns).1.isOk := by
  induction ns with
  | nil => simp [makeAll, isDirectory, walk]
  | cons n ns ih =>
    by_cases missing : t.walk [] (n :: ns).reverse = .error .missing
    · rw [makeAll_cons_of_missing missing]
      split
      · exact isDirectory_ensureDirectory ..
      · next failed =>
        -- Without the directory above there is none at the names either.
        cases made : (t.makeAll ns).1 with
        | ok _ => exact (failed () _ (Prod.ext made rfl)).elim
        | error e =>
          rw [made] at ih
          refine Bool.eq_false_iff.2 fun there => ?_
          rw [List.reverse_cons] at there
          exact Bool.eq_false_iff.1 ih (isDirectory_of_append there)
    · rw [makeAll_cons_of_ne missing]
      exact isDirectory_ensureDirectory ..

/-- There is nothing to make where the directory is there. -/
theorem makeAll_of_isDirectory (h : t.isDirectory ns.reverse = true) :
    t.makeAll ns = (.ok (), t) := by
  obtain ⟨q, walk, there⟩ := isDirectory_iff.1 h
  cases ns with
  | nil => rfl
  | cons n ns =>
    have found : t.walk [] (n :: ns).reverse ≠ .error .missing := by
      rw [walk]
      rintro ⟨⟩
    rw [makeAll_cons_of_ne found, ensureDirectory_eq, walk]
    simp [there]

/-- Where names lead somewhere but for the last, making their directory again comes to the same. -/
theorem makeAll_ensureDirectory (h : t.walk [] (n :: ns).reverse ≠ .error .missing) :
    (t.ensureDirectory (n :: ns).reverse).2.makeAll (n :: ns)
      = t.ensureDirectory (n :: ns).reverse := by
  cases made : (t.ensureDirectory (n :: ns).reverse).1 with
  | ok _ =>
    rw [makeAll_of_isDirectory (by rw [isDirectory_ensureDirectory, made]; rfl)]
    exact Prod.ext made.symm rfl
  | error e =>
    have same : (t.ensureDirectory (n :: ns).reverse).2 = t := by
      rw [ensureDirectory_eq] at made ⊢
      split at made
      · rfl
      · split at made
        · cases made
        · rfl
        · rfl
    rw [same, makeAll_cons_of_ne h]

/-- Where the directory above cannot be made, none can be made in it: for the same reason, or
because the file is on the way that is in the place of the directory above. -/
theorem makeAll_of_failed {e : FileError} (failed : t.makeAll ns = (.error e, t)) :
    t.makeAll (n :: ns) = (.error e, t) ∨
      (e = .occupied ∧ t.makeAll (n :: ns) = (.error .notDirectory, t)) := by
  by_cases missing : t.walk [] (n :: ns).reverse = .error .missing
  · exact .inl (by rw [makeAll_cons_of_missing missing, failed])
  rw [makeAll_cons_of_ne missing, ensureDirectory_eq]
  rw [List.reverse_cons, walk_append] at missing ⊢
  cases ns with
  | nil => cases failed
  | cons m ns =>
    cases above : t.walk [] (m :: ns).reverse with
    | error e' =>
      rw [above] at missing
      rw [makeAll_cons_of_ne (by rwa [above]), ensureDirectory_eq, above] at failed
      cases failed
      exact .inl rfl
    | ok q =>
      have found : t.makeAll (m :: ns) = t.ensureDirectory (m :: ns).reverse :=
        makeAll_cons_of_ne (by rw [above]; rintro ⟨⟩)
      rw [found, ensureDirectory_eq, above] at failed
      rw [above] at missing
      cases there : t.node? q with
      | none => simp [Except.bind, walk, there] at missing
      | some node =>
        cases node with
        | directory => simp [there] at failed
        | file bytes =>
          simp only [there, Prod.mk.injEq, Except.error.injEq, and_true] at failed
          exact .inr ⟨failed.symm, by simp [Except.bind, walk, there]⟩

/-- Making directories again changes nothing. It comes to the same, unless a file was in the place
of a directory the first time: then that file may be on the way the second time. -/
theorem makeAll_makeAll (t : FileTree) (ns : List String) :
    (t.makeAll ns).2.makeAll ns = t.makeAll ns ∨
      ((t.makeAll ns).1 = .error .occupied ∧
        (t.makeAll ns).2.makeAll ns = (.error .notDirectory, (t.makeAll ns).2)) := by
  induction ns with
  | nil => exact .inl rfl
  | cons n ns ih =>
    by_cases missing : t.walk [] (n :: ns).reverse = .error .missing
    · have there := isDirectory_makeAll t ns
      rw [makeAll_cons_of_missing missing]
      cases made : t.makeAll ns with
      | mk r s =>
        rw [made] at ih there
        cases r with
        | error e =>
          rcases ih with same | ⟨⟨⟩, other⟩
          · exact (makeAll_of_failed same).imp id fun h => ⟨congrArg _ h.1, h.2⟩
          · exact .inr ⟨rfl, (makeAll_of_failed other).resolve_right fun h => nomatch h.1⟩
        | ok _ =>
          refine .inl (makeAll_ensureDirectory fun still => ?_)
          obtain ⟨q, above, dir⟩ := isDirectory_iff.1 there
          rw [List.reverse_cons, walk_append, above] at still
          exact walk_singleton_ne_missing dir still
    · rw [makeAll_cons_of_ne missing]
      exact .inl (makeAll_ensureDirectory missing)

/-- A file that is in the place of a directory was so before directories were made, and the way to
it was there. -/
theorem ensureDirectory_ne_occupied {depth : Nat} {up down : List String} (rooted : t.Rooted)
    (grown : Grown depth t t') (plain : ".." ∉ down) (there : t.walk [] up = .ok p)
    (missing : t.walk [] (up ++ down) = .error .missing) :
    (t'.ensureDirectory (up ++ down)).1 ≠ .error .occupied := by
  intro occupied
  obtain ⟨q, bytes, walk, file⟩ := file_of_occupied occupied
  have before := grown.node?_eq_file_iff.1 file
  rw [walk_append, grown.walk there] at walk
  rw [walk_append, there] at missing
  have walk' : t.walk p down = .ok q := grown.walk_of_node rooted plain walk before
  exact nomatch walk'.symm.trans missing

/-- Where a name on the way leads nowhere, no file is in the place of a directory below. -/
theorem makeAll_ne_occupied {up low : List String} (rooted : t.Rooted) (plain : ".." ∉ low)
    (there : t.walk [] up = .ok p)
    (missing : t.walk [] (low ++ up.reverse).reverse = .error .missing) :
    (t.makeAll (low ++ up.reverse)).1 ≠ .error .occupied := by
  induction low with
  | nil =>
    rw [List.nil_append, List.reverse_reverse, there] at missing
    cases missing
  | cons n low ih =>
    have below : ".." ∉ low := fun up => plain (List.mem_cons_of_mem n up)
    rw [List.cons_append] at missing ⊢
    rw [makeAll_cons_of_missing missing]
    have grown := grown_makeAll t (low ++ up.reverse)
    split
    · next s made =>
      rw [made] at grown
      have names : (n :: (low ++ up.reverse)).reverse = up ++ (n :: low).reverse := by simp
      rw [names] at missing ⊢
      exact ensureDirectory_ne_occupied rooted grown
        (fun up => plain (List.mem_reverse.1 up)) there missing
    · by_cases still : t.walk [] (low ++ up.reverse).reverse = .error .missing
      · exact ih below still
      · intro occupied
        cases above : low ++ up.reverse with
        | nil =>
          rw [above] at occupied
          cases occupied
        | cons m rest =>
          rw [above] at occupied still missing
          rw [makeAll_cons_of_ne still] at occupied
          obtain ⟨q, bytes, walk, file⟩ := file_of_occupied occupied
          rw [List.reverse_cons, walk_append, walk] at missing
          simp [Except.bind, FileTree.walk, file] at missing

/-- Making directories again comes to the same if their names lead downwards from a directory that
is there. -/
theorem makeAll_of_descends (rooted : t.Rooted) (h : t.Descends ns.reverse) :
    (t.makeAll ns).2.makeAll ns = t.makeAll ns := by
  obtain ⟨up, down, split, plain, dir⟩ := h
  obtain rfl : ns = down.reverse ++ up.reverse := by
    rw [← List.reverse_append, ← split, List.reverse_reverse]
  have plain' : ".." ∉ down.reverse := fun up => plain (List.mem_reverse.1 up)
  by_cases missing : t.walk [] (down.reverse ++ up.reverse).reverse = .error .missing
  · obtain ⟨p, there, -⟩ := isDirectory_iff.1 dir
    refine (makeAll_makeAll t _).resolve_right fun h => ?_
    exact makeAll_ne_occupied rooted plain' there missing h.1
  · cases names : down.reverse ++ up.reverse with
    | nil => rfl
    | cons n ns =>
      rw [names] at missing
      rw [makeAll_cons_of_ne missing]
      exact makeAll_ensureDirectory missing

end WebCall.FileTree
