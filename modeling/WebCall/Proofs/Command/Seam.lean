import WebCall.Proofs.Command.Origin

/-!
# The seam of a base and a target

A relative target is joined to its base by one slash, however many slashes the base ends with and the
target begins with. Slashes in front of a target do not make an absolute URL of it either: a scheme
begins with a letter. So it makes no difference how many slashes stand at the seam.

## Main definitions

* `Target.join_slashes`: slashes at the seam are lost.
* `Target.parse_slashes_append_ne_ok`: slashes in front make no URL.
* `Target.resolve_seam`: a target has one URL, whatever slashes stand at the seam.
-/
namespace WebCall.Url

/-- A scheme does not begin with a slash. -/
theorem scheme?_cons_slash (cs : List Char) : scheme? ('/' :: cs) = none := by
  rw [scheme?]
  split
  · next name rest cut =>
    obtain ⟨parts, -⟩ := Text.splitFirst?_eq_some_iff.1 cut
    cases name with
    | nil => cases parts
    | cons c name =>
      obtain ⟨rfl, -⟩ := List.cons.inj parts
      have noLetter : Text.isLetter '/' = false := by decide
      simp [noLetter]
  · rfl

/-- A text that begins with a slash is no absolute URL. -/
theorem parseChars_cons_slash (cs : List Char) : parseChars ('/' :: cs) = .error .relative := by
  have cleaned : clean ('/' :: cs) = '/' :: counted (cs.rdropWhile isOuter) :=
    clean_append_cons (by decide) [] cs
  rw [parseChars, cleaned, scheme?_cons_slash]

end WebCall.Url

namespace WebCall.Command.Target

open WebCall.Url

variable {base target : String}

/-- A number of slashes. -/
def slashes (n : Nat) : String := .ofList (List.replicate n '/')

@[simp] theorem toList_slashes (n : Nat) : (slashes n).toList = List.replicate n '/' :=
  String.toList_ofList

theorem trimSlashesLeft_replicate_append (n : Nat) (cs : List Char) :
    trimSlashesLeft (List.replicate n '/' ++ cs) = trimSlashesLeft cs :=
  List.dropWhile_append_of_pos fun c hc => by simp [List.eq_of_mem_replicate hc]

theorem trimSlashesRight_append_replicate (n : Nat) (cs : List Char) :
    trimSlashesRight (cs ++ List.replicate n '/') = trimSlashesRight cs := by
  have front := trimSlashesLeft_replicate_append n cs.reverse
  rw [trimSlashesLeft, trimSlashesLeft] at front
  rw [trimSlashesRight, trimSlashesRight, List.reverse_append, List.reverse_replicate, front]

/-- Slashes at the seam are lost. -/
theorem join_slashes (base target : String) (i j : Nat) :
    join (base ++ slashes i) (slashes j ++ target) = join base target := by
  rw [join, join, String.toList_append, String.toList_append, toList_slashes, toList_slashes,
    trimSlashesRight_append_replicate, trimSlashesLeft_replicate_append]

/-- Slashes in front of a target that is no absolute URL do not make one of it. -/
theorem parse_slashes_append_ne_ok (relative : ∀ url, Url.parse target ≠ .ok url) (j : Nat)
    (url : Url) : Url.parse (slashes j ++ target) ≠ .ok url := by
  cases j with
  | zero =>
    have same : slashes 0 ++ target = target := String.empty_append
    rw [same]
    exact relative url
  | succ j =>
    rw [Url.parse, String.toList_append, toList_slashes, List.replicate_succ, List.cons_append,
      parseChars_cons_slash]
    intro h
    cases h

/-- The URL of what is joined to a base of the web is read back with the scheme and the authority of
the base. -/
theorem exists_parse_of_join {b v : Url} (read : Url.parse base = .ok b)
    (web : IsWeb b.scheme) (joined : Url.parse (join base target) = .ok v) :
    ∃ w, Url.parse v.text = .ok w ∧ w.scheme = b.scheme ∧ w.authority = b.authority := by
  obtain ⟨schemes, authorities⟩ := parse_join read web joined
  obtain ⟨w, again, scheme, authority⟩ := exists_parse_text joined (schemes ▸ web)
  exact ⟨w, again, scheme.trans schemes, authority.trans authorities⟩

/-- A target that is no URL by itself is what it gives when it is joined to the base. -/
theorem resolve_of_relative (relative : ∀ url, Url.parse target ≠ .ok url) :
    resolve (some base) target = match Url.parse (join base target) with
      | .ok url => .ok url.text
      | .error cause => .error (.invalid (join base target) cause) := by
  cases parsed : Url.parse target with
  | ok url => exact absurd parsed (relative url)
  | error _ => cases joined : Url.parse (join base target) <;> simp only [resolve, parsed, joined]

/-- What a relative target is resolved to depends on what it is joined to only. -/
theorem resolve_congr {base' target' : String} (relative : ∀ url, Url.parse target ≠ .ok url)
    (relative' : ∀ url, Url.parse target' ≠ .ok url) (joined : join base' target' = join base target) :
    resolve (some base') target' = resolve (some base) target := by
  rw [resolve_of_relative relative, resolve_of_relative relative', joined]

/-- Slashes at the seam of a base and a target make no difference, whatever texts these are and
however many slashes there are. A target that is no absolute URL is none with slashes in front of it
either. Under the base it gives the same URL, or the same joined text that is no URL; and under a
base of the web that URL has the scheme, user, host and port of the base. A target that is an
absolute URL stands for itself, under every base and without one. -/
theorem resolve_seam (base target : String) (i j : Nat) :
    ((∀ url, Url.parse target ≠ .ok url) →
      (∀ url, Url.parse (slashes j ++ target) ≠ .ok url) ∧
      resolve (some (base ++ slashes i)) (slashes j ++ target) = resolve (some base) target ∧
      ((∃ u, resolve (some base) target = .ok u) ∨
        ∃ cause, resolve (some base) target = .error (.invalid (join base target) cause)) ∧
      ∀ b u, Url.parse base = .ok b → IsWeb b.scheme →
        resolve (some (base ++ slashes i)) (slashes j ++ target) = .ok u →
        ∃ v, Url.parse u = .ok v ∧ v.scheme = b.scheme ∧ v.authority = b.authority) ∧
    ∀ url, Url.parse target = .ok url → ∀ other, resolve other target = .ok url.text := by
  refine ⟨fun relative => ?_, fun url absolute other => by simp only [resolve, absolute]⟩
  have slashed := parse_slashes_append_ne_ok relative j
  have same : resolve (some (base ++ slashes i)) (slashes j ++ target) =
      resolve (some base) target := resolve_congr relative slashed (join_slashes base target i j)
  refine ⟨slashed, same, ?_, fun b u read web resolved => ?_⟩
  · rw [resolve_of_relative relative]
    cases Url.parse (join base target) with
    | ok url => exact .inl ⟨_, rfl⟩
    | error cause => exact .inr ⟨cause, rfl⟩
  · rw [same, resolve_of_relative relative] at resolved
    split at resolved
    · next v joined =>
      cases resolved
      exact exists_parse_of_join read web joined
    · cases resolved

/-- A target that would be another host after two slashes: with a base that ends in slashes it is a part
of the path. -/
theorem resolve_seam_host :
    let base := "https://api.example.com/v1"
    let target := "//evil.example/x"
    let u := "https://api.example.com/v1/evil.example/x"
    (∀ url, Url.parse (slashes 1 ++ target) ≠ .ok url) ∧
      resolve (some (base ++ slashes 3)) (slashes 1 ++ target) = .ok u ∧
      (∃ v, Url.parse u = .ok v ∧ v.scheme = "https".toList ∧
        v.authority = some { host := .name "api.example.com".toList }) ∧
      resolve none u = .ok u := by
  intro base target u
  let b : Url := ⟨"https".toList, some { host := .name "api.example.com".toList },
    .rooted ["v1".toList], none, none⟩
  have read : Url.parse base = .ok b := by decide +kernel
  have relative : Url.parse target = .error .relative := by decide +kernel
  have resolved : resolve (some base) target = .ok u := by decide +kernel
  obtain ⟨slashed, same, -, origin⟩ := (resolve_seam base target 3 1).1 (by simp [relative])
  have absolute : Url.parse u = .ok { b with
    path := .rooted ["v1".toList, "evil.example".toList, "x".toList] } := by decide +kernel
  exact ⟨slashed, same.trans resolved, origin b u read (by decide) (same.trans resolved),
    (resolve_seam base u 0 0).2 _ absolute none⟩

end WebCall.Command.Target
