import WebCall.Command.RequestParts
import WebCall.Proofs.Url.Extension

/-!
# The origin of a resolved target

A target that is no URL by itself is appended to the base as a text, and the joined text is read
anew. Whatever the target is, it does not move the end of the authority: the base ends with all that
it shows of its authority, or with a slash, and a slash follows.

## Main definitions

* `Target.parse_join`: scheme and authority of a joined text.
* `Target.resolve_origin`: the credential stays with the scheme, user, host and port of the base.
-/
namespace WebCall.Command.Target

open WebCall.Url

/-- A base and what is joined to it count alike up to slashes at the end of the base. What was
dropped behind the base stands in the joined text in front of a slash. -/
theorem clean_join (cs target : List Char) : ∃ front slashes outers,
    (∀ c ∈ slashes, c = '/') ∧ (∀ c ∈ outers, c.toNat ≤ 0x20) ∧ clean cs = front ++ slashes ∧
      clean (trimSlashesRight cs ++ '/' :: target) =
        front ++ (outers ++ '/' :: counted (target.rdropWhile isOuter)) := by
  have trimmed : trimSlashesRight cs = cs.rdropWhile (· == '/') := rfl
  have whole : cs.rdropWhile (· == '/') ++ cs.rtakeWhile (· == '/') = cs :=
    List.rdropWhile_append_rtakeWhile
  have joined (cs : List Char) : clean (cs ++ '/' :: target) =
      counted (cs.dropWhile isOuter) ++ '/' :: counted (target.rdropWhile isOuter) :=
    clean_append_cons rfl cs target
  rw [trimmed, joined]
  cases slashes : cs.rtakeWhile (· == '/') with
  | nil =>
    rw [slashes, List.append_nil] at whole
    rw [whole]
    let inner := cs.dropWhile isOuter
    refine ⟨counted (inner.rdropWhile isOuter), [], counted (inner.rtakeWhile isOuter), nofun,
      fun c hc => ?_, ?_, ?_⟩
    · have low : isOuter c = true := List.mem_rtakeWhile_imp (mem_of_mem_counted hc)
      exact of_decide_eq_true low
    · rw [clean_eq, List.append_nil]
    · rw [← List.append_assoc, ← counted_append, List.rdropWhile_append_rtakeWhile]
  | cons c slashes' =>
    have slash : ∀ d ∈ c :: slashes', d = '/' := by
      intro d hd
      rw [← slashes] at hd
      simpa using List.mem_rtakeWhile_imp hd
    obtain rfl := slash c List.mem_cons_self
    refine ⟨counted ((cs.rdropWhile (· == '/')).dropWhile isOuter),
      counted ('/' :: slashes'.rdropWhile isOuter), [], fun d hd => ?_, nofun, ?_, rfl⟩
    · rcases List.mem_cons.1 (mem_of_mem_counted hd) with rfl | later
      · rfl
      · exact slash d (List.mem_cons_of_mem _ ((List.rdropWhile_prefix _ _).subset later))
    · conv_lhs => rw [← whole, slashes]
      exact clean_append_cons rfl _ _

/-- What is joined to a base of the web has its scheme and its authority, if it is a URL. -/
theorem parse_join {base target : String} {b v : Url} (read : Url.parse base = .ok b)
    (web : IsWeb b.scheme) (joined : Url.parse (join base target) = .ok v) :
    v.scheme = b.scheme ∧ v.authority = b.authority := by
  obtain ⟨front, slashes, outers, slash, outer, counts, countsJoined⟩ :=
    clean_join base.toList (trimSlashesLeft target.toList)
  rw [Url.parse, join, String.toList_ofList] at joined
  obtain ⟨rest, a, left, start, authority, parts⟩ := (parseChars_eq_ok_iff web).1 read
  have plain : ':' ∉ slashes := fun colon => absurd (slash _ colon) (by decide)
  rw [counts] at start
  obtain ⟨shown, rfl, starts⟩ := scheme?_append_eq_some plain start
  rw [authorityText_append_slashes slash] at authority
  have schemes : v.scheme = b.scheme := by
    obtain ⟨rest', start'⟩ := scheme?_of_parseChars joined
    rw [countsJoined, starts, Option.some.injEq, Prod.mk.injEq] at start'
    exact start'.1.symm
  obtain ⟨rest', a', left', start', authority', parts'⟩ :=
    (parseChars_eq_ok_iff (schemes ▸ web)).1 joined
  rw [countsJoined, starts, Option.some.injEq, Prod.mk.injEq] at start'
  obtain ⟨-, rfl⟩ := start'
  rw [schemes] at authority'
  have same : a' = a := authority_unique web.special outer authority authority'
  rw [parts, parts', same]
  exact ⟨schemes, rfl⟩

/-- A credential goes to no other origin than that of the base. What a relative target is resolved
to has the scheme of the base, and its user name, password, host and port, whatever the target is. -/
theorem resolve_origin {base target u : String} {b : Url} (read : Url.parse base = .ok b)
    (web : IsWeb b.scheme) (relative : ∀ url, Url.parse target ≠ .ok url)
    (resolved : resolve (some base) target = .ok u) :
    ∃ v, Url.parse u = .ok v ∧ v.scheme = b.scheme ∧ v.authority = b.authority := by
  rw [resolve] at resolved
  split at resolved
  · next url absolute => exact absurd absolute (relative url)
  · simp only at resolved
    split at resolved
    · next v joined =>
      cases resolved
      obtain ⟨schemes, authorities⟩ := parse_join read web joined
      obtain ⟨w, again, scheme, authority⟩ := exists_parse_text joined (schemes ▸ web)
      exact ⟨w, again, scheme.trans schemes, authority.trans authorities⟩
    · cases resolved

/-- What looks like another host behind an at sign is a part of the path. -/
theorem resolve_origin_at_sign :
    let u := "https://user:pw@api.example.com:8443//@evil.example:1?q#f"
    resolve (some "https://user:pw@api.example.com:8443") "\\@evil.example:1?q#f" = .ok u ∧
      ∃ v, Url.parse u = .ok v ∧ v.scheme = "https".toList ∧
        v.authority = some ⟨"user".toList, "pw".toList, .name "api.example.com".toList, some 8443⟩ := by
  let b : Url := ⟨"https".toList,
    some ⟨"user".toList, "pw".toList, .name "api.example.com".toList, some 8443⟩,
    .rooted [[]], none, none⟩
  have read : Url.parse "https://user:pw@api.example.com:8443" = .ok b := by decide +kernel
  have relative : Url.parse "\\@evil.example:1?q#f" = .error .relative := by decide +kernel
  have resolved : resolve (some "https://user:pw@api.example.com:8443") "\\@evil.example:1?q#f" =
      .ok "https://user:pw@api.example.com:8443//@evil.example:1?q#f" := by decide +kernel
  exact ⟨resolved, resolve_origin read (by decide) (by simp [relative]) resolved⟩

end WebCall.Command.Target
