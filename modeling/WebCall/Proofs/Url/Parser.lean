import WebCall.Proofs.Url.Authority
import WebCall.Proofs.Url.Path

/-!
# Web URLs are read back

A URL of the web has the scheme `http` or `https`. Its scheme and its authority depend on the start
of its text alone, and they are read back from the text that the URL is written as.

## Main definitions

* `IsWeb`: the schemes of the web.
* `parseChars_eq_ok_iff`: what a URL of the web is.
* `exists_parse_text`: its scheme and its authority are read back.
-/
namespace WebCall.Url

/-- The schemes of the web. -/
def IsWeb (scheme : List Char) : Prop := scheme = "http".toList ∨ scheme = "https".toList

instance (scheme : List Char) : Decidable (IsWeb scheme) :=
  inferInstanceAs (Decidable (scheme = "http".toList ∨ scheme = "https".toList))

theorem IsWeb.special {scheme : List Char} (h : IsWeb scheme) : isSpecial scheme = true := by
  rcases h with rfl | rfl <;> decide

theorem IsWeb.ne_file {scheme : List Char} (h : IsWeb scheme) : scheme ≠ fileScheme := by
  rcases h with rfl | rfl <;> decide

variable {scheme cs rest : List Char} {u : Url}

/-! ## What is read -/

/-- What stands between the slashes after a scheme and the path. -/
def authorityText (rest : List Char) : List Char :=
  (rest.dropWhile isSlash).takeWhile fun c => !endsAuthority true c

/-- What follows the authority. -/
def pathText (rest : List Char) : List Char :=
  (rest.dropWhile isSlash).dropWhile fun c => !endsAuthority true c

/-- The URL that an authority makes with what follows it. -/
def ofParts (scheme : List Char) (a : Authority) (text : List Char) : Url :=
  let tail := cutTail true text
  ⟨scheme, some a, pathAfterAuthority true tail.1, tail.2.1, tail.2.2⟩

theorem readHierarchical_eq_ok_iff (special : isSpecial scheme = true) :
    readHierarchical scheme (rest.dropWhile isSlash) = .ok u ↔
      ∃ a left, readAuthority scheme (authorityText rest) (pathText rest).isEmpty = .ok (a, left) ∧
        u = ofParts scheme a (left ++ pathText rest) := by
  simp only [readHierarchical, special, bind, Except.bind, ofParts, authorityText, pathText]
  split
  · next e failed => simp [failed]
  · next r read =>
    obtain ⟨a, left⟩ := r
    simp [read, pure, Except.pure, eq_comm]

/-- A text with a scheme of the web is read as a URL of the web. -/
theorem parseChars_of_scheme? (web : IsWeb scheme) (h : scheme? (clean cs) = some (scheme, rest)) :
    parseChars cs = readHierarchical scheme (rest.dropWhile isSlash) := by
  rw [parseChars, h]
  simp only [web.ne_file, web.special, if_false, if_true]

theorem scheme_of_readHierarchical (h : readHierarchical scheme cs = .ok u) : u.scheme = scheme := by
  simp only [readHierarchical, bind, Except.bind] at h
  split at h
  · cases h
  · cases h
    rfl

theorem scheme_of_readOther (h : readOther scheme cs = .ok u) : u.scheme = scheme := by
  unfold readOther at h
  split at h
  · exact scheme_of_readHierarchical h
  · cases h
    split <;> rfl

theorem scheme_of_readFile (h : readFile cs = .ok u) : u.scheme = fileScheme := by
  simp only [readFile, bind, Except.bind, pure, Except.pure] at h
  repeat' split at h
  all_goals cases h <;> rfl

/-- The scheme of a URL is the one that its text begins with. -/
theorem scheme?_of_parseChars (h : parseChars cs = .ok u) :
    ∃ rest, scheme? (clean cs) = some (u.scheme, rest) := by
  rw [parseChars] at h
  cases start : scheme? (clean cs) with
  | none =>
    rw [start] at h
    cases h
  | some r =>
    obtain ⟨scheme, rest⟩ := r
    simp only [start] at h
    refine ⟨rest, ?_⟩
    split at h
    · next file => rw [scheme_of_readFile h, file]
    · split at h
      · rw [scheme_of_readHierarchical h]
      · rw [scheme_of_readOther h]

/-- A text is a URL of the web when it begins with such a scheme and what follows has an authority. -/
theorem parseChars_eq_ok_iff (web : IsWeb u.scheme) :
    parseChars cs = .ok u ↔ ∃ rest a left, scheme? (clean cs) = some (u.scheme, rest) ∧
      readAuthority u.scheme (authorityText rest) (pathText rest).isEmpty = .ok (a, left) ∧
        u = ofParts u.scheme a (left ++ pathText rest) := by
  constructor
  · intro h
    obtain ⟨rest, start⟩ := scheme?_of_parseChars h
    rw [parseChars_of_scheme? web start, readHierarchical_eq_ok_iff web.special] at h
    obtain ⟨a, left, h⟩ := h
    exact ⟨rest, a, left, start, h⟩
  · rintro ⟨rest, a, left, start, h⟩
    rw [parseChars_of_scheme? web start, readHierarchical_eq_ok_iff web.special]
    exact ⟨a, left, h⟩

/-! ## What is written -/

/-- What follows the authority in the text of a URL. -/
def tailText (u : Url) : List Char :=
  u.path.text ++ (u.query.map ('?' :: ·)).getD [] ++ (u.fragment.map ('#' :: ·)).getD []

theorem chars_ofParts (a : Authority) (text : List Char) :
    (ofParts scheme a text).chars =
      scheme ++ ':' :: '/' :: '/' :: (a.text ++ tailText (ofParts scheme a text)) := by
  simp [chars, ofParts, tailText, pathGuard, List.append_assoc]

/-- A URL of the web has a path with slashes. -/
theorem pathAfterAuthority_eq_rooted (cs : List Char) :
    ∃ segments, pathAfterAuthority true cs = .rooted segments ∧
      ∀ s ∈ segments, ∀ c ∈ s, 0x20 < c.toNat := by
  cases cs with
  | nil =>
    refine ⟨[[]], rfl, fun s hs => ?_⟩
    obtain rfl := List.mem_singleton.1 hs
    exact nofun
  | cons c cs => exact ⟨_, rfl, fun s hs => solid_of_mem_segmentsOf hs⟩

/-- Query and fragment are encoded. -/
theorem solid_of_mem_cutTail (cs : List Char) :
    (∀ q, (cutTail true cs).2.1 = some q → ∀ c ∈ q, 0x20 < c.toNat) ∧
      ∀ f, (cutTail true cs).2.2 = some f → ∀ c ∈ f, 0x20 < c.toNat := by
  have query (text : List Char) : ∀ c ∈ encode inSpecialQuerySet text, 0x20 < c.toNat := by
    refine solid_of_mem_encode (fun c control => ?_) (by decide)
    simp [inSpecialQuerySet, inQuerySet, control]
  have fragment (text : List Char) : ∀ c ∈ encode inFragmentSet text, 0x20 < c.toNat := by
    refine solid_of_mem_encode (fun c control => ?_) (by decide)
    simp [inFragmentSet, control]
  cases sharp : Text.splitFirst? '#' cs with
  | none =>
    cases mark : Text.splitFirst? '?' cs with
    | none => simp [cutTail, sharp, mark]
    | some m =>
      simp only [cutTail, sharp, mark]
      refine ⟨?_, fun _ none_ => (by cases none_)⟩
      rintro _ ⟨⟩
      exact query _
  | some r =>
    cases mark : Text.splitFirst? '?' r.1 with
    | none =>
      simp only [cutTail, sharp, mark]
      refine ⟨fun _ none_ => (by cases none_), ?_⟩
      rintro _ ⟨⟩
      exact fragment _
    | some m =>
      simp only [cutTail, sharp, mark]
      constructor
      · rintro _ ⟨⟩
        exact query _
      · rintro _ ⟨⟩
        exact fragment _

/-- No character after an authority is a blank or a control. -/
theorem solid_of_mem_tailText {a : Authority} {text : List Char} {c : Char}
    (h : c ∈ tailText (ofParts scheme a text)) : 0x20 < c.toNat := by
  obtain ⟨segments, path, solid⟩ := pathAfterAuthority_eq_rooted (cutTail true text).1
  obtain ⟨query, fragment⟩ := solid_of_mem_cutTail text
  simp only [tailText, ofParts, path, Path.text, List.mem_append, List.mem_flatMap,
    List.mem_cons] at h
  rcases h with (⟨s, hs, rfl | hc⟩ | h) | h
  · decide
  · exact solid s hs c hc
  · cases q : (cutTail true text).2.1 with
    | none => simp [q] at h
    | some q' =>
      rw [q, Option.map_some, Option.getD_some, List.mem_cons] at h
      rcases h with rfl | hc
      · decide
      · exact query q' q c hc
  · cases f : (cutTail true text).2.2 with
    | none => simp [f] at h
    | some f' =>
      rw [f, Option.map_some, Option.getD_some, List.mem_cons] at h
      rcases h with rfl | hc
      · decide
      · exact fragment f' f c hc

/-- What follows an authority ends it. -/
theorem takeWhile_append_tailText {front : List Char} (h : ∀ c ∈ front, endsAuthority true c = false)
    (a : Authority) (text : List Char) :
    (front ++ tailText (ofParts scheme a text)).takeWhile (fun c => !endsAuthority true c) =
      front := by
  have ends : (tailText (ofParts scheme a text)).takeWhile (fun c => !endsAuthority true c) = [] := by
    obtain ⟨segments, path, -⟩ := pathAfterAuthority_eq_rooted (cutTail true text).1
    rw [tailText, ofParts, path, Path.text]
    cases segments with
    | cons s segments => rfl
    | nil =>
      cases (cutTail true text).2.1 with
      | some q => rfl
      | none => cases (cutTail true text).2.2 <;> rfl
  rw [List.takeWhile_append_of_pos fun c hc => by simp [h c hc], ends, List.append_nil]

/-- A text without blanks and controls counts as it is. -/
theorem clean_eq_self (h : ∀ c ∈ cs, 0x20 < c.toNat) : clean cs = cs := by
  have inner {ds : List Char} (hd : ∀ c ∈ ds, 0x20 < c.toNat) : ds.dropWhile isOuter = ds := by
    cases ds with
    | nil => rfl
    | cons d ds =>
      have first : isOuter d = false := by
        have high := hd d List.mem_cons_self
        rw [isOuter, decide_eq_false_iff_not]
        omega
      rw [List.dropWhile_cons_of_neg (by simp [first])]
  have counts : ∀ c ∈ cs, (!isIgnored c) = true := by
    intro c hc
    have high := h c hc
    simp only [isIgnored, Bool.not_or, Bool.and_eq_true, Bool.not_eq_true',
      beq_eq_false_iff_ne]
    refine ⟨⟨?_, ?_⟩, ?_⟩ <;>
      · rintro rfl
        exact absurd high (by decide)
  rw [clean, inner h, inner fun c hc => h c (List.mem_reverse.1 hc), List.reverse_reverse]
  exact List.filter_eq_self.2 counts

section ReadBack

variable {a : Authority}

/-- No character of a URL of the web is a blank or a control. -/
theorem solid_of_mem_chars (web : IsWeb scheme) (normal : a.Normal scheme) {text : List Char} {c : Char}
    (hc : c ∈ (ofParts scheme a text).chars) : 0x20 < c.toNat := by
  have letters : ∀ c ∈ scheme, 0x20 < c.toNat := by rcases web with rfl | rfl <;> simp
  simp only [chars_ofParts, List.mem_append, List.mem_cons] at hc
  rcases hc with hc | rfl | rfl | rfl | hc | hc
  · exact letters c hc
  · decide
  · decide
  · decide
  · exact (Authority.solid_of_mem_text normal hc).1
  · exact solid_of_mem_tailText hc

/-- A scheme of the web is read back. -/
theorem IsWeb.scheme?_append_cons (web : IsWeb scheme) (rest : List Char) :
    scheme? (scheme ++ ':' :: rest) = some (scheme, rest) := by
  have name : ':' ∉ scheme ∧ scheme.all isSchemeChar = true ∧
      scheme.head?.any Text.isLetter = true ∧ scheme.map Text.lower = scheme := by
    rcases web with rfl | rfl <;> decide
  rw [scheme?, Text.splitFirst?_eq_some_iff.2 ⟨rfl, name.1⟩]
  simp [name]

/-- The text of an authority stands between the slashes and what follows it. -/
theorem authorityText_text (normal : a.Normal scheme) (text : List Char) :
    authorityText ('/' :: '/' :: (a.text ++ tailText (ofParts scheme a text))) = a.text := by
  have plain : ∀ c ∈ a.text, endsAuthority true c = false :=
    fun c hc => (Authority.solid_of_mem_text normal hc).2
  obtain ⟨c, cs, whole⟩ := List.exists_cons_of_ne_nil (Authority.text_ne_nil normal)
  have first : isSlash c = false := by
    have inside := plain c (by simp [whole])
    simp only [endsAuthority, Bool.or_eq_false_iff, Bool.true_and] at inside
    simp [isSlash, inside]
  have unslashed : ('/' :: '/' :: (a.text ++ tailText (ofParts scheme a text))).dropWhile isSlash =
      a.text ++ tailText (ofParts scheme a text) := by
    rw [List.dropWhile_cons_of_pos (by decide), List.dropWhile_cons_of_pos (by decide), whole,
      List.cons_append, List.dropWhile_cons_of_neg (by simp [first])]
  rw [authorityText, unslashed]
  exact takeWhile_append_tailText plain a text

end ReadBack

/-- Scheme and authority of a URL of the web are read back from its text. -/
theorem exists_parse_text (h : parseChars cs = .ok u) (web : IsWeb u.scheme) :
    ∃ v, parse u.text = .ok v ∧ v.scheme = u.scheme ∧ v.authority = u.authority := by
  obtain ⟨rest, a, left, -, read, parts⟩ := (parseChars_eq_ok_iff web).1 h
  have normal := normal_of_readAuthority web.special read
  let text := left ++ pathText rest
  let shown := '/' :: '/' :: (a.text ++ tailText (ofParts u.scheme a text))
  have written : u.chars = u.scheme ++ ':' :: shown := by
    conv_lhs => rw [parts]
    exact chars_ofParts a text
  have solid : ∀ c ∈ u.chars, 0x20 < c.toNat := by
    rw [parts]
    exact fun c hc => solid_of_mem_chars web normal hc
  have start : scheme? (clean u.chars) = some (u.scheme, shown) := by
    rw [clean_eq_self solid, written, web.scheme?_append_cons]
  refine ⟨ofParts u.scheme a ([] ++ pathText shown), ?_, rfl, ?_⟩
  · rw [parse, Url.text, String.toList_ofList]
    refine (parseChars_eq_ok_iff (u := ofParts u.scheme a _) web).2 ⟨shown, a, [], start, ?_, rfl⟩
    rw [authorityText_text normal text]
    exact readAuthority_text web.special normal
  · rw [parts]
    rfl

end WebCall.Url
