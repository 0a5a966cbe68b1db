import WebCall.Proofs.Url.Host
import WebCall.Url.Parser

/-!
# Authorities are read back

The authority of a special scheme is read back from its text: the encoding leaves no character in a
user name or password at which the text would be cut, and a host has none either. A blank or a
control at the end of an authority is never forgiven.

## Main definitions

* `Authority.Normal`: what can be read.
* `readAuthority_text`: an authority is read back.
* `readAuthority_append_ne_ok`: what cannot stand at the end.
-/
namespace WebCall.Url

/-- What stands before and after the last at sign. -/
def atParts (cs : List Char) : List Char × List Char := (cutAtLastAt? cs).getD ([], cs)

/-- The port of what follows the host. -/
def portOf (scheme : List Char) : Option (List Char) → Except UrlError (Option Nat × List Char)
  | some text => readPort scheme text
  | none => .ok (none, [])

variable {scheme cs left : List Char} {a : Authority} {isLast : Bool}

/-- How the authority of a special scheme is read. Whether the URL ends with it makes no
difference. -/
theorem readAuthority_eq_ok_iff (special : isSpecial scheme = true) :
    readAuthority scheme cs isLast = .ok (a, left) ↔
      (cutAtPort false (atParts cs).2).1 ≠ [] ∧
      userParts (atParts cs).1 = (a.username, a.password) ∧
      Host.ofSpecial (cutAtPort false (atParts cs).2).1 = .ok a.host ∧
      portOf scheme (cutAtPort false (atParts cs).2).2 = .ok (a.port, left) := by
  rcases parts : atParts cs with ⟨user, rest⟩
  rcases users : userParts user with ⟨username, password⟩
  rcases cut : cutAtPort false rest with ⟨hostText, portText⟩
  rw [atParts] at parts
  simp only [readAuthority, special, parts, users, cut, Bool.true_or, if_true, bind, Except.bind]
  cases hostText with
  | nil => simp [throw, throwThe, MonadExceptOf.throw]
  | cons c hostText =>
    cases host : Host.ofSpecial (c :: hostText) with
    | error e => simp
    | ok h =>
      obtain ⟨username', password', host', port'⟩ := a
      cases portText with
      | none => simp [portOf, pure, Except.pure, and_assoc]
      | some text =>
        cases port : readPort scheme text with
        | error e => simp [portOf, port]
        | ok r =>
          obtain ⟨p, rest⟩ := r
          simp [portOf, port, pure, Except.pure, and_assoc]

/-! ## Cuts -/

/-- The last at sign is the cut. -/
theorem atParts_append_cons {host : List Char} (h : '@' ∉ host) (user : List Char) :
    atParts (user ++ '@' :: host) = (user, host) := by
  have free : ∀ c ∈ host.reverse, (c != '@') = true := by
    intro c hc
    have other : c ≠ '@' := fun same => h (same ▸ List.mem_reverse.1 hc)
    simpa using other
  have tail : ((user ++ '@' :: host).reverse.takeWhile (· != '@')).reverse = host := by
    rw [List.reverse_append, List.reverse_cons, List.append_assoc,
      List.takeWhile_append_of_pos free]
    simp
  have front : (user ++ '@' :: host).length - host.length - 1 = user.length := by
    rw [List.length_append, List.length_cons]
    omega
  simp only [atParts, cutAtLastAt?, tail, front, List.take_left]
  simp

/-- Without an at sign there is no user. -/
theorem atParts_of_notMem (h : '@' ∉ cs) : atParts cs = ([], cs) := by
  rw [atParts, cutAtLastAt?, if_neg (by simpa using h)]
  rfl

/-- The last at sign of a text that has one. -/
theorem exists_eq_append_cons_at (h : '@' ∈ cs) :
    ∃ user host, cs = user ++ '@' :: host ∧ '@' ∉ host := by
  obtain ⟨host, user, cut, last⟩ := List.eq_append_cons_of_mem (List.mem_reverse.2 h)
  refine ⟨user.reverse, host.reverse, ?_, by simpa using last⟩
  have back := congrArg List.reverse cut
  simpa using back

/-- What follows without an at sign belongs to the host. -/
theorem atParts_append {tail : List Char} (h : '@' ∉ tail) (cs : List Char) :
    atParts (cs ++ tail) = ((atParts cs).1, (atParts cs).2 ++ tail) := by
  by_cases sign : '@' ∈ cs
  · obtain ⟨user, host, rfl, last⟩ := exists_eq_append_cons_at sign
    have later : '@' ∉ host ++ tail := by
      simpa using ⟨last, h⟩
    rw [List.append_assoc, List.cons_append, atParts_append_cons later, atParts_append_cons last]
  · have none_ : '@' ∉ cs ++ tail := by
      simpa using ⟨sign, h⟩
    rw [atParts_of_notMem none_, atParts_of_notMem sign]

theorem atParts_suffix (cs : List Char) : (atParts cs).2 <:+ cs := by
  by_cases sign : '@' ∈ cs
  · obtain ⟨user, host, rfl, last⟩ := exists_eq_append_cons_at sign
    rw [atParts_append_cons last]
    exact (List.suffix_cons '@' host).trans (List.suffix_append user _)
  · simp [atParts_of_notMem sign]

theorem cutAtPort_cons {c : Char} {inside : Bool} (h : c = ':' → inside = true) (rest : List Char) :
    cutAtPort inside (c :: rest) =
      let r := cutAtPort (c == '[' || (inside && c != ']')) rest
      (c :: r.1, r.2) := by
  rw [cutAtPort, if_neg]
  rintro ⟨colon, outside⟩
  rw [h colon] at outside
  cases outside

/-- A host without colons and brackets goes up to what follows. -/
theorem cutAtPort_append_of_plain {host : List Char} (h : ∀ c ∈ host, c ≠ ':' ∧ c ≠ '[')
    (tail : List Char) :
    cutAtPort false (host ++ tail) =
      (host ++ (cutAtPort false tail).1, (cutAtPort false tail).2) := by
  induction host with
  | nil => rfl
  | cons c host ih =>
    obtain ⟨colon, bracket⟩ := h c List.mem_cons_self
    have outside : (c == '[' || (false && c != ']')) = false := by simp [bracket]
    rw [List.cons_append, cutAtPort_cons fun same => absurd same colon, outside,
      ih fun d hd => h d (List.mem_cons_of_mem c hd)]
    rfl

/-- Colons between brackets are no cuts. -/
theorem cutAtPort_append_of_inside {host : List Char} (h : ']' ∉ host) (tail : List Char) :
    cutAtPort true (host ++ tail) =
      (host ++ (cutAtPort true tail).1, (cutAtPort true tail).2) := by
  induction host with
  | nil => rfl
  | cons c host ih =>
    rw [List.mem_cons, not_or] at h
    have inside : (c == '[' || (true && c != ']')) = true := by simp [Ne.symm h.1]
    rw [List.cons_append, cutAtPort_cons fun _ => rfl, inside, ih h.2]
    rfl

/-- The text of a host goes up to the port. -/
theorem cutAtPort_text_append {h : Host} (normal : h.Normal) (tail : List Char) :
    cutAtPort false (h.text ++ tail) =
      (h.text ++ (cutAtPort false tail).1, (cutAtPort false tail).2) := by
  cases h with
  | name text =>
    refine cutAtPort_append_of_plain (fun c hc => ?_) tail
    obtain ⟨-, -, -, allowed, -⟩ := Host.domain?_eq_some_iff.1 normal.2.1
    have plain := (Host.plain_of_allowed (allowed c hc)).2.2
    constructor <;>
      · rintro rfl
        simp at plain
  | ipv4 address =>
    refine cutAtPort_append_of_plain (fun c hc => ?_) tail
    rcases of_mem_ipv4Text hc with rfl | h
    · decide
    · exact Text.of_isDigit h (by decide)
  | ipv6 pieces =>
    have unclosed : ']' ∉ (ipv6Text pieces).toList := by
      intro hc
      rcases of_mem_ipv6Text hc with h | h
      · cases h
      · exact absurd h (by decide)
    have inner := cutAtPort_append_of_inside unclosed (']' :: tail)
    rw [Host.text, List.append_assoc, List.cons_append, List.singleton_append,
      cutAtPort_cons (by decide)]
    simp only [beq_self_eq_true, Bool.true_or]
    rw [inner, cutAtPort_cons (by decide)]
    simp

/-- Without a colon there is no port. -/
theorem cutAtPort_of_notMem (h : ':' ∉ cs) (inside : Bool) : cutAtPort inside cs = (cs, none) := by
  induction cs generalizing inside with
  | nil => rfl
  | cons c cs ih =>
    rw [List.mem_cons, not_or] at h
    rw [cutAtPort_cons fun same => absurd same.symm h.1, ih h.2]

/-- What follows without a colon belongs to the port, or to the host if there is none. -/
theorem cutAtPort_append {tail : List Char} (h : ':' ∉ tail) (inside : Bool) (cs : List Char) :
    cutAtPort inside (cs ++ tail) =
      match (cutAtPort inside cs).2 with
      | none => ((cutAtPort inside cs).1 ++ tail, none)
      | some port => ((cutAtPort inside cs).1, some (port ++ tail)) := by
  induction cs generalizing inside with
  | nil => exact cutAtPort_of_notMem h inside
  | cons c cs ih =>
    by_cases cut : c = ':' ∧ !inside
    · simp only [List.cons_append, cutAtPort, cut, and_self, if_true]
    · simp only [List.cons_append, cutAtPort, cut, if_false, ih]
      cases (cutAtPort (c == '[' || inside && c != ']') cs).2 <;> rfl

theorem cutAtPort_suffix {inside : Bool} {port : List Char}
    (h : (cutAtPort inside cs).2 = some port) : port <:+ cs := by
  induction cs generalizing inside with
  | nil => cases h
  | cons c cs ih =>
    rw [cutAtPort] at h
    split at h
    · cases h
      exact List.suffix_cons c _
    · exact (ih h).trans (List.suffix_cons c cs)

/-! ## Parts in normal form -/

/-- What can be read as the authority of a special scheme. -/
structure Authority.Normal (scheme : List Char) (a : Authority) : Prop where
  username : ∀ c ∈ a.username, inUserSet c = false
  password : ∀ c ∈ a.password, inUserSet c = false
  host : a.host.Normal
  port : ∀ n, a.port = some n → n ≤ 65535 ∧ defaultPort? scheme ≠ some n

/-- Where an encoded character of a user name or password can be. -/
theorem plain_of_not_inUserSet {c : Char} (h : inUserSet c = false) :
    0x20 < c.toNat ∧ c ∉ ['#', '/', ':', '?', '@', '\\'] := by
  simp only [inUserSet, inPathSet, inFragmentSet, isControl, Bool.or_eq_false_iff,
    decide_eq_false_iff_not, List.contains_eq_mem, List.mem_cons, List.not_mem_nil, or_false,
    not_or] at h ⊢
  have blank : c.toNat ≠ ' '.toNat := fun same => h.1.1.2.1 (Char.toNat_inj.1 same)
  have space : ' '.toNat = 0x20 := rfl
  exact ⟨by omega, by grind⟩

theorem not_inUserSet_of_mem_encode : ∀ c ∈ encode inUserSet cs, inUserSet c = false :=
  forall_mem_encode (by decide) (by decide) fun _ _ outside => outside

theorem not_inUserSet_of_mem_userParts (cs : List Char) :
    (∀ c ∈ (userParts cs).1, inUserSet c = false) ∧ ∀ c ∈ (userParts cs).2, inUserSet c = false := by
  rw [userParts]
  split
  · exact ⟨not_inUserSet_of_mem_encode, not_inUserSet_of_mem_encode⟩
  · exact ⟨not_inUserSet_of_mem_encode, nofun⟩

/-- The user name and password in front of the at sign. -/
def Authority.userText (a : Authority) : List Char :=
  a.username ++ if a.password.isEmpty then [] else ':' :: a.password

/-- The colon and the port. -/
def Authority.portText (a : Authority) : List Char :=
  match a.port with
  | some n => ':' :: Nat.toDigits 10 n
  | none => []

theorem Authority.text_eq (a : Authority) :
    a.text = (if a.userText.isEmpty then [] else a.userText ++ ['@']) ++ (a.host.text ++ a.portText) := by
  rw [Authority.text, List.append_assoc]
  rfl

/-- User name and password are read back. -/
theorem Authority.userParts_userText (normal : a.Normal scheme) :
    userParts a.userText = (a.username, a.password) := by
  have colon : ':' ∉ a.username := fun hc => absurd (normal.username _ hc) (by decide)
  have username := encode_eq_self normal.username
  by_cases open_ : a.password = []
  · have whole : a.userText = a.username := by simp [Authority.userText, open_]
    rw [whole, userParts, Text.splitFirst?_eq_none colon]
    simp only [username, open_]
  · have both : a.userText = a.username ++ ':' :: a.password := by
      simp [Authority.userText, open_]
    rw [both, userParts, Text.splitFirst?_eq_some_iff.2 ⟨rfl, colon⟩]
    simp only [username, encode_eq_self normal.password]

theorem Authority.of_mem_portText {c : Char} (h : c ∈ a.portText) :
    c = ':' ∨ Text.isDigit c = true := by
  rw [Authority.portText] at h
  split at h
  · rcases List.mem_cons.1 h with colon | digit
    · exact .inl colon
    · exact .inr (Text.isDigit_of_mem_toDigits digit)
  · cases h

theorem readPort_toDigits {n : Nat} (small : n ≤ 65535) (other : defaultPort? scheme ≠ some n) :
    readPort scheme (Nat.toDigits 10 n) = .ok (some n, []) := by
  have digits : (Nat.toDigits 10 n).takeWhile Text.isDigit = Nat.toDigits 10 n :=
    List.takeWhile_eq_self_iff.2 fun c hc => Text.isDigit_of_mem_toDigits hc
  have value : Text.ofDigits 10 (Nat.toDigits 10 n) = n :=
    Text.ofDigits_toDigits (by omega) (by omega) n
  have fits : ¬ 65535 < n := by omega
  simp [readPort, digits, value, fits, other]

/-- No port ends with anything but a digit, where there are no backslashes. -/
theorem readPort_ne_ok_of_mem {text : List Char} (unslashed : '\\' ∉ text) {c : Char} (mem : c ∈ text)
    (other : Text.isDigit c = false) {r : Option Nat × List Char} :
    readPort scheme text ≠ .ok r := by
  intro read
  have rest : text.drop (text.takeWhile Text.isDigit).length = text.dropWhile Text.isDigit := by
    have whole : text.takeWhile Text.isDigit ++ text.dropWhile Text.isDigit = text :=
      List.takeWhile_append_dropWhile
    have cut : (text.takeWhile Text.isDigit ++ text.dropWhile Text.isDigit).drop
        (text.takeWhile Text.isDigit).length = text.dropWhile Text.isDigit := List.drop_left
    rwa [whole] at cut
  have some_ : text.dropWhile Text.isDigit ≠ [] := by
    intro none_
    rw [List.dropWhile_eq_nil_iff.1 none_ c mem] at other
    cases other
  have first : (text.dropWhile Text.isDigit).head? ≠ some '\\' := fun slash =>
    unslashed ((List.dropWhile_sublist _).subset (List.mem_of_head? slash))
  simp only [readPort, rest] at read
  rw [if_pos] at read
  · cases read
  · simp [some_, first]

theorem lt_of_readPort {text : List Char} {n : Nat} (h : readPort scheme text = .ok (some n, left)) :
    n ≤ 65535 ∧ defaultPort? scheme ≠ some n := by
  simp only [readPort] at h
  split at h
  · cases h
  · next fits =>
    rw [Except.ok.injEq, Prod.mk.injEq, Option.ite_none_left_eq_some] at h
    obtain ⟨⟨other, value⟩, -⟩ := h
    rw [Option.some.injEq] at value
    rw [value] at fits other
    simp only [Bool.or_eq_true, beq_iff_eq, not_or] at fits other
    exact ⟨by omega, other.2⟩

/-- What is read is in normal form. -/
theorem normal_of_readAuthority (special : isSpecial scheme = true)
    (read : readAuthority scheme cs isLast = .ok (a, left)) : a.Normal scheme := by
  obtain ⟨-, user, host, port⟩ := (readAuthority_eq_ok_iff special).1 read
  have encoded := not_inUserSet_of_mem_userParts (atParts cs).1
  rw [user] at encoded
  refine ⟨encoded.1, encoded.2, Host.normal_of_ofSpecial host, fun n hn => ?_⟩
  rw [hn] at port
  cases text : (cutAtPort false (atParts cs).2).2 with
  | none => simp [text, portOf] at port
  | some t =>
    rw [text] at port
    exact lt_of_readPort port

/-- An authority in normal form is read back from its text. -/
theorem readAuthority_text (special : isSpecial scheme = true) (normal : a.Normal scheme) :
    readAuthority scheme a.text isLast = .ok (a, []) := by
  have unsigned : '@' ∉ a.host.text ++ a.portText := by
    intro hc
    rcases List.mem_append.1 hc with hc | hc
    · simpa using (Host.solid_of_mem_text normal.host hc).2
    · rcases Authority.of_mem_portText hc with h | h
      · cases h
      · exact absurd h (by decide)
  have parts : atParts a.text = (a.userText, a.host.text ++ a.portText) := by
    rw [Authority.text_eq]
    by_cases anonymous : a.userText = []
    · rw [anonymous]
      exact atParts_of_notMem unsigned
    · rw [if_neg (by simpa using anonymous), List.append_assoc, List.singleton_append]
      exact atParts_append_cons unsigned _
  have cut := cutAtPort_text_append normal.host a.portText
  rw [readAuthority_eq_ok_iff special, parts, Authority.userParts_userText normal, cut]
  cases port : a.port with
  | none =>
    have none_ : a.portText = [] := by rw [Authority.portText, port]
    rw [none_]
    refine ⟨?_, rfl, ?_, rfl⟩
    · simpa [cutAtPort] using Host.text_ne_nil normal.host
    · simpa [cutAtPort] using Host.ofSpecial_text normal.host
  | some n =>
    obtain ⟨small, other⟩ := normal.port n port
    have some_ : a.portText = ':' :: Nat.toDigits 10 n := by rw [Authority.portText, port]
    rw [some_]
    refine ⟨?_, rfl, ?_, ?_⟩
    · simpa [cutAtPort] using Host.text_ne_nil normal.host
    · simpa [cutAtPort] using Host.ofSpecial_text normal.host
    · simpa [cutAtPort, portOf] using readPort_toDigits small other

/-- No authority ends with a blank or a control. -/
theorem readAuthority_append_ne_ok (special : isSpecial scheme = true) (unslashed : '\\' ∉ cs)
    {c : Char} {after : List Char} (outer : c.toNat ≤ 0x20) (outers : ∀ d ∈ after, d.toNat ≤ 0x20) :
    readAuthority scheme (cs ++ c :: after) isLast ≠ .ok (a, left) := by
  intro read
  have solid {d : Char} (high : 0x20 < d.toNat) : d ∉ c :: after := by
    intro hd
    rcases List.mem_cons.1 hd with rfl | later
    · omega
    · have low := outers d later
      omega
  obtain ⟨-, -, host, port⟩ := (readAuthority_eq_ok_iff special).1 read
  rw [atParts_append (solid (by decide)), cutAtPort_append (solid (by decide))] at host port
  cases text : (cutAtPort false (atParts cs).2).2 with
  | none =>
    rw [text] at host
    exact Host.ofSpecial_append_ne_ok outer outers _ _ host
  | some t =>
    rw [text] at port
    have inner : '\\' ∉ t := fun hc =>
      unslashed ((cutAtPort_suffix text).trans (atParts_suffix cs) |>.subset hc)
    have other : Text.isDigit c = false := by
      by_contra digit
      rw [Bool.not_eq_false, Text.isDigit_iff] at digit
      omega
    have unslashed' : '\\' ∉ t ++ c :: after := by
      rw [List.mem_append, not_or]
      exact ⟨inner, solid (by decide)⟩
    exact readPort_ne_ok_of_mem unslashed' (by simp) other port

/-! ## Characters -/

theorem endsAuthority_eq_false {c : Char} (h : c ∉ ['#', '/', '?', '\\']) :
    endsAuthority true c = false := by
  simp only [List.mem_cons, List.not_mem_nil, or_false, not_or] at h
  simp [endsAuthority, h]

/-- No character of an authority ends it. -/
theorem Authority.solid_of_mem_text (normal : a.Normal scheme) {c : Char} (hc : c ∈ a.text) :
    0x20 < c.toNat ∧ endsAuthority true c = false := by
  have encoded (h : inUserSet c = false) : 0x20 < c.toNat ∧ endsAuthority true c = false := by
    have plain := plain_of_not_inUserSet h
    exact ⟨plain.1, endsAuthority_eq_false (by grind)⟩
  have user (h : c ∈ a.userText) : 0x20 < c.toNat ∧ endsAuthority true c = false := by
    rw [Authority.userText, List.mem_append] at h
    rcases h with h | h
    · exact encoded (normal.username c h)
    · split at h
      · cases h
      · rcases List.mem_cons.1 h with rfl | h
        · decide
        · exact encoded (normal.password c h)
  rw [Authority.text_eq, List.mem_append, List.mem_append] at hc
  rcases hc with hc | hc | hc
  · split at hc
    · cases hc
    · rcases List.mem_append.1 hc with hc | hc
      · exact user hc
      · obtain rfl := List.mem_singleton.1 hc
        decide
  · have plain := Host.solid_of_mem_text normal.host hc
    exact ⟨plain.1, endsAuthority_eq_false (by grind)⟩
  · rcases Authority.of_mem_portText hc with rfl | h
    · decide
    · exact Text.of_isDigit h (by decide)

/-- An authority has characters. -/
theorem Authority.text_ne_nil (normal : a.Normal scheme) : a.text ≠ [] := by
  rw [Authority.text_eq]
  simp [Host.text_ne_nil normal.host]

end WebCall.Url
