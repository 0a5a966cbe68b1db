/-!
# ASCII letters, digits and separators

Names of header fields, methods and schemes are compared without regard to the case of the ASCII
letters, and of no others. Digits stand for numbers in a base, and counts below 2^64 are written in
decimal ones. The module also holds the cut of a text at its first separator, and at all of them.
-/
namespace WebCall.Text

/-- The lower-case form of an ASCII capital; every other character stands for itself. -/
def lower (c : Char) : Char := if 'A' ≤ c ∧ c ≤ 'Z' then Char.ofNat (c.toNat + 32) else c

/-- The capital of an ASCII small letter; every other character stands for itself. -/
def upper (c : Char) : Char := if 'a' ≤ c ∧ c ≤ 'z' then Char.ofNat (c.toNat - 32) else c

/-- A text with its small ASCII letters made capital. -/
def upperAll (s : String) : String := .ofList (s.toList.map upper)

/-- Two texts are the same name when they differ at most in the case of ASCII letters. -/
def sameName (a b : String) : Bool := a.toList.map lower == b.toList.map lower

@[simp] theorem sameName_self (a : String) : sameName a a = true := by simp [sameName]

theorem sameName_comm (a b : String) : sameName a b = sameName b a := by
  simp [sameName, Bool.beq_comm]

theorem sameName_eq_true_iff {a b : String} :
    sameName a b = true ↔ a.toList.map lower = b.toList.map lower := by
  simp [sameName]

/-- Spellings of one name agree on which other texts are the same name. -/
theorem sameName_congr_left {a b : String} (h : sameName a b = true) (c : String) :
    sameName a c = sameName b c := by
  rw [sameName_eq_true_iff] at h
  rw [sameName, sameName, h]

/-- A decimal digit of ASCII. -/
def isDigit (c : Char) : Bool := '0' ≤ c && c ≤ '9'

/-- A letter of ASCII. -/
def isLetter (c : Char) : Bool := ('a' ≤ c && c ≤ 'z') || ('A' ≤ c && c ≤ 'Z')

/-- What a digit of base 36 or less stands for; letters of both cases are digits from ten on. -/
def digitValue? (c : Char) : Option Nat :=
  if '0' ≤ c ∧ c ≤ '9' then some (c.toNat - 48)
  else if 'a' ≤ c ∧ c ≤ 'z' then some (c.toNat - 87)
  else if 'A' ≤ c ∧ c ≤ 'Z' then some (c.toNat - 55)
  else none

/-- Whether a character is a digit of the given base. -/
def isDigitOf (base : Nat) (c : Char) : Bool := (digitValue? c).any (· < base)

/-- The number that digits stand for in a base; a character that is no digit counts as zero. -/
def ofDigits (base : Nat) (cs : List Char) : Nat :=
  cs.foldl (fun n c => n * base + (digitValue? c).getD 0) 0

/-- What follows an optional plus sign. -/
def withoutPlus : List Char → List Char
  | '+' :: digits => digits
  | digits => digits

/-- A count below 2^64: an optional plus sign and one or more decimal digits, with any number of
leading zeros. -/
def count? (cs : List Char) : Option Nat :=
  let digits := withoutPlus cs
  if digits.isEmpty || !digits.all isDigit then none
  else
    let n := ofDigits 10 digits
    if n < Nat.pow 2 64 then some n else none

/-- The parts before and after the first `sep`, which is in neither; `none` without one. -/
def splitFirst? (sep : Char) : List Char → Option (List Char × List Char)
  | [] => none
  | c :: cs =>
    if c = sep then some ([], cs)
    else (splitFirst? sep cs).map fun p => (c :: p.1, p.2)

/-- The cut at the first separator loses nothing, and the first part holds no separator. -/
theorem splitFirst?_eq_some_iff {sep : Char} {cs a b : List Char} :
    splitFirst? sep cs = some (a, b) ↔ cs = a ++ sep :: b ∧ sep ∉ a := by
  induction cs generalizing a with
  | nil => simp [splitFirst?]
  | cons c cs ih =>
    by_cases h : c = sep
    · subst h
      cases a with
      | nil => simp [splitFirst?, eq_comm]
      | cons d a =>
        simp only [splitFirst?, if_true, Option.some.injEq, Prod.mk.injEq, List.cons_append,
          List.cons.injEq, List.mem_cons, not_or]
        constructor
        · rintro ⟨h, -⟩; cases h
        · rintro ⟨⟨rfl, -⟩, h, -⟩; exact absurd rfl h
    · cases a with
      | nil =>
        simp only [splitFirst?, if_neg h, Option.map_eq_some_iff, Prod.mk.injEq, List.nil_append,
          List.cons.injEq]
        constructor
        · rintro ⟨_, _, h, _⟩; cases h
        · rintro ⟨⟨rfl, -⟩, -⟩; exact absurd rfl h
      | cons d a =>
        simp only [splitFirst?, if_neg h, Option.map_eq_some_iff, Prod.mk.injEq, List.cons_append,
          List.cons.injEq, List.mem_cons, not_or]
        constructor
        · rintro ⟨⟨p, q⟩, hp, ⟨rfl, rfl⟩, rfl⟩
          obtain ⟨rfl, hn⟩ := ih.1 hp
          exact ⟨⟨rfl, rfl⟩, fun e => h e.symm, hn⟩
        · rintro ⟨⟨rfl, rfl⟩, -, hn⟩
          exact ⟨(a, b), ih.2 ⟨rfl, hn⟩, ⟨rfl, rfl⟩, rfl⟩

/-- Whether `needle` stands somewhere in `hay`. -/
def contains (hay needle : List Char) : Bool :=
  needle.isPrefixOf hay || match hay with
    | [] => false
    | _ :: rest => contains rest needle

/-- The pieces of a text between separators; there is always one more piece than separators. -/
def pieces (sep : Char) : List Char → List (List Char)
  | [] => [[]]
  | c :: cs =>
    if c = sep then [] :: pieces sep cs
    else match pieces sep cs with
      | [] => [[c]]
      | p :: ps => (c :: p) :: ps

end WebCall.Text
