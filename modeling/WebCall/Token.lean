/-!
# Cancellation tokens

A token is a flag that several users share. Once set it stays set. `Tokens` holds the flags of all
tokens; a copy of a token is the same number once more.
-/
namespace WebCall

/-- Names a token. -/
abbrev TokenId := Nat

/-- The flags of all tokens made so far; the token of number `i` has the flag at place `i`. -/
structure Tokens where
  /-- The flags in the order of the tokens' making. -/
  flags : List Bool := []
  deriving DecidableEq, Repr, Inhabited

namespace Tokens

/-- Makes a new token that is not set. -/
def create (t : Tokens) : TokenId × Tokens := (t.flags.length, ⟨t.flags ++ [false]⟩)

/-- Sets a token. -/
def cancel (t : Tokens) (id : TokenId) : Tokens := ⟨t.flags.set id true⟩

/-- Sets a token if the condition holds. -/
def cancelIf (t : Tokens) (id : TokenId) (condition : Bool) : Tokens :=
  if condition then t.cancel id else t

/-- Whether a token is set. -/
def isCancelled (t : Tokens) (id : TokenId) : Bool := t.flags.getD id false

/-- Whether a token was made. -/
def Made (t : Tokens) (id : TokenId) : Prop := id < t.flags.length

instance (t : Tokens) (id : TokenId) : Decidable (t.Made id) :=
  inferInstanceAs (Decidable (id < t.flags.length))

/-- No token is ever unset. -/
theorem isCancelled_cancel_of_isCancelled {t : Tokens} {i j : TokenId}
    (h : t.isCancelled i = true) : (t.cancel j).isCancelled i = true := by
  simp only [isCancelled, cancel, List.getD_eq_getElem?_getD, List.getElem?_set] at *
  grind

theorem isCancelled_cancelIf_of_isCancelled {t : Tokens} {i j : TokenId} {b : Bool}
    (h : t.isCancelled i = true) : (t.cancelIf j b).isCancelled i = true := by
  unfold cancelIf
  split
  · exact isCancelled_cancel_of_isCancelled h
  · exact h

/-- Setting a token sets it. -/
theorem isCancelled_cancel_self {t : Tokens} {i : TokenId} (h : t.Made i) :
    (t.cancel i).isCancelled i = true := by
  unfold Made at h
  simp [isCancelled, cancel, h]

theorem isCancelled_cancelIf_self {t : Tokens} {i : TokenId} (h : t.Made i) (b : Bool) :
    (t.cancelIf i b).isCancelled i = (b || t.isCancelled i) := by
  cases b
  · rfl
  · simp [cancelIf, isCancelled_cancel_self h]

@[simp] theorem cancelIf_false (t : Tokens) (i : TokenId) : t.cancelIf i false = t := rfl

/-- Setting a token twice is setting it once. -/
theorem cancelIf_cancelIf (t : Tokens) (i : TokenId) (p q : Bool) :
    (t.cancelIf i p).cancelIf i q = t.cancelIf i (p || q) := by
  cases p <;> cases q <;> simp [cancelIf, cancel]

@[simp] theorem made_cancel {t : Tokens} {i j : TokenId} : (t.cancel j).Made i ↔ t.Made i := by
  simp [Made, cancel]

@[simp] theorem made_cancelIf {t : Tokens} {i j : TokenId} {b : Bool} :
    (t.cancelIf j b).Made i ↔ t.Made i := by
  cases b <;> simp [cancelIf]

@[simp] theorem made_create (t : Tokens) : t.create.2.Made t.create.1 := by
  simp [Made, create]

/-- Only a token that was made can be set. -/
theorem made_of_isCancelled {t : Tokens} {i : TokenId} (h : t.isCancelled i = true) : t.Made i := by
  refine Nat.lt_of_not_le fun outside => ?_
  simp [isCancelled, outside] at h

/-- Making a token leaves the others as they are. -/
theorem isCancelled_create_of_isCancelled {t : Tokens} {i : TokenId}
    (h : t.isCancelled i = true) : t.create.2.isCancelled i = true := by
  have inside : i < t.flags.length := made_of_isCancelled h
  rw [isCancelled, List.getD_eq_getElem?_getD] at h
  rw [isCancelled, create, List.getD_eq_getElem?_getD, List.getElem?_append_left inside, h]

/-- A new token is not set. -/
@[simp] theorem isCancelled_create (t : Tokens) : t.create.2.isCancelled t.create.1 = false := by
  simp [isCancelled, create]

end Tokens

end WebCall
