/-!
# Result cells

A cell takes one result and hands it to the one who waits for it. Storing a result takes two steps,
first the flag that says the cell is resolved and then the value, so that there is a moment when the
cell is resolved and still empty. Waiting goes in rounds; in each the waiter takes the value if it
is there, and gives up if its token is set.

## Main definitions

* `ResultCell.swap`, `ResultCell.store`: the two steps of storing a result.
* `ResultCell.resolve`: both steps, with nothing in between.
* `ResultCell.round`: one round of waiting.
-/
namespace WebCall

/-- A cell for one result. -/
structure ResultCell (α : Type) where
  /-- Whether someone has come to resolve the cell. It is never unset. -/
  resolved : Bool := false
  /-- The result, from its storing to its taking. -/
  slot : Option α := none
  deriving DecidableEq, Repr, Inhabited

/-- What a round of waiting comes to. -/
inductive Wait (α : Type)
  /-- The result was taken. -/
  | value (result : α)
  /-- The token is set and there is no result. -/
  | cancelled
  /-- There is neither, and the waiter goes on waiting. -/
  | blocked
  deriving DecidableEq, Repr

namespace ResultCell

variable {α : Type}

/-- The first step of storing: sets the flag and returns what it was before. -/
def swap (c : ResultCell α) : Bool × ResultCell α := (c.resolved, { c with resolved := true })

/-- The second step of storing, for the one who found the flag unset. -/
def store (c : ResultCell α) (result : α) : ResultCell α := { c with slot := some result }

/-- Stores a result. The answer is `false` when the cell was resolved before, and then the new
result is dropped. -/
def resolve (c : ResultCell α) (result : α) : Bool × ResultCell α :=
  let first := c.swap
  if first.1 then (false, first.2) else (true, first.2.store result)

/-- One round of waiting with a token. A result that is there wins over a token that is set. -/
def round (c : ResultCell α) (cancelled : Bool) : Wait α × ResultCell α :=
  match c.slot with
  | some result => (.value result, { c with slot := none })
  | none => (if cancelled then .cancelled else .blocked, c)

@[simp] theorem resolved_swap (c : ResultCell α) : c.swap.2.resolved = true := rfl

@[simp] theorem slot_swap (c : ResultCell α) : c.swap.2.slot = c.slot := rfl

@[simp] theorem resolved_round (c : ResultCell α) (cancelled : Bool) :
    (c.round cancelled).2.resolved = c.resolved := by
  unfold round; split <;> rfl

@[simp] theorem resolved_resolve (c : ResultCell α) (result : α) :
    (c.resolve result).2.resolved = true := by
  unfold resolve; dsimp only; split <;> rfl

/-- The first result is stored. -/
theorem resolve_of_unresolved {c : ResultCell α} (h : c.resolved = false) (result : α) :
    c.resolve result = (true, ⟨true, some result⟩) := by
  simp [resolve, swap, store, h]

/-- A further result changes nothing. -/
theorem resolve_of_resolved {c : ResultCell α} (h : c.resolved = true) (result : α) :
    c.resolve result = (false, c) := by
  cases c
  simp_all [resolve, swap]

theorem round_of_slot_eq_some {c : ResultCell α} {result : α} (h : c.slot = some result)
    (cancelled : Bool) : c.round cancelled = (.value result, { c with slot := none }) := by
  simp [round, h]

theorem round_of_slot_eq_none {c : ResultCell α} (h : c.slot = none) (cancelled : Bool) :
    c.round cancelled = (if cancelled then .cancelled else .blocked, c) := by
  simp [round, h]

end ResultCell

/-- A cell and the token of its waiter. -/
structure WatchedCell (α : Type) where
  /-- The cell. -/
  cell : ResultCell α := {}
  /-- Whether the token is set. -/
  cancelled : Bool := false
  deriving DecidableEq, Repr, Inhabited

namespace WatchedCell

variable {α : Type}

/-- What others do to a cell or its token. -/
inductive Act (α : Type)
  /-- Store a result. -/
  | resolve (result : α)
  /-- Set the token. -/
  | cancel

/-- Does an act; the answer is that of `ResultCell.resolve`, and `true` for setting the token. -/
def act (w : WatchedCell α) : Act α → Bool × WatchedCell α
  | .resolve result =>
    let r := w.cell.resolve result
    (r.1, { w with cell := r.2 })
  | .cancel => (true, { w with cancelled := true })

/-- A round of waiting. -/
def wait (w : WatchedCell α) : Wait α × WatchedCell α :=
  let r := w.cell.round w.cancelled
  (r.1, { w with cell := r.2 })

/-- Waits while another thread is about to do an act. A result that is there already is taken before
the act, unless the token is set: then the act comes first. -/
def waitBeside (w : WatchedCell α) (a : Act α) : Wait α × WatchedCell α :=
  match w.cancelled, w.wait with
  | false, (.value result, after) => (.value result, (after.act a).2)
  | _, _ => (w.act a).2.wait

end WatchedCell

end WebCall
