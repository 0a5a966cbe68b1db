/-!
# Durations

Lengths of time with the precision of a nanosecond.
-/
namespace WebCall

/-- A length of time, counted in nanoseconds. -/
structure Duration where
  /-- The whole duration in nanoseconds. -/
  nanos : Nat
  deriving DecidableEq, Repr, Inhabited

namespace Duration

/-- Nanoseconds in a second. -/
def perSec : Nat := 1000000000

/-- A duration of whole seconds. -/
def ofSecs (secs : Nat) : Duration := ⟨secs * perSec⟩

/-- A duration of whole milliseconds. -/
def ofMillis (millis : Nat) : Duration := ⟨millis * 1000000⟩

/-- No time at all. -/
def zero : Duration := ⟨0⟩

/-- The whole seconds in a duration; what is left over is `subsecNanos`. -/
def secs (d : Duration) : Nat := d.nanos / perSec

/-- The nanoseconds that the whole seconds leave over. -/
def subsecNanos (d : Duration) : Nat := d.nanos % perSec

/-- The whole milliseconds in a duration. -/
def millis (d : Duration) : Nat := d.nanos / 1000000

@[simp] theorem secs_ofSecs (n : Nat) : (ofSecs n).secs = n := by
  simp [secs, ofSecs, perSec]

@[simp] theorem subsecNanos_ofSecs (n : Nat) : (ofSecs n).subsecNanos = 0 := by
  simp [subsecNanos, ofSecs, perSec]

instance : LE Duration := ⟨fun a b => a.nanos ≤ b.nanos⟩
instance : LT Duration := ⟨fun a b => a.nanos < b.nanos⟩
instance (a b : Duration) : Decidable (a ≤ b) := inferInstanceAs (Decidable (a.nanos ≤ b.nanos))
instance (a b : Duration) : Decidable (a < b) := inferInstanceAs (Decidable (a.nanos < b.nanos))

theorem le_def {a b : Duration} : a ≤ b ↔ a.nanos ≤ b.nanos := Iff.rfl

/-- The shorter of two durations. -/
def least (a b : Duration) : Duration := if a ≤ b then a else b

theorem least_eq (a b : Duration) : a.least b = ⟨min a.nanos b.nanos⟩ := by
  unfold least
  split
  · next h => rw [Nat.min_eq_left (le_def.1 h)]
  · next h => rw [Nat.min_eq_right (by rw [le_def] at h; omega)]

end Duration

end WebCall
