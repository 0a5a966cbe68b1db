/-!
# UTF-8

Reading text from bytes. A byte sequence is cut into characters and malformed parts; a malformed
part is as long as the start of some character that its bytes still agree with, and at least one
byte. The strict reading refuses the first malformed part, the lossy one writes U+FFFD for each.

## Main definitions

* `Utf8.next`: one character or malformed part, and the bytes after it.
* `Utf8.decode?`: the strict reading.
* `Utf8.decodeLossy`: the lossy reading.
* `Utf8.encode`: the bytes of a text.
-/
namespace WebCall

/-- A sequence of bytes. -/
abbrev Bytes := List UInt8

namespace Utf8

/-- Reads `count` more bytes of a character whose bits so far are `bits`. Only the first of them is
held to the bounds `lo` and `hi`; the others are any continuation bytes. -/
def more : (count bits : Nat) → (lo hi : UInt8) → Bytes → Option Char × Bytes
  | 0, bits, _, _, rest => (some (Char.ofNat bits), rest)
  | _ + 1, _, _, _, [] => (none, [])
  | count + 1, bits, lo, hi, b :: rest =>
    if lo ≤ b ∧ b ≤ hi then more count (bits * 64 + (b.toNat - 0x80)) 0x80 0xBF rest
    else (none, b :: rest)

/-- The character that starts with byte `b`, or `none` for a malformed part, and what follows it. -/
def next (b : UInt8) (rest : Bytes) : Option Char × Bytes :=
  let n := b.toNat
  if n < 0x80 then (some (Char.ofNat n), rest)
  else if n < 0xC2 then (none, rest)
  else if n < 0xE0 then more 1 (n - 0xC0) 0x80 0xBF rest
  else if n = 0xE0 then more 2 0 0xA0 0xBF rest
  else if n = 0xED then more 2 0x0D 0x80 0x9F rest
  else if n < 0xF0 then more 2 (n - 0xE0) 0x80 0xBF rest
  else if n = 0xF0 then more 3 0 0x90 0xBF rest
  else if n < 0xF4 then more 3 (n - 0xF0) 0x80 0xBF rest
  else if n = 0xF4 then more 3 4 0x80 0x8F rest
  else (none, rest)

theorem length_more_le (count bits : Nat) (lo hi : UInt8) (rest : Bytes) :
    (more count bits lo hi rest).2.length ≤ rest.length := by
  fun_induction more count bits lo hi rest with
  | case1 => exact Nat.le_refl _
  | case2 => exact Nat.le_refl _
  | case3 _ _ _ _ _ _ _ ih => exact Nat.le_succ_of_le ih
  | case4 => exact Nat.le_refl _

/-- A step consumes at least its first byte. -/
theorem length_next_le (b : UInt8) (rest : Bytes) : (next b rest).2.length ≤ rest.length := by
  grind [next, length_more_le]

/-- The characters and malformed parts of a byte sequence, in order. -/
def parts : Bytes → List (Option Char)
  | [] => []
  | b :: rest =>
    let step := next b rest
    step.1 :: parts step.2
termination_by bytes => bytes.length
decreasing_by exact Nat.lt_succ_of_le (length_next_le b rest)

/-- The text of a byte sequence without malformed parts. -/
def decode? (bytes : Bytes) : Option String :=
  (parts bytes).mapM id |>.map String.ofList

/-- The text of a byte sequence, with U+FFFD for every malformed part. -/
def decodeLossy (bytes : Bytes) : String :=
  .ofList ((parts bytes).map (·.getD (Char.ofNat 0xFFFD)))

/-- The bytes of a text. -/
def encode (s : String) : Bytes := s.toUTF8.toList

end Utf8

end WebCall
