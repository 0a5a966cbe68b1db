import WebCall.Text.Ascii
import WebCall.Text.Utf8

/-!
# Lines and chunks

Bytes that were received, cut into lines or into the chunks of a body. A chunk is a length in
hexadecimal digits on a line of its own, that many bytes, and a line end. A chunk of no bytes ends
the body; header lines may follow it, up to an empty line.
-/
namespace WebCall.Wire

/-- Cuts bytes after each line feed. The last part has none. -/
def cutLines : Bytes → List Bytes × Bytes
  | [] => ([], [])
  | b :: rest =>
    let cut := cutLines rest
    if b = 10 then ([b] :: cut.1, cut.2)
    else match cut.1 with
      | [] => ([], b :: cut.2)
      | line :: lines => ((b :: line) :: lines, cut.2)

/-- Bytes as the characters of the same numbers. -/
def chars (bytes : Bytes) : List Char := bytes.map fun b => Char.ofNat b.toNat

/-- What bytes say when they are taken for a body in chunks. -/
inductive Chunks
  /-- The body is complete; the lines that follow it. -/
  | complete (body : Bytes) (trailer : List Bytes)
  /-- More has to come. -/
  | unfinished
  /-- The bytes are not in chunks. -/
  | broken
  /-- A line after the last chunk is no header line. -/
  | badTrailer
  deriving DecidableEq, Repr

namespace Chunks

/-- Puts the bytes of a chunk in front. -/
def prepend (chunk : Bytes) : Chunks → Chunks
  | complete body trailer => complete (chunk ++ body) trailer
  | other => other

/-- The lines after the last chunk, up to an empty one. -/
def trailer : List Bytes → Chunks
  | [] => unfinished
  | line :: rest =>
    let text := line.dropLast
    let text := if text.getLast? = some 13 then text.dropLast else text
    let continues : Bool := text.head? = some 32 || text.head? = some 9
    if text.contains 13 then broken
    else if text.isEmpty then complete [] []
    else if !continues && !text.contains 58 then badTrailer
    else match trailer rest with
      | complete body lines => complete body (line :: lines)
      | other => other

/-- The end of a body, after its last chunk. -/
def ending (bytes : Bytes) : Chunks := trailer (cutLines bytes).1

/-- A byte that is a hexadecimal digit. -/
def isHexDigit (b : UInt8) : Bool := Text.isDigitOf 16 (Char.ofNat b.toNat)

/-- A chunk's length has at most this many digits. -/
def maxDigits : Nat := 16

/-- Reads the line with the length of a chunk. What follows the digits on it does not count. -/
def length? (bytes : Bytes) : Option (Nat × Bytes) :=
  let digits := bytes.takeWhile isHexDigit
  match (bytes.drop digits.length).dropWhile (· != 10) with
  | _ :: rest => some (Text.ofDigits 16 (chars digits), rest)
  | [] => none

/-- Whether bytes begin with the length of a chunk, as far as can be told. -/
def beginsWithLength (bytes : Bytes) : Bool :=
  let digits := bytes.takeWhile isHexDigit
  digits.length ≤ maxDigits && (!digits.isEmpty || bytes.isEmpty)

theorem length_of_length? {bytes rest : Bytes} {n : Nat} (h : length? bytes = some (n, rest)) :
    rest.length < bytes.length := by
  unfold length? at h
  dsimp only at h
  split at h
  · next tail hd =>
    obtain ⟨-, rfl⟩ := by simpa using h
    have h1 := (List.dropWhile_sublist (p := (· != 10))
      (l := bytes.drop (bytes.takeWhile isHexDigit).length)).length_le
    rw [hd] at h1
    simp only [List.length_cons, List.length_drop] at h1
    omega
  · cases h

/-- Takes bytes for a body in chunks. -/
def ofBytes (bytes : Bytes) : Chunks :=
  if !beginsWithLength bytes then broken
  else match _h : length? bytes with
    | none => unfinished
    | some (0, rest) => ending rest
    | some (n + 1, rest) =>
      match _h' : (rest.drop (n + 1)).dropWhile (· == 13) with
      | [] => unfinished
      | b :: next => if b = 10 then (ofBytes next).prepend (rest.take (n + 1)) else broken
termination_by bytes.length
decreasing_by
  have h1 := length_of_length? _h
  have h2 := (List.dropWhile_sublist (p := (· == 13)) (l := rest.drop (n + 1))).length_le
  rw [_h'] at h2
  simp only [List.length_cons, List.length_drop] at h2
  omega

/-- A line end. -/
def lineEnd : Bytes := [13, 10]

/-- A chunk. -/
def writeChunk (bytes : Bytes) : Bytes :=
  Utf8.encode (.ofList (Nat.toDigits 16 bytes.length)) ++ lineEnd ++ bytes ++ lineEnd

/-- A body in chunks, without lines after the last one. -/
def write (body : Bytes) : Bytes :=
  (if body.isEmpty then [] else writeChunk body) ++ writeChunk []

end Chunks

end WebCall.Wire
