import WebCall.Text.Ascii
import WebCall.Text.Quoted

/-!
# IPv6 addresses as hosts

Eight pieces of sixteen bits, in hexadecimal notation, between colons. Two colons once stand for one
or more pieces of zero, and the last two pieces may be written as an IPv4 address in decimal.
-/
namespace WebCall.Url

/-- Reads one piece: one to four hexadecimal digits. -/
def ipv6Piece? (cs : List Char) : Option Nat :=
  if cs.isEmpty || 4 < cs.length || !cs.all (Text.isDigitOf 16) then none
  else some (Text.ofDigits 16 cs)

/-- Reads a decimal byte without leading zeros. -/
def decimalByte? (cs : List Char) : Option Nat :=
  if cs.isEmpty || 3 < cs.length || !cs.all Text.isDigit ||
      (cs.head? == some '0' && cs.length != 1) then none
  else
    let n := Text.ofDigits 10 cs
    if n < 256 then some n else none

/-- Reads four decimal bytes as two pieces. -/
def embeddedIpv4? (cs : List Char) : Option (List Nat) :=
  match (Text.pieces '.' cs).mapM decimalByte? with
  | some [a, b, c, d] => some [a * 256 + b, c * 256 + d]
  | _ => none

/-- Reads pieces between single colons; an IPv4 address may be the last of them. -/
def ipv6Run? : List (List Char) → Option (List Nat)
  | [] => some []
  | [last] =>
    if last.contains '.' then embeddedIpv4? last else (ipv6Piece? last).map fun p => [p]
  | cs :: rest => (ipv6Piece? cs).bind fun p => (ipv6Run? rest).map (p :: ·)

/-- Cuts a text at the first pair of colons. -/
def cutAtGap? : List Char → Option (List Char × List Char)
  | ':' :: ':' :: rest => some ([], rest)
  | c :: rest => (cutAtGap? rest).map fun p => (c :: p.1, p.2)
  | [] => none

/-- The pieces on one side of a gap, of which there may be none. -/
def ipv6Side? (cs : List Char) : Option (List Nat) :=
  if cs.isEmpty then some [] else ipv6Run? (Text.pieces ':' cs)

/-- The eight pieces of an address. -/
def ipv6? (cs : List Char) : Option (List Nat) :=
  match cutAtGap? cs with
  | none => (ipv6Run? (Text.pieces ':' cs)).filter (·.length == 8)
  | some (left, right) =>
    if left.contains '.' then none
    else (ipv6Side? left).bind fun l => (ipv6Side? right).bind fun r =>
      if l.length + r.length ≤ 7 then
        some (l ++ List.replicate (8 - l.length - r.length) 0 ++ r)
      else none

/-- The length of the run of zeros at the front. -/
def zeroRun (pieces : List Nat) : Nat := (pieces.takeWhile (· == 0)).length

/-- Where the longest run of at least two zeros begins, and its length; the first of equally long
runs counts. -/
def longestGap? (pieces : List Nat) : Option (Nat × Nat) :=
  let runs := (List.range pieces.length).map fun i => (i, zeroRun (pieces.drop i))
  let best := runs.foldl (fun b r => if b.2 < r.2 then r else b) (0, 0)
  if 2 ≤ best.2 then some best else none

/-- Pieces in hexadecimal notation between colons. -/
def piecesText (pieces : List Nat) : String :=
  ":".intercalate (pieces.map fun p => .ofList (Text.hexDigits p))

/-- The text of an address, with two colons for the longest run of zeros. -/
def ipv6Text (pieces : List Nat) : String :=
  match longestGap? pieces with
  | none => piecesText pieces
  | some (start, length) =>
    piecesText (pieces.take start) ++ "::" ++ piecesText (pieces.drop (start + length))

end WebCall.Url
