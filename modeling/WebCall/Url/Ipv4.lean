import WebCall.Text.Ascii

/-!
# IPv4 addresses as hosts

A host whose last part is a number is an IPv4 address. It may have up to four parts, each in decimal
notation, in octal notation with a leading zero, or in hexadecimal notation with a leading `0x`; the
last part fills all bytes that the others leave.
-/
namespace WebCall.Url

/-- One part of an address. -/
inductive Ipv4Part
  /-- A number that an address has room for. -/
  | number (value : Nat)
  /-- A greater number. -/
  | tooGreat
  /-- No number at all. -/
  | other
  deriving DecidableEq, Repr

/-- The base of a part and its digits. -/
def ipv4Digits : List Char → Nat × List Char
  | '0' :: 'x' :: digits => (16, digits)
  | '0' :: 'X' :: digits => (16, digits)
  | '0' :: d :: digits => (8, d :: digits)
  | digits => (10, digits)

/-- Reads one part. A prefix without digits stands for zero. -/
def ipv4Part (cs : List Char) : Ipv4Part :=
  if cs.isEmpty then .other
  else
    let r := ipv4Digits cs
    if r.2.isEmpty then .number 0
    else if !r.2.all (Text.isDigitOf r.1) then .other
    else
      let n := Text.ofDigits r.1 r.2
      if n < Nat.pow 2 32 then .number n else .tooGreat

/-- The parts of a host; an empty last part does not count. -/
def hostParts (cs : List Char) : List (List Char) :=
  let parts := Text.pieces '.' cs
  if parts.length != 1 && parts.getLast? == some [] then parts.dropLast else parts

/-- Whether the last part of a host is a number, and the host therefore an address or nothing. -/
def endsInNumber (cs : List Char) : Bool :=
  match (hostParts cs).getLast? with
  | none => false
  | some last => (!last.isEmpty && last.all Text.isDigit) || ipv4Part last != .other

/-- The address of a host that ends in a number. -/
def ipv4? (cs : List Char) : Option Nat :=
  let parts := (hostParts cs).map ipv4Part
  let numbers := parts.filterMap fun p => match p with
    | .number n => some n
    | _ => none
  if parts.length > 4 || numbers.length != parts.length then none
  else match numbers.getLast? with
    | none => none
    | some last =>
      let front := numbers.dropLast
      if front.any (255 < ·) || Nat.pow 256 (4 - front.length) ≤ last then none
      else
        let places := (List.range front.length).zipWith (fun i n => n * Nat.pow 256 (3 - i)) front
        some (places.foldl (· + ·) last)

/-- An address as four decimal numbers. -/
def ipv4Text (n : Nat) : String :=
  s!"{n / Nat.pow 256 3 % 256}.{n / Nat.pow 256 2 % 256}.{n / 256 % 256}.{n % 256}"

end WebCall.Url
