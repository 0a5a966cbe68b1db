import WebCall.Text.Ascii
import WebCall.Text.Utf8

/-!
# Percent encoding

Characters that may not stand for themselves in a part of a URL are written as their UTF-8 bytes,
each as a percent sign and two hexadecimal digits. Each part has its own set of such characters.
Characters outside ASCII and controls belong to every set; the percent sign belongs to none.
-/
namespace WebCall.Url

/-- A capital hexadecimal digit. -/
def hexDigit (n : Nat) : Char := if n < 10 then Char.ofNat (48 + n) else Char.ofNat (55 + n)

/-- A byte as a percent sign and two digits. -/
def percentByte (b : UInt8) : List Char := ['%', hexDigit (b.toNat / 16), hexDigit (b.toNat % 16)]

/-- Controls, and characters outside ASCII. -/
def isControl (c : Char) : Bool := c.toNat < 0x20 || 0x7F ≤ c.toNat

/-- The set of fragments. -/
def inFragmentSet (c : Char) : Bool := isControl c || [' ', '"', '<', '>', '\x60'].contains c

/-- The set of queries. -/
def inQuerySet (c : Char) : Bool := isControl c || [' ', '"', '#', '<', '>'].contains c

/-- The set of queries of special schemes. -/
def inSpecialQuerySet (c : Char) : Bool := inQuerySet c || c == '\''

/-- The set of paths. -/
def inPathSet (c : Char) : Bool := inFragmentSet c || ['#', '?', '\x7b', '\x7d'].contains c

/-- The set of user names and passwords. -/
def inUserSet (c : Char) : Bool :=
  inPathSet c || ['/', ':', ';', '=', '@', '[', '\\', ']', '^', '|'].contains c

/-- One character, encoded if it is in the set. -/
def encodeChar (set : Char → Bool) (c : Char) : List Char :=
  if set c then (Utf8.encode (String.singleton c)).flatMap percentByte else [c]

/-- A text with the characters of the set encoded. -/
def encode (set : Char → Bool) (cs : List Char) : List Char := cs.flatMap (encodeChar set)

/-- The bytes of a text, with every percent sign and its two digits taken as one byte. -/
def decode : List Char → Bytes
  | [] => []
  | '%' :: a :: b :: rest =>
    if Text.isDigitOf 16 a && Text.isDigitOf 16 b then
      (Text.ofDigits 16 [a, b]).toUInt8 :: decode rest
    else Utf8.encode "%" ++ decode (a :: b :: rest)
  | c :: rest => Utf8.encode (String.singleton c) ++ decode rest

end WebCall.Url
