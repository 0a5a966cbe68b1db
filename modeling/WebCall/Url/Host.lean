import WebCall.Text.Quoted
import WebCall.Url.Ipv4
import WebCall.Url.Ipv6
import WebCall.Url.Percent
import WebCall.Url.Punycode

/-!
# Hosts

The host of a URL. Special schemes have a domain name or an address; the host of any other scheme is
kept as it is written. Domain names are understood in ASCII only: a name with other characters is
refused, except in its ASCII form.
-/
namespace WebCall.Url

/-- Why a text is no absolute URL. -/
inductive UrlError
  /-- There is no scheme. -/
  | relative
  /-- The host is missing. -/
  | emptyHost
  /-- The domain name cannot be written in ASCII. -/
  | domain
  /-- The port is no number below 65536. -/
  | port
  /-- The host looks like an IPv4 address and is none. -/
  | ipv4
  /-- The host stands in brackets and is no IPv6 address. -/
  | ipv6
  /-- The host has a character that no host has. -/
  | hostCharacter
  deriving DecidableEq, Repr

/-- The text of an error. -/
def UrlError.message : UrlError → String
  | relative => "relative URL without a base"
  | emptyHost => "empty host"
  | domain => "invalid international domain name"
  | port => "invalid port number"
  | ipv4 => "invalid IPv4 address"
  | ipv6 => "invalid IPv6 address"
  | hostCharacter => "invalid domain character"

/-- A host. -/
inductive Host
  /-- A name, or the host of a scheme that is not special; it may be empty. -/
  | name (text : List Char)
  /-- An address of 32 bits. -/
  | ipv4 (address : Nat)
  /-- The eight pieces of an address of 128 bits. -/
  | ipv6 (pieces : List Nat)
  deriving DecidableEq, Repr

namespace Host

/-- How a host is written. -/
def text : Host → List Char
  | name text => text
  | ipv4 address => (ipv4Text address).toList
  | ipv6 pieces => '[' :: (ipv6Text pieces).toList ++ [']']

/-- The characters that no host has. -/
def isForbidden (c : Char) : Bool :=
  ['\x00', '\t', '\n', '\r', ' ', '#', '/', ':', '<', '>', '?', '@', '[', '\\', ']', '^',
    '|'].contains c

/-- The characters that no domain name has. -/
def isForbiddenInDomain (c : Char) : Bool := isForbidden c || isControl c || c == '%'

/-- The start of a label in ASCII form. -/
def asciiLead : List Char := ['x', 'n', '-', '-']

/-- Whether a label can stand in a domain name. A label in ASCII form has to stand for a text with
a character outside ASCII. -/
def isLabel (cs : List Char) : Bool :=
  if asciiLead.isPrefixOf cs then
    match Punycode.decode? (cs.drop asciiLead.length) with
    | some label => label.any (0x80 ≤ ·.toNat) && !label.any Text.isHidden
    | none => false
  else true

/-- The host in brackets, whose opening bracket is gone. -/
def bracketed (cs : List Char) : Except UrlError Host :=
  if cs.getLast? = some ']' then
    match ipv6? cs.dropLast with
    | some pieces => .ok (.ipv6 pieces)
    | none => .error .ipv6
  else .error .ipv6

/-- The domain name that percent encoding and capitals stand for. -/
def domain? (cs : List Char) : Option (List Char) :=
  match Utf8.decode? (decode cs) with
  | none => none
  | some s =>
    let domain := s.toList.map Text.lower
    if domain.any isForbiddenInDomain || !(Text.pieces '.' domain).all isLabel then none
    else some domain

/-- Reads the host of a special scheme. -/
def ofSpecial (cs : List Char) : Except UrlError Host :=
  match cs with
  | '[' :: rest => bracketed rest
  | _ =>
    match domain? cs with
    | none => .error .domain
    | some [] => .error .emptyHost
    | some domain =>
      if endsInNumber domain then
        match ipv4? domain with
        | some address => .ok (.ipv4 address)
        | none => .error .ipv4
      else .ok (.name domain)

/-- Reads the host of any other scheme. -/
def ofOpaque (cs : List Char) : Except UrlError Host :=
  match cs with
  | '[' :: rest => bracketed rest
  | _ =>
    if cs.any isForbidden then .error .hostCharacter else .ok (.name (encode isControl cs))

end Host

end WebCall.Url
