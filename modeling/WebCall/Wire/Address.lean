import WebCall.Http.TransportError
import WebCall.Url.Ipv6
import WebCall.Url.Path

/-!
# Addresses

What a transfer makes of the URL it is given. The URL need not be in normal form: the scheme may be
missing, and segments of dots may still be in the path. Only `http` can be spoken.
-/
namespace WebCall.Wire

/-- Where a request goes. -/
structure Address where
  /-- The name or the number of the peer; a number of the long form stands in brackets. -/
  host : List Char
  /-- The port of the peer. -/
  port : Nat
  /-- The user and the password that the URL names. -/
  login : Option (Bytes × Bytes) := none
  /-- The path and the query, as they stand on the request line. -/
  target : List Char
  deriving DecidableEq, Repr

namespace Address

open Http (TransferFailure)

/-- A character that a scheme may hold after its first letter. -/
def inScheme (c : Char) : Bool := Text.isLetter c || Text.isDigit c || ['+', '-', '.'].contains c

/-- Schemes have fewer characters than this. -/
def schemeLimit : Nat := 40

/-- Cuts the scheme off a URL, in small letters. A colon ends it, and what follows begins with a
slash; otherwise there is no scheme. -/
def cutScheme (cs : List Char) : Option (List Char) × List Char :=
  let name := (cs.takeWhile inScheme).take schemeLimit
  match cs.drop name.length with
  | ':' :: '/' :: rest =>
    if cs.head?.any Text.isLetter then (some (name.map Text.lower), '/' :: rest) else (none, cs)
  | _ => (none, cs)

/-- Drops the slashes after a scheme; there may be up to three. -/
def skipSlashes? (cs : List Char) : Option (List Char) :=
  let slashes := cs.takeWhile (· == '/')
  if slashes.length ≤ 3 then some (cs.drop slashes.length) else none

/-- A character that ends the part of a URL that names the peer. -/
def endsAuthority (c : Char) : Bool := c == '/' || c == '?' || c == '#'

/-- A character that no host name holds. -/
def isForbidden (c : Char) : Bool := " \r\n\t/:#?!@\x7b\x7d[]\\$'\"^`*<>=;,+&()%".toList.contains c

/-- The usual port. -/
def usualPort : Nat := 80

/-- The port of its digits, a number below 2^16. No digits at all stand for the usual port, if the
URL has a scheme. -/
def port? (hasScheme : Bool) (digits : List Char) : Option Nat :=
  let n := Text.ofDigits 10 digits
  if digits.isEmpty then (if hasScheme then some usualPort else none)
  else if digits.all Text.isDigit && n < 65536 then some n
  else none

/-- The port after a host: what follows the host is empty or begins with a colon. -/
def portAfter? (hasScheme : Bool) : List Char → Option Nat
  | [] => some usualPort
  | ':' :: digits => port? hasScheme digits
  | _ => none

/-- The host and the port of the part of a URL that names the peer. -/
def hostPort? (hasScheme : Bool) (cs : List Char) : Option (List Char × Nat) :=
  match cs with
  | '[' :: rest =>
    (Text.splitFirst? ']' rest).bind fun p =>
      (Url.ipv6? p.1).bind fun _ =>
        (portAfter? hasScheme p.2).map fun port => ('[' :: p.1 ++ [']'], port)
  | cs =>
    let host := cs.takeWhile (· != ':')
    let bytes := Url.decode host
    let name := (Utf8.decodeLossy bytes).toList
    if host.isEmpty || bytes.any (· < 0x20) || name.any isForbidden then none
    else (portAfter? hasScheme (cs.drop host.length)).map fun port => (name, port)

/-- A scheme that the name of a host suggests where the URL has none. -/
def guessScheme (host : List Char) : List Char :=
  let host := host.map Text.lower
  let known := ["ftp", "dict", "ldap", "imap", "smtp", "pop3"].map String.toList
  (known.find? fun name => (name ++ ['.']).isPrefixOf host).getD "http".toList

/-- The user and the password of a login. -/
def loginOf (cs : List Char) : Bytes × Bytes :=
  match Text.splitFirst? ':' cs with
  | some (user, password) => (Url.decode user, Url.decode password)
  | none => (Url.decode cs, [])

/-- Adds segments to those before them. A segment of one dot is dropped, a segment of two takes the
one before it away, and after a last segment of dots the path ends with a slash. -/
def addSegments : (done : List (List Char)) → List (List Char) → List (List Char)
  | done, [] => done
  | done, segment :: rest =>
    let close (segments : List (List Char)) := if rest.isEmpty then segments ++ [[]] else segments
    if Url.isDot segment then addSegments (close done) rest
    else if Url.isDotDot segment then addSegments (close done.dropLast) rest
    else addSegments (done ++ [segment]) rest

/-- Writes the digits of encoded bytes as capitals. -/
def raiseDigits : List Char → List Char
  | '%' :: a :: b :: rest =>
    if Text.isDigitOf 16 a && Text.isDigitOf 16 b then
      '%' :: Text.upper a :: Text.upper b :: raiseDigits rest
    else '%' :: raiseDigits (a :: b :: rest)
  | c :: rest => c :: raiseDigits rest
  | [] => []

/-- The path on the request line for a path that begins with a slash or is empty. -/
def pathText (cs : List Char) : List Char :=
  let segments := addSegments [] (Text.pieces '/' (cs.drop 1))
  raiseDigits (Url.encode Url.isControl (segments.flatMap ('/' :: ·)))

/-- The target on the request line for what follows the peer in a URL. -/
def targetText (cs : List Char) : List Char :=
  let cs := cs.takeWhile (· != '#')
  let path := cs.takeWhile (· != '?')
  pathText path ++ cs.drop path.length

/-- The login and the rest of the part of a URL that names the peer. -/
def cutLogin (authority : List Char) : Option (Bytes × Bytes) × List Char :=
  match Text.splitFirst? '@' authority with
  | some (login, host) => (some (loginOf login), host)
  | none => (none, authority)

/-- The address of what follows the scheme and its slashes. -/
def ofRest (scheme : Option (List Char)) (rest : List Char) : Except TransferFailure Address :=
  let authority := rest.takeWhile (!endsAuthority ·)
  let cut := cutLogin authority
  let hasZero : Bool := cut.1.any fun l => l.1.contains 0 || l.2.contains 0
  match hostPort? scheme.isSome cut.2 with
  | none => .error .malformedUrl
  | some (host, port) =>
    if scheme.getD (guessScheme cut.2) != "http".toList then .error .unsupportedProtocol
    else if hasZero then .error .malformedUrl
    else .ok { host, port, login := cut.1, target := targetText (rest.drop authority.length) }

/-- The address of a URL. Blanks and controls may not stand in it. -/
def ofUrl (url : String) : Except TransferFailure Address :=
  let cs := url.toList
  if cs.any (fun c => c.toNat ≤ 0x20 || c.toNat == 0x7F) then .error .malformedUrl
  else
    let cut := cutScheme cs
    if cut.1 = some "file".toList then .error .unreadableFile
    else match if cut.1.isSome then skipSlashes? cut.2 else some cut.2 with
    | none => .error .malformedUrl
    | some rest => ofRest cut.1 rest

/-- How the host field names the peer. The usual port is left out. -/
def peer (a : Address) : String :=
  if a.port = usualPort then .ofList a.host else s!"{String.ofList a.host}:{a.port}"

end Address

end WebCall.Wire
