import WebCall.Url.Host
import WebCall.Url.Path

/-!
# URLs

An absolute URL in parts, and its text.
-/
namespace WebCall

/-- What stands between the two slashes and the path. -/
structure Url.Authority where
  /-- The user name, encoded; empty if there is none. -/
  username : List Char := []
  /-- The password, encoded; empty if there is none. -/
  password : List Char := []
  /-- The host. -/
  host : Url.Host
  /-- The port, if it is not the one of the scheme. -/
  port : Option Nat := none
  deriving DecidableEq, Repr

/-- An absolute URL. -/
structure Url where
  /-- The scheme, in small letters. -/
  scheme : List Char
  /-- User, host and port, if the URL has them. -/
  authority : Option Url.Authority
  /-- The path. -/
  path : Url.Path
  /-- The query, encoded. -/
  query : Option (List Char) := none
  /-- The fragment, encoded. -/
  fragment : Option (List Char) := none
  deriving DecidableEq, Repr

namespace Url

/-- The text of an authority. A user name or password ends with an at sign. -/
def Authority.text (a : Authority) : List Char :=
  let password := if a.password.isEmpty then [] else ':' :: a.password
  let user := a.username ++ password
  let port := match a.port with
    | some n => ':' :: Nat.toDigits 10 n
    | none => []
  (if user.isEmpty then [] else user ++ ['@']) ++ a.host.text ++ port

/-- The text of a URL without an authority could be taken for one with an authority when its path
begins with two slashes; a slash and a dot in front of the path prevent it. -/
def pathGuard (u : Url) : List Char :=
  match u.authority, u.path.text with
  | none, '/' :: '/' :: _ => ['/', '.']
  | _, _ => []

/-- The characters of a URL. -/
def chars (u : Url) : List Char :=
  let part (lead : Char) (p : Option (List Char)) := (p.map (lead :: ·)).getD []
  let authority := (u.authority.map fun a => '/' :: '/' :: a.text).getD []
  u.scheme ++ ':' :: authority ++ u.pathGuard ++ u.path.text ++ part '?' u.query ++
    part '#' u.fragment

/-- The text of a URL. -/
def text (u : Url) : String := .ofList u.chars

/-- The schemes with an authority, and the ports that they have unless another is given. -/
def defaultPort? (scheme : List Char) : Option Nat :=
  if scheme = "http".toList ∨ scheme = "ws".toList then some 80
  else if scheme = "https".toList ∨ scheme = "wss".toList then some 443
  else if scheme = "ftp".toList then some 21
  else none

/-- The scheme of files. -/
def fileScheme : List Char := "file".toList

/-- A scheme whose URLs have a host and in which a backslash counts as a slash. -/
def isSpecial (scheme : List Char) : Bool := (defaultPort? scheme).isSome

end Url

end WebCall
