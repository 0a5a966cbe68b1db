import WebCall.Url.Basic

/-!
# Reading URLs

The reading of an absolute URL, which forgives much: blanks and controls around it, tabs and line
breaks inside it, backslashes for slashes, any number of slashes after a special scheme. What is
left of it after reading is in one normal form.

## Main definitions

* `Url.parse`: the URL of a text, or why it is none.
-/
namespace WebCall.Url

/-- A blank or control of ASCII; these are dropped around a URL. -/
def isOuter (c : Char) : Bool := c.toNat ≤ 0x20

/-- A tab or a line break; these are dropped everywhere. -/
def isIgnored (c : Char) : Bool := c == '\t' || c == '\n' || c == '\r'

/-- The characters of a text that count. -/
def clean (cs : List Char) : List Char :=
  let inner := ((cs.dropWhile isOuter).reverse.dropWhile isOuter).reverse
  inner.filter fun c => !isIgnored c

/-- A character that a scheme may have after its first letter. -/
def isSchemeChar (c : Char) : Bool :=
  Text.isLetter c || Text.isDigit c || c == '+' || c == '-' || c == '.'

/-- Cuts a scheme and its colon off the front. -/
def scheme? (cs : List Char) : Option (List Char × List Char) :=
  match Text.splitFirst? ':' cs with
  | some (name, rest) =>
    if name.all isSchemeChar && name.head?.any Text.isLetter then
      some (name.map Text.lower, rest)
    else none
  | none => none

/-- The characters that end an authority. -/
def endsAuthority (special : Bool) (c : Char) : Bool :=
  c == '/' || c == '?' || c == '#' || (special && c == '\\')

/-- Cuts a text at the last at sign; the sign is in neither part. -/
def cutAtLastAt? (cs : List Char) : Option (List Char × List Char) :=
  if cs.contains '@' then
    let host := (cs.reverse.takeWhile (· != '@')).reverse
    some (cs.take (cs.length - host.length - 1), host)
  else none

/-- The encoded user name and password of what stands before the at sign. -/
def userParts (cs : List Char) : List Char × List Char :=
  match Text.splitFirst? ':' cs with
  | some (user, password) => (encode inUserSet user, encode inUserSet password)
  | none => (encode inUserSet cs, [])

/-- Cuts host and port at the first colon outside brackets. -/
def cutAtPort : (inside : Bool) → List Char → List Char × Option (List Char)
  | _, [] => ([], none)
  | inside, c :: rest =>
    if c = ':' ∧ !inside then ([], some rest)
    else
      let r := cutAtPort (c == '[' || (inside && c != ']')) rest
      (c :: r.1, r.2)

/-- Reads a port. No digits, or the port of the scheme, count as none; leading zeros do not. A
backslash ends the port and begins what is left over. -/
def readPort (scheme : List Char) (cs : List Char) : Except UrlError (Option Nat × List Char) :=
  let digits := cs.takeWhile Text.isDigit
  let rest := cs.drop digits.length
  let n := Text.ofDigits 10 digits
  if 65535 < n ∨ !(rest.isEmpty || rest.head? == some '\\') then .error .port
  else .ok (if digits.isEmpty || defaultPort? scheme == some n then none else some n, rest)

/-- Reads the text between the slashes and the path, with what is left over of it. `isLast` tells
that the URL ends with it. -/
def readAuthority (scheme : List Char) (cs : List Char) (isLast : Bool) :
    Except UrlError (Authority × List Char) := do
  let special := isSpecial scheme
  let at? := cutAtLastAt? cs
  let (user, rest) := at?.getD ([], cs)
  let (username, password) := userParts user
  let named := !username.isEmpty || !password.isEmpty
  let (hostText, portText) := cutAtPort false rest
  if hostText.isEmpty then
    -- an empty host has no port and no user, and an at sign before it ends the URL
    if special || portText.isSome || named || (at?.isSome && user.isEmpty && !isLast) then
      throw .emptyHost
  let host ← if special then Host.ofSpecial hostText else Host.ofOpaque hostText
  let (port, left) ← match portText with
    | some text => readPort scheme text
    | none => pure (none, [])
  return ({ username, password, host, port }, left)

/-- Cuts the query and the fragment off a text and encodes them. -/
def cutTail (special : Bool) (cs : List Char) : List Char × Option (List Char) × Option (List Char) :=
  let (front, fragment) := match Text.splitFirst? '#' cs with
    | some (a, b) => (a, some (encode inFragmentSet b))
    | none => (cs, none)
  let set := if special then inSpecialQuerySet else inQuerySet
  match Text.splitFirst? '?' front with
  | some (a, b) => (a, some (encode set b), fragment)
  | none => (front, none, fragment)

/-- The path after an authority. A special URL always has one. -/
def pathAfterAuthority (special : Bool) (cs : List Char) : Path :=
  match special, cs with
  | true, c :: rest =>
    .rooted (segmentsOf true (if c = '/' ∨ c = '\\' then rest else c :: rest))
  | true, [] => .rooted [[]]
  | false, [] => .rooted []
  | false, c :: rest => .rooted (segmentsOf false (if c = '/' then rest else c :: rest))

/-- Reads what follows the slashes before an authority. -/
def readHierarchical (scheme : List Char) (cs : List Char) : Except UrlError Url := do
  let special := isSpecial scheme
  let authority := cs.takeWhile fun c => !endsAuthority special c
  let rest := cs.dropWhile fun c => !endsAuthority special c
  let (a, left) ← readAuthority scheme authority rest.isEmpty
  let (path, query, fragment) := cutTail special (left ++ rest)
  return ⟨scheme, some a, pathAfterAuthority special path, query, fragment⟩

/-- Reads what follows a scheme that is not special. -/
def readOther (scheme : List Char) (cs : List Char) : Except UrlError Url :=
  match cs with
  | '/' :: '/' :: rest => readHierarchical scheme rest
  | _ =>
    let (path, query, fragment) := cutTail false cs
    .ok <| match path with
      | '/' :: rest => ⟨scheme, none, .rooted (segmentsOf false rest), query, fragment⟩
      | _ => ⟨scheme, none, .opaquePath (encode isControl path), query, fragment⟩

/-- A slash or a backslash. -/
def isSlash (c : Char) : Bool := c == '/' || c == '\\'

/-- The host of a `file` URL: none when it is empty or the machine itself. -/
def readFileHost (cs : List Char) : Except UrlError Host :=
  if cs.isEmpty then .ok (.name [])
  else do
    let host ← Host.ofSpecial cs
    return if host = .name "localhost".toList then .name [] else host

/-- Reads what follows the scheme of files. A drive letter in the path leaves no host. -/
def readFile (cs : List Char) : Except UrlError Url := do
  let (front, query, fragment) := cutTail true cs
  let make (host : Host) (path : List Char) : Url :=
    let r := fileSegmentsOf path
    let host := if r.2 then .name [] else host
    ⟨fileScheme, some { host }, .rooted r.1, query, fragment⟩
  match front with
  | a :: b :: rest =>
    if isSlash a && isSlash b then
      let name := rest.takeWhile fun c => !isSlash c
      if isDriveLetter name then return make (.name []) rest
      else
        let host ← readFileHost name
        return make host (rest.drop (name.length + 1))
    else if isSlash a then return make (.name []) (b :: rest)
    else return make (.name []) front
  | [a] => return make (.name []) (if isSlash a then [] else [a])
  | [] => return make (.name []) []

/-- Reads the characters of an absolute URL. -/
def parseChars (cs : List Char) : Except UrlError Url :=
  match scheme? (clean cs) with
  | none => .error .relative
  | some (scheme, rest) =>
    if scheme = fileScheme then readFile rest
    else if isSpecial scheme then readHierarchical scheme (rest.dropWhile isSlash)
    else readOther scheme rest

/-- The URL of a text. -/
def parse (s : String) : Except UrlError Url := parseChars s.toList

end WebCall.Url
