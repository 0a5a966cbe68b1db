import WebCall.Http.Fields
import WebCall.Text.Quoted
import WebCall.Url.Parser

/-!
# Parts of a request as users write them

A user gives the target of a request as an absolute URL or as something to append to the configured
base, header fields as texts with a colon, and the credential as a token with or without a scheme.

## Main definitions

* `Target.resolve`: the URL of a target.
* `HeaderText.field`: the field of a header text.
* `credential`: what is sent for a token.
-/
namespace WebCall.Command

/-- Why a target has no URL. -/
inductive TargetError
  /-- The target is no absolute URL, and there is no base to append it to. -/
  | noBase (target : String)
  /-- What the target gives after the base is no absolute URL. -/
  | invalid (joined : String) (cause : Url.UrlError)
  deriving DecidableEq, Repr

/-- The texts of the error and of what lies behind it, outermost first. -/
def TargetError.chain : TargetError → List String
  | noBase target => [s!"{Text.quoted target} is not a URL and no base_url is configured"]
  | invalid joined cause => [s!"invalid URL: {joined}", cause.message]

namespace Target

/-- Drops the slashes at the front. -/
def trimSlashesLeft (cs : List Char) : List Char := cs.dropWhile (· == '/')

/-- Drops the slashes at the end. -/
def trimSlashesRight (cs : List Char) : List Char := (cs.reverse.dropWhile (· == '/')).reverse

/-- A target after a base, with one slash between them. -/
def join (base target : String) : String :=
  .ofList (trimSlashesRight base.toList ++ '/' :: trimSlashesLeft target.toList)

/-- The URL of a target, in normal form. An absolute URL stands for itself, whatever the base is;
anything else is appended to the base. -/
def resolve (base : Option String) (target : String) : Except TargetError String :=
  match Url.parse target with
  | .ok url => .ok url.text
  | .error _ =>
    match base with
    | none => .error (.noBase target)
    | some base =>
      let joined := join base target
      match Url.parse joined with
      | .ok url => .ok url.text
      | .error cause => .error (.invalid joined cause)

end Target

/-- Why a header text is refused. -/
inductive HeaderTextError
  /-- There is no colon. -/
  | noColon (raw : String)
  /-- There is nothing but blanks before the colon. -/
  | emptyName (raw : String)
  deriving DecidableEq, Repr

/-- The text of the error. -/
def HeaderTextError.message : HeaderTextError → String
  | noColon raw => s!"header must look like \"Name: value\": {Text.quoted raw}"
  | emptyName raw => s!"empty header name: {Text.quoted raw}"

/-- The field of a header text: its name stands before the first colon and its value after it, both
without outer blanks. -/
def HeaderText.field (raw : String) : Except HeaderTextError (String × String) :=
  match Http.fieldOfLine? raw.toList with
  | none => .error (.noColon raw)
  | some field => if field.1.isEmpty then .error (.emptyName raw) else .ok field

/-- The scheme of a token that names none. -/
def bearer : String := "Bearer "

/-- What is sent for a token: the token without outer blanks, with a scheme in front unless a space
inside it shows that it has one. -/
def credential (token : String) : String :=
  let token := Text.trim token
  if token.toList.contains ' ' then token else bearer ++ token

end WebCall.Command
