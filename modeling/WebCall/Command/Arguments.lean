import WebCall.Http.Message
import WebCall.Text.Ascii

/-!
# Arguments

What the program's arguments ask for. There are two commands, `call` and `config`, and help on them.
The options of `call` take one value each, in the next argument or in the same one; only `--header`
may be repeated. After `--` every argument is taken for what it is, whatever it begins with.

An option whose value is in the next argument is looked at only when something follows that value.
So of two faults in the arguments the one that counts is not always the first.

## Main definitions

* `Ask`: what the arguments ask for, or why they ask for nothing.
* `Ask.ofArguments`: reads the arguments.
-/
namespace WebCall.Command

/-- What a call is asked to do. -/
structure CallArguments where
  /-- Where the request goes, as the user wrote it. -/
  target : String
  /-- The method. -/
  method : Http.Method := .get
  /-- The body. -/
  data : Option String := none
  /-- The header texts. -/
  headers : List String := []
  /-- The token. -/
  token : String
  deriving DecidableEq, Repr

/-- What help is about. -/
inductive Topic
  | program
  | call
  | config
  | help
  deriving DecidableEq, Repr

/-- What is wrong with arguments. -/
inductive UsageError
  /-- There are none. -/
  | nothingAsked
  /-- Something that has to be given is not. -/
  | missingRequired
  /-- An option has no value. -/
  | missingValue
  /-- A value is not one of those that an option may have. -/
  | badValue
  /-- A flag has a value. -/
  | unneededValue
  /-- An option is repeated. -/
  | repeated
  /-- Nothing of this name is known, or nothing more is expected. -/
  | unknownArgument
  /-- There is no such command. -/
  | unknownCommand
  deriving DecidableEq, Repr

/-- What the arguments ask for, or why they ask for nothing. -/
inductive Ask
  | call (arguments : CallArguments)
  | config
  | help (topic : Topic)
  | refused (error : UsageError)
  deriving DecidableEq, Repr

/-- The options of `call`. -/
inductive CallOption
  | method
  | data
  | header
  | token
  deriving DecidableEq, Repr

namespace CallOption

/-- All options. -/
def all : List CallOption := [method, data, header, token]

/-- The name after two dashes. -/
def longName : CallOption → String
  | method => "method"
  | data => "data"
  | header => "header"
  | token => "token"

/-- The letter after one dash. -/
def letter? : CallOption → Option Char
  | method => some 'X'
  | data => some 'd'
  | header => some 'H'
  | token => none

/-- The option of a name. -/
def ofName? (name : String) : Option CallOption := all.find? (·.longName == name)

/-- The option of a letter. -/
def ofLetter? (c : Char) : Option CallOption := all.find? (·.letter? == some c)

end CallOption

/-- The form of an argument. -/
inductive Shape
  /-- Two dashes alone. -/
  | divider
  /-- Two dashes and a name, with a value if there is an equals sign. -/
  | long (name : String) (value : Option String)
  /-- One dash and letters. -/
  | short (letter : Char) (rest : List Char)
  /-- Anything else. -/
  | plain
  deriving DecidableEq, Repr

/-- The form of an argument. -/
def Shape.of (argument : String) : Shape :=
  match argument.toList with
  | ['-', '-'] => divider
  | '-' :: '-' :: rest =>
    match Text.splitFirst? '=' rest with
    | some (name, value) => long (.ofList name) (some (.ofList value))
    | none => long (.ofList rest) none
  | '-' :: c :: rest => short c rest
  | _ => plain

/-- The name of the flag that asks for help. -/
def helpName : String := "help"

/-- The letter of the flag that asks for help. -/
def helpLetter : Char := 'h'

/-- What was read of the arguments of `call`. -/
structure CallDraft where
  target : Option String := none
  method : Option Http.Method := none
  data : Option String := none
  headers : List String := []
  token : Option String := none
  /-- An option that was not looked at yet, with its value if that has come. -/
  waiting : Option (CallOption × Option String) := none
  deriving DecidableEq, Repr

namespace CallDraft

/-- Gives an option a value. A repeated option is refused before its value is looked at. -/
def give (d : CallDraft) (o : CallOption) (value : String) : Except UsageError CallDraft :=
  match o with
  | .method =>
    match d.method, Http.Method.ofName? value with
    | some _, _ => .error .repeated
    | none, none => .error .badValue
    | none, some m => .ok { d with method := some m }
  | .data => if d.data.isSome then .error .repeated else .ok { d with data := some value }
  | .header => .ok { d with headers := d.headers ++ [value] }
  | .token => if d.token.isSome then .error .repeated else .ok { d with token := some value }

/-- Looks at the option that is waiting, if there is one. -/
def settle (d : CallDraft) : Except UsageError CallDraft :=
  match d.waiting with
  | none => .ok d
  | some (_, none) => .error .missingValue
  | some (o, some value) => { d with waiting := none }.give o value

/-- Whether the next argument can be the value of an option. -/
def expectsValue (d : CallDraft) : Bool :=
  match d.waiting with
  | some (_, none) => true
  | _ => false

/-- Takes an option, with its value if that is in the same argument. -/
def takeOption (d : CallDraft) (o : CallOption) (value : Option String) :
    Except UsageError CallDraft :=
  d.settle.bind fun d =>
    match value with
    | some value => d.give o value
    | none => .ok { d with waiting := some (o, none) }

/-- Takes an argument that is no option. -/
def takePlain (d : CallDraft) (argument : String) : Except UsageError CallDraft :=
  if d.target.isSome then .error .unknownArgument
  else d.settle.map fun d => { d with target := some argument }

/-- What a finished draft asks for. `inherited` is the token of the environment, which counts where
no option gives one. -/
def ask (inherited : Option String) (d : CallDraft) : Ask :=
  match d.settle with
  | .error e => .refused e
  | .ok d =>
    match d.target, d.token.or inherited with
    | some target, some token =>
      .call { target, method := d.method.getD .get, data := d.data, headers := d.headers, token }
    | _, _ => .refused .missingRequired

/-- The value in the rest of an argument, after an option's letter. An equals sign in front does not
belong to it. -/
def attached (rest : List Char) : Option String :=
  match rest with
  | [] => none
  | '=' :: value => some (.ofList value)
  | value => some (.ofList value)

/-- What asking for help comes to. -/
def askHelp (d : CallDraft) (topic : Topic) : Ask :=
  match d.settle with
  | .error e => .refused e
  | .ok _ => .help topic

/-- Reads the arguments of `call`. After the divider, `literal` is true. -/
def read (inherited : Option String) : (literal : Bool) → CallDraft → List String → Ask
  | _, d, [] => d.ask inherited
  | literal, d, argument :: rest =>
    let goOn : Except UsageError CallDraft → Ask
      | .error e => .refused e
      | .ok d => read inherited literal d rest
    match if literal then .plain else Shape.of argument with
    | .divider => read inherited true d rest
    | .long name value =>
      match CallOption.ofName? name with
      | some o => goOn (d.takeOption o value)
      | none =>
        if name = helpName then
          match value with
          | none => d.askHelp .call
          | some _ => .refused .unneededValue
        else .refused .unknownArgument
    | .short letter tail =>
      match CallOption.ofLetter? letter with
      | some o => goOn (d.takeOption o (attached tail))
      | none => if letter = helpLetter then d.askHelp .call else .refused .unknownArgument
    | .plain =>
      if !literal && d.expectsValue then
        let waiting := d.waiting.map fun w => (w.1, some argument)
        read inherited literal { d with waiting } rest
      else goOn (d.takePlain argument)

end CallDraft

namespace Ask

/-- Reads an argument that can only be a flag: one that asks for help. -/
def ofFlag (topic : Topic) (otherwise : UsageError) (argument : String) : Ask :=
  match Shape.of argument with
  | .long name value =>
    if name ≠ helpName then .refused .unknownArgument
    else if value.isSome then .refused .unneededValue
    else .help topic
  | .short letter _ => if letter = helpLetter then .help topic else .refused .unknownArgument
  | _ => .refused otherwise

/-- Reads the arguments of `config`, which has none. -/
def ofConfig : List String → Ask
  | [] => .config
  | ["--"] => .config
  | argument :: _ => ofFlag .config .unknownArgument argument

/-- Reads the names after the command `help`. -/
def ofHelp : List String → Ask
  | [] => .help .program
  | ["call"] => .help .call
  | ["config"] => .help .config
  | ["help"] => .help .help
  | _ => .refused .unknownCommand

/-- Reads what follows the divider where a command is expected. -/
def ofLiteral : List String → Ask
  | [] => .refused .nothingAsked
  | argument :: _ =>
    .refused (if argument ∈ ["call", "config", "help"] then .unknownArgument else .unknownCommand)

/-- Reads the arguments. `inherited` is the token of the environment. -/
def ofArguments (inherited : Option String) : List String → Ask
  | [] => .refused .nothingAsked
  | "call" :: rest => CallDraft.read inherited false {} rest
  | "config" :: rest => ofConfig rest
  | "help" :: rest => ofHelp rest
  | "--" :: rest => ofLiteral rest
  | argument :: _ => ofFlag .program .unknownCommand argument

end Ask

end WebCall.Command
