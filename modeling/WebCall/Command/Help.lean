import WebCall.Command.Arguments

/-!
# Help

The help texts of the program and of its commands.
-/
namespace WebCall.Command

namespace Topic

/-- The line about the flag that asks for help. -/
def helpLine : String := "  -h, --help  Print help"

/-- The lines on a topic. -/
def lines : Topic → List String
  | program =>
    ["Call a web API with rate-limit aware retries",
      "",
      "Usage: callguard <COMMAND>",
      "",
      "Commands:",
      "  call    Send one request and print the response",
      "  config  Show the config file location and effective settings",
      "  help    Print this message or the help of the given subcommand(s)",
      "",
      "Options:",
      helpLine]
  | call =>
    ["Send one request and print the response",
      "",
      "Usage: callguard call [OPTIONS] --token <TOKEN> <TARGET>",
      "",
      "Arguments:",
      "  <TARGET>  Absolute URL, or a path appended to `base_url` from the config",
      "",
      "Options:",
      "  -X, --method <METHOD>       HTTP method [default: GET]",
      "  -d, --data <DATA>           Request body",
      "  -H, --header <NAME: VALUE>  Extra header as \"Name: value\". May be repeated",
      "      --token <TOKEN>         Access token; sent as \"Bearer <token>\" unless it already " ++
        "has a scheme [env: CALLGUARD_TOKEN]",
      "  -h, --help                  Print help"]
  | config =>
    ["Show the config file location and effective settings",
      "",
      "Usage: callguard config",
      "",
      "Options:",
      helpLine]
  | help =>
    ["Print this message or the help of the given subcommand(s)",
      "",
      "Usage: callguard help [COMMAND]...",
      "",
      "Arguments:",
      "  [COMMAND]...  Print help for the subcommand(s)"]

/-- The help text on a topic. -/
def text (t : Topic) : String := .join (t.lines.map (· ++ "\n"))

end Topic

end WebCall.Command
