import OneShot.Cli.Arguments

/-! # Help texts

The text of each topic: what it is about, how it is used, and its commands or options in two
columns.
-/

namespace OneShot.Cli

/-- Two columns, indented, the second aligned. -/
def columns (rows : List (String × String)) : String :=
  let width := (rows.map (·.1.length)).foldl max 0
  String.join (rows.map fun (left, right) =>
    "  " ++ left ++ String.ofList (List.replicate (width - left.length) ' ') ++ "  " ++ right ++
      "\n")

/-- A help text from its parts. -/
def helpText (about usage : String) (parts : List (String × List (String × String))) : String :=
  about ++ "\n\nUsage: " ++ usage ++ "\n" ++
    String.join (parts.map fun (title, rows) => "\n" ++ title ++ ":\n" ++ columns rows)

/-- The name and the version of the program. -/
def versionText : String := "unixcall 0.1.0\n"

namespace Topic

def about : Topic → String
  | .program => "unixcall — single-shot JSON request/reply over a Unix domain socket"
  | .call => "Send one message and print the reply. Ctrl-C or SIGTERM cancels it"
  | .serve => "Run the reference server until Ctrl-C or SIGTERM"
  | .config => "Validate and display configuration"
  | .help => "Print this message or the help of the given subcommand(s)"

def usage : Topic → String
  | .program => "unixcall [OPTIONS] <COMMAND>"
  | .call => "unixcall call [OPTIONS]"
  | .serve => "unixcall serve [OPTIONS]"
  | .config => "unixcall config [OPTIONS]"
  | .help => "unixcall help [COMMAND]..."

def helpRow : String × String := ("-h, --help", "Print help")

def parts : Topic → List (String × List (String × String))
  | .program =>
    [("Commands",
      [("call", call.about), ("serve", serve.about), ("config", config.about),
       ("help", help.about)]),
     ("Options",
      [("-c, --config <CONFIG>", "Path to configuration file [default: unixcall.toml]"),
       ("-v, --verbose...", "Increase log verbosity (-v, -vv)"), helpRow,
       ("-V, --version", "Print version")])]
  | .call =>
    [("Options",
      [("-s, --socket <SOCKET>", "Socket path (overrides client.socket_path)"),
       ("    --framing <FRAMING>", "Framing mode (overrides client.framing)"),
       ("-t, --text <TEXT>", "Message text [default: \"Hello, server!\"]"),
       ("    --id <ID>", "Message id [default: 1]"),
       ("    --json", "Print the reply as a JSON line instead of a summary"), helpRow])]
  | .serve =>
    [("Options",
      [("-s, --socket <SOCKET>", "Socket path (overrides server.socket_path)"),
       ("    --framing <FRAMING>", "Framing mode (overrides server.framing)"),
       ("    --prefix <PREFIX>", "Reply prefix (overrides server.reply_prefix)"), helpRow])]
  | .config =>
    [("Options", [("    --show", "Show the resolved configuration"), helpRow])]
  | .help =>
    [("Arguments", [("[COMMAND]...", "Print help for the subcommand(s)")])]

/-- The help text of a topic. -/
def text (t : Topic) : String := helpText t.about t.usage t.parts

end Topic

end OneShot.Cli
