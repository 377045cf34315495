import Rejoinder.Config
import Rejoinder.Text.Words

/-!
# Command line options

The arguments of the program are read from left to right. An option with a value is written with
the value as the next argument or, in its long form, behind an equals sign. Asking for help or for
the version ends the reading at once; everything else is decided at the end.
-/

set_option autoImplicit false

namespace Rejoinder.CommandLine

/-- What the arguments say. -/
structure Options where
  /-- The directory of the script files. -/
  scripts : Option String
  user : String
  depth : Option Nat
  debug : Bool
  /-- Whether the rules are listed instead of answering messages. -/
  rules : Bool
  verbose : Bool
  color : Bool
deriving DecidableEq, Repr

/-- What the program is asked to do. -/
inductive Command
  | help
  | version
  | run (options : Options)
deriving DecidableEq, Repr

/-- Why the arguments are refused. -/
inductive UsageError
  | missingDirectory
  | missingName
  | missingNumber
  | invalidDepth (value : String)
  | unknownArgument (argument : String)
  | emptyUser
deriving DecidableEq, Repr

/-- The version of the program. -/
def versionText : String := "charge 0.1.0"

/-- How the program is used. -/
def helpText : String :=
  versionText ++ "\n\n" ++
  "Rule-based chatbot. Reads one message per line from stdin and prints one reply\n" ++
  "per line (an empty line when nothing matched).\n\n" ++
  "Usage:\n" ++
  "  charge [OPTIONS]\n\n" ++
  "Options:\n" ++
  "  -s, --scripts <dir>        Load every *.json rule file in <dir>.\n" ++
  "  -u, --user <name>          Name of the user talking to the bot. Default: user\n" ++
  "  --depth <n>                Nesting limit for replies. Default: " ++
    toString Config.defaultDepthLimit ++ "\n" ++
  "  --debug                    Turn on debug logging (also CHARGE_DEBUG=1).\n" ++
  "  --rules                    Print the rule table in priority order and exit.\n" ++
  "  -v, --verbose              Print the load report and per-reply details to stderr.\n" ++
  "  --color                    Force ANSI color output.\n" ++
  "  --no-color                 Disable ANSI color output.\n" ++
  "  -h, --help                 Show this help message.\n" ++
  "  -V, --version              Print version information.\n\n" ++
  "Exit codes:\n" ++
  "  0  Success.\n" ++
  "  1  I/O error.\n" ++
  "  2  Invalid arguments.\n"

/-- The words for refused arguments. -/
def UsageError.message : UsageError → String
  | .missingDirectory => "error: --scripts expects a directory"
  | .missingName => "error: --user expects a name"
  | .missingNumber => "error: --depth expects a number"
  | .invalidDepth value =>
    "error: invalid --depth '" ++ value ++ "' (expected a non-negative number)"
  | .unknownArgument argument => "error: unknown argument '" ++ argument ++ "'\n\n" ++ helpText
  | .emptyUser => "error: --user must not be empty"

namespace Options

/-- What holds if nothing is said; colours are used if the diagnostics go to a terminal. -/
def default (color : Bool) : Options := ⟨none, "user", none, false, false, false, color⟩

/-- The value in an argument that begins with the name of an option and an equals sign. Such a
beginning is taken off as often as it is there. -/
def inlineValue? (option argument : String) : Option String :=
  if option.toList.isPrefixOf argument.toList then
    some (String.ofList (Text.dropRepeated option.toList argument.toList))
  else none

/-- The options with the depth limit that a text names. -/
def withDepth (o : Options) (value : String) : Except UsageError Options :=
  match Text.number? value.toList with
  | some depth => .ok { o with depth := some depth }
  | none => .error (.invalidDepth value)

/-- An argument that needs no other one to follow. -/
def single (o : Options) (argument : String) : Except UsageError Options :=
  if argument = "--color" then .ok { o with color := true }
  else if argument = "--no-color" then .ok { o with color := false }
  else if argument = "--debug" then .ok { o with debug := true }
  else if argument = "--rules" then .ok { o with rules := true }
  else if argument = "--verbose" ∨ argument = "-v" then .ok { o with verbose := true }
  else match inlineValue? "--scripts=" argument with
    | some value => .ok { o with scripts := some value }
    | none => match inlineValue? "--user=" argument with
      | some value => .ok { o with user := value }
      | none => match inlineValue? "--depth=" argument with
        | some value => o.withDepth value
        | none => .error (.unknownArgument argument)

/-- What arguments ask for, on top of the options read so far. -/
def read (o : Options) : List String → Except UsageError Command
  | [] => if (Text.trim o.user.toList).isEmpty then .error .emptyUser else .ok (.run o)
  | argument :: rest =>
    if argument = "-h" ∨ argument = "--help" then .ok .help
    else if argument = "-V" ∨ argument = "--version" then .ok .version
    else if argument = "--scripts" ∨ argument = "-s" then
      match rest with
      | [] => .error .missingDirectory
      | value :: rest => read { o with scripts := some value } rest
    else if argument = "--user" ∨ argument = "-u" then
      match rest with
      | [] => .error .missingName
      | value :: rest => read { o with user := value } rest
    else if argument = "--depth" then
      match rest with
      | [] => .error .missingNumber
      | value :: rest =>
        match o.withDepth value with
        | .ok o => read o rest
        | .error e => .error e
    else
      match o.single argument with
      | .ok o => read o rest
      | .error e => .error e

/-- The settings of the engine: those of the environment, changed by the options. -/
def config (o : Options) (environment : Config) : Config :=
  { environment with
    debug := o.debug || environment.debug
    depthLimit := o.depth.getD environment.depthLimit }

end Options

/-- What the arguments ask for. -/
def parse (color : Bool) (arguments : List String) : Except UsageError Command :=
  (Options.default color).read arguments

end Rejoinder.CommandLine
