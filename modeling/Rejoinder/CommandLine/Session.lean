import Rejoinder.CommandLine.Options
import Rejoinder.CommandLine.Report
import Rejoinder.Script.Directory

/-!
# Sessions

What the program does with its options: it loads the scripts, builds the rules, and then either
lists them or answers messages, one a line. Everything that is written is a value here, in the
order in which it is written; reading and writing are left to the outermost layer.
-/

set_option autoImplicit false

namespace Rejoinder.CommandLine

/-- Something that is written. -/
inductive Line
  /-- A line of the answer. -/
  | answer (text : String)
  /-- A line of diagnostics. -/
  | note (text : String)
  /-- A line of the log. -/
  | log (event : Event)
deriving DecidableEq, Repr

/-- A program that is answering messages. -/
structure Session where
  options : Options
  engine : Engine

/-- Whether the log shows events of a level: debug messages only if the settings ask for them. -/
def shows (config : Config) : Level → Bool
  | .debug => config.debug
  | _ => true

/-- The log lines for the events that an engine has written, and the engine without them. -/
def drain (e : Engine) : List Line × Engine :=
  ((e.events.filter fun event => shows e.config event.level).map .log, e.clearEvents)

/-- The scripts to be loaded, where `listing` tells what the directories hold. -/
def Options.source (o : Options) (listing : String → Directory.Listing) : Source :=
  match o.scripts with
  | some directory => Directory.source directory (listing directory)
  | none => Registry.empty.source

/-- A session with loaded scripts and built rules, and what is written on the way. -/
def Session.start (o : Options) (environment : Config) (source : Source) : List Line × Session :=
  let (report, engine) := (Engine.withGrammar (o.config environment) .bundled).load source
  let (loading, engine) := drain engine
  let notes := if o.verbose then (loadLines o.color report).map Line.note else []
  let (building, engine) := drain engine.buildCache
  (loading ++ notes ++ building, ⟨o, engine⟩)

/-- The lines that list the rules. -/
def Session.rules (s : Session) : List Line :=
  (rulesLines s.options.color s.engine.ruleTable.1).map .answer

/-- The message in a line, which may still have its line end. -/
def messageOf (line : String) : String :=
  String.ofList (line.toList.reverse.dropWhile fun c => c == '\r' || c == '\n').reverse

/-- The reply to a line, and the session after it. -/
def Session.reply (s : Session) (line : String) : ReplyDetails × Session :=
  let (details, engine) := s.engine.replyVerbose s.options.user (messageOf line)
  (details, { s with engine := engine })

/-- What is written about a reply that took some time, and the session after it. -/
def Session.report (s : Session) (elapsed : String) (d : ReplyDetails) : List Line × Session :=
  let (log, engine) := drain s.engine
  let notes :=
    if s.options.verbose then (replyLines s.options.color elapsed d).map Line.note else []
  (log ++ .answer d.reply :: notes, { s with engine := engine })

/-- A line is answered, in some time, and the session goes on. -/
def Session.answer (s : Session) (elapsed line : String) : List Line × Session :=
  let (details, s) := s.reply line
  s.report elapsed details

/-- What is written when the input is no text. -/
def unreadableInput : Line := .note "error: stream did not contain valid UTF-8"

/-- How a program ends. -/
structure Ending where
  code : Nat
  lines : List Line
deriving DecidableEq, Repr

/-- All lines of an input are answered in order, up to the first one that is no text. -/
def Session.converse (elapsed : String) (s : Session) : List (Option String) → Ending
  | [] => ⟨0, []⟩
  | none :: _ => ⟨1, [unreadableInput]⟩
  | some line :: rest =>
    let (lines, s) := s.answer elapsed line
    let ending := converse elapsed s rest
    ⟨ending.code, lines ++ ending.lines⟩

/-- What a program writes for its arguments, its environment, the directories it finds and its whole
input. -/
def runProgram (color : Bool) (elapsed : String) (environment : Config)
    (listing : String → Directory.Listing) (arguments : List String)
    (input : List (Option String)) : Ending :=
  match parse color arguments with
  | .error e => ⟨2, [.note e.message]⟩
  | .ok .help => ⟨0, [.answer helpText]⟩
  | .ok .version => ⟨0, [.answer versionText]⟩
  | .ok (.run o) =>
    let (lines, s) := Session.start o environment (o.source listing)
    let ending := if o.rules then ⟨0, s.rules⟩ else s.converse elapsed input
    ⟨ending.code, lines ++ ending.lines⟩

end Rejoinder.CommandLine
