import Rejoinder.CommandLine.Session

/-!
# The program

The outermost layer: it reads arguments, environment, directories and standard input, and writes
what a session says. Nothing is decided here.
-/

set_option autoImplicit false

namespace Rejoinder.CommandLine

/-- An entry of a directory with its name. A link that leads nowhere is an entry like any other. -/
def directoryEntry (entry : IO.FS.DirEntry) : IO (String × DirectoryEntry) := do
  let isFile ← try pure ((← entry.path.metadata).type == .file) catch _ => pure false
  if isFile then
    let text ← try some <$> IO.FS.readFile entry.path catch _ => pure none
    return (entry.fileName, .file text)
  else return (entry.fileName, .other)

/-- What can be seen of the directory at a path. -/
def directoryListing (path : String) : IO Directory.Listing := do
  let directory ← try some <$> IO.FS.realPath path catch _ => pure none
  match directory with
  | none => return .missing
  | some directory =>
    if !(← directory.isDir) then return .missing
    try
      let entries ← directory.readDir
      return .listed (← entries.toList.mapM directoryEntry)
    catch _ => return .unlisted

/-- Writes a line where it belongs. -/
def Line.write : Line → IO Unit
  | .answer text => do
    IO.println text
    (← IO.getStdout).flush
  | .note text => IO.eprintln text
  | .log event => IO.eprintln (event.level.label ++ " charge: " ++ logText event)

/-- A duration in the largest unit in which it is at least one. -/
def elapsedText (nanoseconds : Nat) : String :=
  let scaled (unit : Nat) (name : String) : String :=
    toString (nanoseconds / unit) ++ "." ++
      String.ofList ((toString (1000 + nanoseconds % unit * 1000 / unit)).toList.drop 1) ++ name
  if nanoseconds < 1000 then toString nanoseconds ++ "ns"
  else if nanoseconds < 1000000 then scaled 1000 "µs"
  else if nanoseconds < 1000000000 then scaled 1000000 "ms"
  else scaled 1000000000 "s"

/-- Reads on to the end of a line of standard input, of which these bytes have been read. -/
partial def readLine (line : ByteArray) : IO ByteArray := do
  let byte ← (← IO.getStdin).read 1
  let line := line ++ byte
  if byte.isEmpty ∨ byte.data = #[10] then return line else readLine line

/-- Answers the lines of standard input until it ends, with a prompt on a terminal. -/
partial def Session.loop (prompt : Bool) (s : Session) : IO UInt32 := do
  if prompt then
    IO.print (s.options.user ++ "> ")
    (← IO.getStdout).flush
  let bytes ← readLine .empty
  if bytes.isEmpty then return 0
  match String.fromUTF8? bytes with
  | none =>
    unreadableInput.write
    return 1
  | some line =>
    let before ← IO.monoNanosNow
    let (details, s) ← IO.lazyPure fun _ => s.reply line
    let after ← IO.monoNanosNow
    let (lines, s) := s.report (elapsedText (after - before)) details
    lines.forM Line.write
    s.loop prompt

end Rejoinder.CommandLine

open Rejoinder Rejoinder.CommandLine in
/-- Runs the program. -/
def main (arguments : List String) : IO UInt32 := do
  match parse (← (← IO.getStderr).isTty) arguments with
  | .error e =>
    IO.eprintln e.message
    return 2
  | .ok .help =>
    IO.println helpText
    return 0
  | .ok .version =>
    IO.println versionText
    return 0
  | .ok (.run o) =>
    let environment :=
      Config.ofEnvironment (← IO.getEnv "CHARGE_DEBUG") (← IO.getEnv "CHARGE_DEPTH")
    let listing ← match o.scripts with
      | some path => directoryListing path
      | none => pure .missing
    let (lines, s) := Session.start o environment (o.source fun _ => listing)
    lines.forM Line.write
    if o.rules then
      s.rules.forM Line.write
      return 0
    else s.loop (← (← IO.getStdin).isTty)
