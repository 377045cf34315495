import Rejoinder.Script.File

/-!
# Scripts from a directory

Every regular file of a directory whose extension is `json`, in any case, is one script. The files
are loaded in ascending order of their names, and a script is named after its file. A rule of a file
either replies with a template or redirects: it answers with the reply to the filled template.
-/

set_option autoImplicit false

namespace Rejoinder

/-- An entry of a directory. -/
inductive DirectoryEntry
  /-- A regular file, with its text if it can be read as text. -/
  | file (text : Option String)
  /-- Anything that is no regular file, or cannot be looked at. -/
  | other
deriving Repr

/-- What a look at a path shows of the directory there. -/
inductive Directory.Listing
  /-- There is no directory at the path. -/
  | missing
  /-- There is a directory, and it cannot be listed. -/
  | unlisted
  | listed (entries : List (String × DirectoryEntry))
deriving Repr

namespace Directory.Listing

/-- The entries that are seen. -/
def entries : Listing → List (String × DirectoryEntry)
  | .missing | .unlisted => []
  | .listed entries => entries

/-- Where every directory can be listed, there is one with its entries or none. -/
instance : Coe (Option (List (String × DirectoryEntry))) Listing where
  coe
    | none => .missing
    | some entries => .listed entries

/-- Where every directory can be listed, so can those at all paths. -/
instance : Coe (String → Option (List (String × DirectoryEntry))) (String → Listing) where
  coe content path := content path

end Directory.Listing

namespace ScriptFile

/-- The response of a rule that has exactly one, as a program. -/
def program (r : FileRule) : Except ResponseFault (List Action) :=
  match r.reply, r.redirect with
  | some reply, none => .ok [.template reply]
  | none, some redirect => .ok [.reply [.template redirect]]
  | some _, some _ => .error .both
  | none, none => .error .neither

/-- The name of a rule: its own, or one made from its place in the file. -/
def ruleName (place : Nat) (r : FileRule) : String := r.name.getD ("rule" ++ toString place)

/-- The declaration of the rule at a place of a file, which is the script at a place of a source. -/
def declaration (path : String) (script : Nat) (r : FileRule) (place : Nat) :
    Except ScriptError Declaration :=
  match program r with
  | .error fault => .error (.invalid path (ruleName place r) fault)
  | .ok program => .ok (.rule {
      name := ruleName place r
      pattern := r.pattern
      previous := r.previous
      weight := r.weight
      handler := ⟨.declared script place, program⟩ })

/-- The script that a file describes: its rules in the order of the file, then its alternates, then
its substitutions. Without a response to every rule there is no script at all. -/
def toScript (path name : String) (place : Nat) (f : ScriptFile) : Except ScriptError Script := do
  let rules ← f.rules.zipIdx.mapM fun r => declaration path place r.1 r.2
  return {
    name := name
    topic := f.topic
    setup := .supply f.botvars
    declarations := rules ++ f.alternates.map (fun a => .alternate a.1 a.2) ++
      f.substitutions.map (fun s => .substitution s.1 s.2) }

end ScriptFile

namespace Directory

/-- The name of a file without its extension, and the extension: what stands behind the last point,
if anything stands before that point. -/
def splitExtension (name : Text) : Text × Option Text :=
  match name.reverse.dropWhile (· != '.') with
  | '.' :: first :: before =>
    ((first :: before).reverse, some (name.reverse.takeWhile (· != '.')).reverse)
  | _ => (name, none)

/-- Whether a file of this name is a script. -/
def isScriptName (name : String) : Bool :=
  match (splitExtension name.toList).2 with
  | some extension => extension.map Char.toLower == ['j', 's', 'o', 'n']
  | none => false

/-- The name of the script in a file of this name. -/
def scriptName (name : String) : String := String.ofList (splitExtension name.toList).1

/-- The path of a file in a directory. -/
def filePath (directory name : String) : String :=
  if directory.toList.getLast? = some '/' then directory ++ name else directory ++ "/" ++ name

/-- The script in a file, which is the script at a place of a source. -/
def load (path name : String) (text : Option String) (place : Nat) : Except ScriptError Script :=
  match text with
  | none => .error (.unreadable path)
  | some text =>
    match ScriptFile.ofText? text.toList with
    | none => .error (.malformed path)
    | some file => file.toScript path (scriptName name) place

/-- The script files among the entries of a directory, in ascending order of their names. -/
def scriptFiles (entries : List (String × DirectoryEntry)) : List (String × Option String) :=
  let files := entries.filterMap fun e =>
    match e.2 with
    | .file text => if isScriptName e.1 then some (e.1, text) else none
    | .other => none
  files.mergeSort fun a b => !(b.1 < a.1)

/-- The scripts of the directory at a path. Without its entries there is one script that is missing:
all of them. -/
def source (path : String) (listing : Listing) : Source :=
  ⟨path ++ "/*.json",
    match listing with
    | .missing => [.error (.notADirectory path)]
    | .unlisted => [.error (.unreadable path)]
    | .listed entries =>
      (scriptFiles entries).zipIdx.map fun f => load (filePath path f.1.1) f.1.1 f.1.2 f.2⟩

end Directory

end Rejoinder
