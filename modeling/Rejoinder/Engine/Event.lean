import Rejoinder.Script.Basic

/-!
# Events

What an engine writes to its log. An event holds what happened; its level and its words follow from
that. Problems met while loading are events as well, and they are also kept in the load report.
-/

set_option autoImplicit false

namespace Rejoinder

/-- The kinds of declarations that an engine takes no notice of. -/
inductive UnsupportedKind
  | alternate
  | substitution
deriving DecidableEq, Repr

/-- The word for a kind of declaration. -/
def UnsupportedKind.label : UnsupportedKind → String
  | .alternate => "alternate"
  | .substitution => "substitute"

/-- A problem met while loading. -/
inductive LoadIssue
  | script (error : ScriptError)
  | rule (error : RuleError)
  /-- A rule whose pair of patterns is taken by a rule with another handler. The pattern texts are
  those of the declaration. -/
  | duplicateRule (topic pattern previous rule existing : String)
  | unsupported (script : String) (kind : UnsupportedKind) (name : String)
  | noRules (source : String)
deriving DecidableEq, Repr

/-- The words for a problem. -/
def LoadIssue.message : LoadIssue → String
  | .script error => "failed to load script: " ++ error.message
  | .rule error => "rule rejected: " ++ error.message
  | .duplicateRule topic pattern previous name existing =>
    "ignoring pattern \"" ++ pattern ++ "\",\"" ++ previous ++ "\" at " ++ name ++
      " because it is a duplicate of the pattern of " ++ existing ++ " for the topic \"" ++ topic ++
      "\""
  | .unsupported declarer kind name =>
    declarer ++ ": " ++ kind.label ++ " declaration \"" ++ name ++
      "\" is not supported and was ignored"
  | .noRules source => "no rules were found in " ++ source

/-- How urgent an event is. -/
inductive Level
  | debug
  | warn
  | error
deriving DecidableEq, Repr

/-- The name of a level. -/
def Level.label : Level → String
  | .debug => "DEBUG"
  | .warn => "WARN"
  | .error => "ERROR"

/-- Something that an engine writes to its log. -/
inductive Event
  | created
  | loadingFrom (source : String)
  | loadingScript (script : String)
  | ruleLoaded (pattern previous : String) (weight : Int) (rule : String)
  | issue (problem : LoadIssue)
  | compileFailed (topic rule : String) (error : PatternError)
  | asked (user message : String)
  | refused (user message : String) (limit : Nat)
  | topicGone (user topic : String)
  | normalized (text : String)
  | matched (rule : String)
  | handlerFailed (rule : String) (error : HandlerError)
  | emptyReply
deriving DecidableEq, Repr

/-- The level at which a problem is written. -/
def LoadIssue.level : LoadIssue → Level
  | .unsupported .. => .debug
  | .duplicateRule .. => .warn
  | .script _ => .error
  | .rule _ => .error
  | .noRules _ => .error

/-- The level at which an event is written. -/
def Event.level : Event → Level
  | .issue problem => problem.level
  | .compileFailed .. => .warn
  | .refused .. => .warn
  | .topicGone .. => .warn
  | .handlerFailed .. => .error
  | _ => .debug

/-- The words for an event. -/
def Event.message : Event → String
  | .created => "Chatbot instance created."
  | .loadingFrom source => "Loading from " ++ source
  | .loadingScript script => "Loading scripts from " ++ script
  | .ruleLoaded pattern previous weight rule =>
    "Loaded pattern \"" ++ pattern ++ "\", previous=\"" ++ previous ++ "\", weight=" ++
      toString weight ++ ", rule = " ++ rule
  | .issue problem => problem.message
  | .compileFailed topic rule error =>
    "Failed to cache regex for " ++ rule ++ " in topic \"" ++ topic ++ "\": " ++ error.message
  | .asked user message => "Asked to reply to: \"" ++ message ++ "\" from " ++ user
  | .refused user message limit =>
    "Refusing to reply to \"" ++ message ++ "\" from " ++ user ++ ": recursion depth limit of " ++
      toString limit ++ " reached"
  | .topicGone user topic =>
    "User " ++ user ++ " is in empty topic " ++ topic ++ ", returning to '" ++ defaultTopic ++ "'"
  | .normalized text => "Normalized message to \"" ++ text ++ "\""
  | .matched rule => "Found pattern match, rule " ++ rule
  | .handlerFailed rule error => "Rule " ++ rule ++ " failed: " ++ error.message
  | .emptyReply => "Empty reply generated"

end Rejoinder
