import Rejoinder.Engine.Load
import Rejoinder.Engine.Reply
import Rejoinder.Engine.Summary

/-!
# Reports

How the command line shows loads, rules, replies and events. Colours are terminal codes around a
text; without colours the texts stand alone.
-/

set_option autoImplicit false

namespace Rejoinder.CommandLine

/-- A terminal style. -/
inductive Style
  | dim
  | bold
  | red
  | green
  | yellow
  | blue
  | cyan
  | gray
deriving DecidableEq, Repr

/-- The terminal code that switches a style on. -/
def Style.code : Style → String
  | .dim => "\x1b[2m"
  | .bold => "\x1b[1m"
  | .red => "\x1b[31m"
  | .green => "\x1b[32m"
  | .yellow => "\x1b[33m"
  | .blue => "\x1b[34m"
  | .cyan => "\x1b[36m"
  | .gray => "\x1b[90m"

/-- A text in a style, if colours are used. -/
def paint (color : Bool) (style : Style) (text : String) : String :=
  if color then style.code ++ text ++ "\x1b[0m" else text

/-- The colour in which a problem is marked. -/
def issueStyle : LoadIssue → Style
  | .unsupported .. => .gray
  | .duplicateRule .. => .yellow
  | .noRules _ => .yellow
  | .script _ => .red
  | .rule _ => .red

/-- The lines about a load: its counts, and one line for each problem. -/
def loadLines (color : Bool) (r : LoadReport) : List String :=
  (paint color .bold (paint color .cyan ("⚙  Loaded " ++ r.source)) ++ " " ++
    paint color .blue (toString r.scripts ++ " scripts") ++ " " ++
    paint color .green (toString r.rules ++ " rules")) ::
  r.issues.map fun issue => "  " ++ paint color (issueStyle issue) "•" ++ " " ++ issue.message

/-- The two lines about the rule at a place of the table. -/
def ruleLines (color : Bool) (place : Nat) (r : RuleSummary) : List String :=
  let pattern :=
    if r.cached then paint color .bold (paint color .green r.pattern)
    else paint color .dim r.pattern
  let previous := match r.previous with
    | some text => "  " ++ paint color .dim "│ previous:" ++ " " ++ text
    | none => ""
  let broken := if r.cached then "" else "  " ++ paint color .red "✗ not compiled"
  ["  " ++ paint color .gray ("[" ++ toString place ++ "]") ++ " " ++ pattern ++ " " ++
      paint color .dim "│" ++ " " ++
      paint color .yellow ("weight " ++ toString r.weight ++ " score " ++ toString r.score),
    "      " ++ paint color .dim "rule:" ++ " " ++ paint color .cyan r.rule ++ previous ++ broken]

/-- The lines about the rules from a place of the table on, with a heading wherever the topic is
another one than `topic`. -/
def tableLines (color : Bool) (topic : Option String) : List (RuleSummary × Nat) → List String
  | [] => []
  | (r, place) :: rest =>
    (if topic = some r.topic then []
      else ["", paint color .gray ("━━━ Topic \"" ++ r.topic ++ "\" ━━━")]) ++
      ruleLines color place r ++ tableLines color (some r.topic) rest

/-- The lines about all rules, with an empty line at the end. -/
def rulesLines (color : Bool) (rows : List RuleSummary) : List String :=
  tableLines color none rows.zipIdx ++ [""]

/-- The words for an outcome. -/
def outcomeText (color : Bool) : Outcome → String
  | .replied => paint color .green "✓ replied"
  | .noMatch => paint color .dim "✗ no match"
  | .handlerFailed => paint color .red "✗ handler failed"
  | .depthExceeded => paint color .yellow "✗ depth limit"

/-- The two lines about a reply that took some time. -/
def replyLines (color : Bool) (elapsed : String) (d : ReplyDetails) : List String :=
  let rule := match d.rule with
    | some name => paint color .cyan name
    | none => paint color .dim "-"
  ["  " ++ paint color .dim "normalized:" ++ " \"" ++ paint color .blue d.normalized ++ "\"  " ++
      paint color .dim "│ rule:" ++ " " ++ rule ++ "  " ++ paint color .dim "│" ++ " " ++
      outcomeText color d.outcome,
    "  " ++ paint color .dim "considered:" ++ " " ++ toString d.considered ++ "  " ++
      paint color .dim "│ time:" ++ " " ++ paint color .green elapsed]

/-- A log line shows the control characters that a terminal would obey as escapes. -/
def logChar (c : Char) : Text :=
  if c = '\x1b' then ['\\', 'x', '1', 'b']
  else if c = '\x07' then ['\\', 'x', '0', '7']
  else if c = '\x08' then ['\\', 'x', '0', '8']
  else if c = '\x0c' then ['\\', 'x', '0', 'c']
  else if c = '\x7f' then ['\\', 'x', '7', 'f']
  else if 0x80 ≤ c.toNat ∧ c.toNat ≤ 0x9f then
    ['\\', 'u', '\x7b'] ++ Nat.toDigits 16 c.toNat ++ ['\x7d']
  else [c]

/-- The words of an event in the log. -/
def logText (event : Event) : String := String.ofList (event.message.toList.flatMap logChar)

end Rejoinder.CommandLine
