import Rejoinder.Pattern.Grammar
import Rejoinder.Regex.Match
import Rejoinder.Handler
import Rejoinder.Text.Words

/-!
# Rules

A rule answers the messages that its pattern describes, and, if it has a previous pattern, only
when the last reply is described by that one. A rule is made from two pattern texts at once, but it
matches nothing before its patterns have been compiled against the alternates of its topic.

Rules are ranked by weight and then by score. Their names and handlers do not count, so different
rules may be of equal rank.
-/

set_option autoImplicit false

namespace Rejoinder

/-- Which of the two patterns of a rule. -/
inductive PatternField
  | pattern
  | previous
deriving DecidableEq, Repr

/-- The words for a pattern field. -/
def PatternField.label : PatternField → String
  | .pattern => "pattern"
  | .previous => "previous pattern"

/-- A rule that cannot be made, since one of its texts is no pattern. -/
structure RuleError where
  rule : String
  field : PatternField
  source : PatternError
deriving DecidableEq, Repr

/-- The words for a rule that cannot be made. -/
def RuleError.message (e : RuleError) : String :=
  e.source.message ++ " in " ++ e.field.label ++ " of " ++ e.rule

/-- The compiled patterns of a rule. -/
structure Matcher where
  pattern : Regex
  previous : Option Regex
deriving Repr

/-- A rule. -/
structure Rule where
  name : String
  weight : Int
  score : Nat
  pattern : Pattern
  previous : Option Pattern
  /-- The canonical text of the pattern. -/
  patternText : String
  /-- The canonical text of the previous pattern. -/
  previousText : Option String
  handler : Handler
  /-- The compiled patterns, if the last attempt to compile them succeeded. -/
  matcher : Option Matcher

/-- What tells the rules of a topic apart: the canonical texts of the two patterns. -/
abbrev RuleKey := String × Option String

/-- How the rules of a topic are declared. -/
structure RuleSpec where
  name : String
  pattern : String
  /-- The text of the previous pattern; a blank text stands for none. -/
  previous : String
  weight : Int
  handler : Handler

namespace Rule

/-- The previous pattern that a text stands for. -/
def parsePrevious (g : Grammar) (text : String) : Except PatternError (Option Pattern) :=
  if (Text.trim text.toList).isEmpty then .ok none else (g.parse text).map some

/-- The rule that a declaration describes, under a full name. -/
def ofSpec (g : Grammar) (name : String) (spec : RuleSpec) : Except RuleError Rule := do
  let pattern ← (g.parse spec.pattern).mapError (⟨name, .pattern, ·⟩)
  let previous ← (parsePrevious g spec.previous).mapError (⟨name, .previous, ·⟩)
  return {
    name := name
    weight := spec.weight
    score := g.score pattern
    pattern := pattern
    previous := previous
    patternText := g.format pattern
    previousText := previous.map g.format
    handler := spec.handler
    matcher := none }

/-- What tells the rule apart from the others of its topic. -/
def key (r : Rule) : RuleKey := (r.patternText, r.previousText)

/-- Whether the rule can match at all. -/
def isCompiled (r : Rule) : Bool := r.matcher.isSome

/-- The compiled patterns that the alternates make of the two patterns of a rule. -/
def compileMatcher (g : Grammar) (alternates : Alternates) (r : Rule) :
    Except PatternError Matcher := do
  let pattern ← g.compile alternates r.pattern
  let previous ← r.previous.mapM (g.compile alternates)
  return ⟨pattern, previous⟩

/-- The rule with its patterns compiled anew; without compiled patterns if that fails. -/
def compile (g : Grammar) (alternates : Alternates) (r : Rule) : Rule :=
  { r with matcher := (r.compileMatcher g alternates).toOption }

/-- Why the patterns of a rule do not compile, if they do not. -/
def compileError? (g : Grammar) (alternates : Alternates) (r : Rule) : Option PatternError :=
  match r.compileMatcher g alternates with
  | .ok _ => none
  | .error e => some e

/-- The number in the name of a group that counts: `match` and a number behind it. -/
def groupNumber? (name : String) : Option Nat :=
  match name.toList with
  | 'm' :: 'a' :: 't' :: 'c' :: 'h' :: digits => Text.number? digits
  | _ => none

/-- The numbered groups of a match. Where two groups have one number, the one that opens later
counts. -/
def groupsOf (names : List String) (marks : List Regex.Mark) : Groups :=
  names.foldl (fun groups name =>
    match groupNumber? name, Regex.captured? marks name with
    | some number, some text => groups.insert number (String.ofList text)
    | _, _ => groups) []

/-- Whether the condition on the last reply is met. -/
def Matcher.allows (m : Matcher) (previous : Option Text) : Bool :=
  match m.previous, previous with
  | none, _ => true
  | some _, none => false
  | some r, some text => r.isMatch text

/-- The groups of a normalized message, if the rule matches it after a last reply. -/
def match? (r : Rule) (message : Text) (previous : Option Text) : Option Groups := do
  let m ← r.matcher
  if Matcher.allows m previous then
    let marks ← m.pattern.find? message
    return groupsOf m.pattern.groupNames marks
  else none

/-- How two rules are ranked: by weight, and by score where the weights are equal. -/
def order (a b : Rule) : Ordering := (compare a.weight b.weight).then (compare a.score b.score)

/-- Whether the first rule ranks at least as high as the second. -/
def ranksBefore (a b : Rule) : Bool := order a b != .lt

end Rule

end Rejoinder
