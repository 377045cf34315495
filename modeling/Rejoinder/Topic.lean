import Rejoinder.Rule

/-!
# Topics

A topic is a named set of rules together with the alternates that their patterns may refer to. No
two of its rules have the same pair of patterns. The rules stay in the order in which they were
registered; `build` ranks them and compiles their patterns.
-/

set_option autoImplicit false

namespace Rejoinder

/-- A topic. -/
structure Topic where
  name : String
  /-- The rules in the order of registration. -/
  rules : List Rule
  /-- The place of the rule with a pair of patterns. -/
  index : Table RuleKey Nat
  alternates : Alternates
  /-- The places of the rules, those of the highest rank first, as of the last build. -/
  ranking : List Nat

/-- What comes of registering a rule. -/
inductive Registration
  | added
  /-- The pair of patterns is registered with the same handler. -/
  | alreadyPresent
  /-- The pair of patterns is registered with another handler, by the rule of this name. -/
  | conflict (existing : String)
deriving DecidableEq, Repr

namespace Topic

/-- A topic without rules and alternates. -/
def new (name : String) : Topic := ⟨name, [], .empty, .empty, []⟩

/-- The rule that is registered with a pair of patterns. -/
def find? (t : Topic) (key : RuleKey) : Option Rule := do
  t.rules[← t.index.get? key]?

/-- The topic with a rule registered, unless its pair of patterns is taken. -/
def insert (t : Topic) (rule : Rule) : Topic × Registration :=
  match t.find? rule.key with
  | some existing =>
    if existing.handler.identity = rule.handler.identity then (t, .alreadyPresent)
    else (t, .conflict existing.name)
  | none =>
    ({ t with rules := t.rules ++ [rule], index := t.index.insert rule.key t.rules.length }, .added)

/-- The topic with an alternate added or replaced. -/
def addAlternate (t : Topic) (name value : String) : Topic :=
  { t with alternates := t.alternates.insert name value }

/-- The places of rules, those of the highest rank first; rules of equal rank stay in order. -/
def rank (rules : List Rule) : List Nat :=
  (rules.zipIdx.mergeSort fun a b => a.1.ranksBefore b.1).map Prod.snd

/-- The topic with its rules ranked and compiled. -/
def build (g : Grammar) (t : Topic) : Topic :=
  { t with ranking := rank t.rules, rules := t.rules.map (Rule.compile g t.alternates) }

/-- The rules that do not compile, with the reasons, in the order of registration. -/
def failures (g : Grammar) (t : Topic) : List (String × PatternError) :=
  t.rules.filterMap fun r => (r.compileError? g t.alternates).map fun e => (r.name, e)

/-- The rules in the order of the last ranking. -/
def ranked (t : Topic) : List Rule := t.ranking.filterMap fun i => t.rules[i]?

end Topic

end Rejoinder
