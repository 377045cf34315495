import Mathlib.Logic.Function.Basic
import Rejoinder.Proofs.Table
import Rejoinder.Script.Basic
import Rejoinder.Topic

/-!
# Handlers under other identities

The identity of a handler serves one purpose: it is compared with that of another handler when a
pair of patterns is registered twice. So rules may be given other identities throughout. As long as
different identities stay different, everything is registered as before (`Topic.insert_relabel`).
-/

set_option autoImplicit false

namespace Rejoinder

variable {f : Identity → Identity}

/-- The identities under another numbering of the scripts. Shared names stay. -/
def Identity.renumber (place : Nat → Nat) : Identity → Identity
  | .shared name => .shared name
  | .declared script rule => .declared (place script) rule

/-- Places that stay apart keep the identities apart that are made of them. -/
theorem Identity.renumber_injective {place : Nat → Nat} (h : Function.Injective place) :
    Function.Injective (renumber place) := by
  intro i j hij
  cases i <;> cases j <;> simp_all [renumber, h.eq_iff]

/-- A handler with another identity. -/
def Handler.relabel (f : Identity → Identity) (h : Handler) : Handler :=
  { h with identity := f h.identity }

/-- What a script says of a rule, with another identity of its handler. -/
def RuleSpec.relabel (f : Identity → Identity) (spec : RuleSpec) : RuleSpec :=
  { spec with handler := spec.handler.relabel f }

/-- A declaration with another identity of its handler, if it has one. -/
def Declaration.relabel (f : Identity → Identity) : Declaration → Declaration
  | .rule spec => .rule (spec.relabel f)
  | .alternate name value => .alternate name value
  | .substitution word replacement => .substitution word replacement

/-- A script with other identities of its handlers. -/
def Script.relabel (f : Identity → Identity) (s : Script) : Script :=
  { s with declarations := s.declarations.map (Declaration.relabel f) }

/-- A rule with another identity of its handler. -/
def Rule.relabel (f : Identity → Identity) (r : Rule) : Rule :=
  { r with handler := r.handler.relabel f }

/-- A topic with other identities of its handlers. -/
def Topic.relabel (f : Identity → Identity) (t : Topic) : Topic :=
  { t with rules := t.rules.map (Rule.relabel f) }

/-- A script whose identities are kept is the script itself. -/
theorem Script.relabel_id (s : Script) : s.relabel id = s := by
  have hdeclaration : Declaration.relabel id = id := by
    funext d
    cases d <;> rfl
  rw [relabel, hdeclaration, List.map_id]

/-- The rule of a declaration has the handler of the declaration. -/
theorem Rule.ofSpec_relabel (f : Identity → Identity) (g : Grammar) (name : String)
    (spec : RuleSpec) :
    Rule.ofSpec g name (spec.relabel f) = (Rule.ofSpec g name spec).map (Rule.relabel f) := by
  simp only [Rule.ofSpec, RuleSpec.relabel]
  cases g.parse spec.pattern with
  | error error => rfl
  | ok pattern =>
    cases Rule.parsePrevious g spec.previous with
    | error error => rfl
    | ok previous => rfl

/-- The pair of patterns of a rule does not depend on its handler. -/
@[simp] theorem Rule.key_relabel (r : Rule) : (r.relabel f).key = r.key := rfl

namespace Topic

variable {t : Topic} {r : Rule}

/-- A topic whose identities are kept is the topic itself. -/
theorem relabel_id (t : Topic) : t.relabel id = t := by
  have hrule : Rule.relabel id = id := rfl
  rw [relabel, hrule, List.map_id]

/-- Topics whose identities are kept are the topics themselves. -/
theorem map_relabel_id (topics : Table String Topic) : topics.map (relabel id) = topics :=
  Table.map_eq_self fun _ t _ => t.relabel_id

/-- In a topic with other identities the same rule is found, with another identity of its handler.
-/
theorem find?_relabel (key : RuleKey) :
    (t.relabel f).find? key = (t.find? key).map (Rule.relabel f) := by
  simp only [find?, relabel]
  cases t.index.get? key with
  | none => rfl
  | some place => exact List.getElem?_map

/-- A rule is registered as it is under its old identity. -/
theorem insert_relabel (hf : Function.Injective f) (t : Topic) (r : Rule) :
    (t.relabel f).insert (r.relabel f) = ((t.insert r).1.relabel f, (t.insert r).2) := by
  rw [insert, insert, Rule.key_relabel, find?_relabel]
  cases t.find? r.key with
  | none => simp [relabel]
  | some existing =>
    have hsame : (existing.relabel f).handler.identity = (r.relabel f).handler.identity ↔
        existing.handler.identity = r.handler.identity := hf.eq_iff
    simp only [Option.map_some, hsame]
    split <;> rfl

end Topic

end Rejoinder
