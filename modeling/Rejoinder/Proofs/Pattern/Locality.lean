import Mathlib
import Rejoinder.Proofs.Pattern.Expansion
import Rejoinder.Proofs.Topic.Build

/-!
# What a pattern depends on

Resolving a pattern looks up only names that can be reached from it, so two tables of alternates
that agree on these names make the same of it (`resolve_congr`). The two tables may differ in size,
and then the references are counted with different budgets, but neither budget runs out.

This carries over to rules as far as the grammar looks at alternates only by resolving patterns, as
the bundled grammar does (`Grammar.DrawsOnReferences`). An alternate that a rule cannot reach does
not change how it is compiled (`Rule.compile_insert`). Where a rule has been compiled all names that
it reaches are stored, so an alternate of a new name never changes it
(`Rule.compile_insert_of_isCompiled`).
-/

set_option autoImplicit false

namespace Rejoinder

namespace Pattern

/-! ## Two ways to replace references -/

section Replace

variable {expand expand' : String → Except PatternError ResolvedPattern}

mutual

/-- What an element is resolved to depends on the names in it only. -/
theorem replaceElement_congr (e : Element)
    (h : ∀ name ∈ elementReferences e, expand' name = expand name) :
    replaceElement expand' e = replaceElement expand e := by
  cases e with
  | word letters => rfl
  | anyWords => rfl
  | anyWord => rfl
  | choice branches =>
    rw [elementReferences] at h
    rw [replaceElement, replaceElement, replaceBranches_congr branches h]
  | optional body =>
    rw [elementReferences] at h
    rw [replaceElement, replaceElement, replaceElements_congr body h]
  | reference name =>
    rw [elementReferences] at h
    rw [replaceElement, replaceElement, h name List.mem_cons_self]

/-- Replacing the references of a pattern uses only what becomes of these references. -/
theorem replaceElements_congr (es : List Element)
    (h : ∀ name ∈ elementsReferences es, expand' name = expand name) :
    replaceElements expand' es = replaceElements expand es := by
  cases es with
  | nil => rfl
  | cons e es =>
    rw [elementsReferences, List.forall_mem_append] at h
    rw [replaceElements, replaceElements, replaceElement_congr e h.1,
      replaceElements_congr es h.2]

/-- What branches are resolved to depends on the names in them only. -/
theorem replaceBranches_congr (bs : List (List Element))
    (h : ∀ name ∈ branchesReferences bs, expand' name = expand name) :
    replaceBranches expand' bs = replaceBranches expand bs := by
  cases bs with
  | nil => rfl
  | cons b bs =>
    rw [branchesReferences, List.forall_mem_append] at h
    rw [replaceBranches, replaceBranches, replaceElements_congr b h.1,
      replaceBranches_congr bs h.2]

end

end Replace

/-! ## Two tables of alternates -/

section Tables

variable {alternates alternates' : Alternates} {around : List String} {name : String}
  {budget budget' : Nat} {p : Pattern}

/-- Whether an alternate can stand for a reference depends on what is stored under its name. -/
theorem fragment?_congr (h : alternates'.get? name = alternates.get? name) (around : List String) :
    fragment? alternates' around name = fragment? alternates around name := by
  rw [fragment?, fragment?, h]

/-- The pattern that is stored under a name depends on the alternate of that name only. -/
theorem stored?_congr (h : alternates'.get? name = alternates.get? name) :
    stored? alternates' name = stored? alternates name := by
  rw [stored?, stored?, h]

/-- A reference expands in the same way if the tables agree on all names that it reaches, whatever
budgets they leave, as long as each of them is enough for its table. -/
theorem expandReference_congr (hbudget : Affordable alternates budget around)
    (hbudget' : Affordable alternates' budget' around)
    (h : ∀ other, Relation.ReflTransGen (Refers alternates) name other →
      alternates'.get? other = alternates.get? other) :
    expandReference alternates' budget' around name =
      expandReference alternates budget around name := by
  induction budget generalizing budget' around name with
  | zero => exact absurd hbudget not_affordable_zero
  | succ budget ih =>
    cases budget' with
    | zero => exact absurd hbudget' not_affordable_zero
    | succ budget' =>
      have hname := h name .refl
      rw [expandReference, expandReference, fragment?_congr hname]
      cases hchecks : fragment? alternates around name with
      | error error => rfl
      | ok fragment =>
        obtain ⟨hnew, hstored⟩ := fragment?_eq_ok_iff.mp hchecks
        have hstored' := (stored?_congr hname).trans hstored
        rw [ok_bind, ok_bind]
        refine replaceElements_congr fragment fun other hother => ?_
        exact ih (hbudget.inside hnew hstored) (hbudget'.inside hnew hstored')
          fun deeper hdeeper => h deeper (.head ⟨fragment, hstored, hother⟩ hdeeper)

/-- A pattern is resolved in the same way if the tables agree on all names that can be reached. -/
theorem resolve_congr
    (h : ∀ name, Reaches alternates p name → alternates'.get? name = alternates.get? name) :
    p.resolve alternates' = p.resolve alternates := by
  rw [resolve, resolve]
  refine replaceElements_congr p fun first hfirst => ?_
  exact expandReference_congr affordable_nil affordable_nil
    fun other hother => h other ⟨first, hfirst, hother⟩

/-- The text of a name that cannot be reached does not count. -/
theorem resolve_insert (hfree : ¬ Reaches alternates p name) (value : String) :
    p.resolve (alternates.insert name value) = p.resolve alternates := by
  refine resolve_congr fun other hother => ?_
  rw [Table.get?_insert, if_neg]
  rintro rfl
  exact hfree hother

/-- Every name that can be reached from a pattern that is resolved is stored. -/
theorem contains_of_reaches {q : ResolvedPattern} (h : p.resolve alternates = .ok q)
    (hreach : Reaches alternates p name) : alternates.contains name = true := by
  have hrender : p.render alternates = .ok q.body := by
    rw [render, h]
    rfl
  obtain ⟨⟨source, _, hsource, _⟩, _⟩ :=
    faultless_iff.mp (faultless_of_render_eq_ok hrender) name hreach
  exact Table.contains_iff.mpr ⟨source, hsource⟩

end Tables

end Pattern

/-! ## Grammars -/

/-- The grammar looks at alternates only by resolving patterns: what it makes of a pattern is made
from the resolved pattern, or it is the same for all alternates. -/
def Grammar.DrawsOnReferences (g : Grammar) : Prop :=
  ∀ p : Pattern, (∃ outcome, ∀ alternates, g.render alternates p = outcome) ∨
    ∃ draw : ResolvedPattern → Except PatternError Text,
      ∀ alternates, g.render alternates p = p.resolve alternates >>= draw

namespace Grammar

/-- The bundled grammar draws on the alternates that a pattern can reach, and on no others. -/
theorem drawsOnReferences_bundled : bundled.DrawsOnReferences := by
  intro p
  refine .inr ⟨fun q => .ok q.body, fun alternates => ?_⟩
  show (p.resolve alternates).map ResolvedPattern.body = _
  cases p.resolve alternates <;> rfl

namespace DrawsOnReferences

variable {g : Grammar} {alternates : Alternates} {p : Pattern} {name : String}

/-- Regular expressions that are given for some patterns do not depend on alternates. -/
theorem withBodies (h : g.DrawsOnReferences) (bodies : Table String Text) :
    (g.withBodies bodies).DrawsOnReferences := by
  intro p
  simp only [Grammar.withBodies]
  cases bodies.get? (g.format p) with
  | none => exact h p
  | some body => exact .inl ⟨.ok body, fun _ => rfl⟩

/-- Other scores do not change which alternates a grammar draws on. -/
theorem withScores (h : g.DrawsOnReferences) (scores : Table String Nat) :
    (g.withScores scores).DrawsOnReferences := h

/-- An alternate that a pattern cannot reach does not change what the pattern is compiled to. -/
theorem compile_insert (h : g.DrawsOnReferences) (hfree : ¬ Pattern.Reaches alternates p name)
    (value : String) : g.compile (alternates.insert name value) p = g.compile alternates p := by
  rw [Grammar.compile, Grammar.compile]
  rcases h p with ⟨outcome, hrender⟩ | ⟨draw, hrender⟩
  · rw [hrender, hrender]
  · rw [hrender, hrender, Pattern.resolve_insert hfree]

/-- A pattern that compiles is compiled in the same way when a new name is added. -/
theorem compile_insert_of_eq_ok (h : g.DrawsOnReferences) (hnew : alternates.contains name = false)
    {regex : Regex} (hok : g.compile alternates p = .ok regex) (value : String) :
    g.compile (alternates.insert name value) p = .ok regex := by
  rcases h p with ⟨outcome, hrender⟩ | ⟨draw, hrender⟩
  · rw [Grammar.compile, hrender] at hok ⊢
    exact hok
  · rw [h.compile_insert _ value, hok]
    intro hreach
    rw [Grammar.compile, hrender] at hok
    obtain ⟨body, hbody, _⟩ := bind_eq_ok_iff.mp hok
    obtain ⟨q, hq, _⟩ := bind_eq_ok_iff.mp hbody
    rw [Pattern.contains_of_reaches hq hreach] at hnew
    contradiction

end DrawsOnReferences

end Grammar

/-! ## Rules -/

namespace Rule

variable {g : Grammar} {alternates alternates' : Alternates} {r : Rule} {name : String}

/-- The name can be reached from one of the patterns of the rule. -/
def Reaches (alternates : Alternates) (r : Rule) (name : String) : Prop :=
  Pattern.Reaches alternates r.pattern name ∨
    ∃ p, r.previous = some p ∧ Pattern.Reaches alternates p name

/-- A rule is compiled in the same way where its two patterns are. -/
theorem compile_congr (hpattern : g.compile alternates' r.pattern = g.compile alternates r.pattern)
    (hprevious : ∀ p, r.previous = some p → g.compile alternates' p = g.compile alternates p) :
    r.compile g alternates' = r.compile g alternates := by
  have hmapM : r.previous.mapM (g.compile alternates') =
      r.previous.mapM (g.compile alternates) := by
    cases hp : r.previous with
    | none => rfl
    | some p =>
      show some <$> g.compile alternates' p = some <$> g.compile alternates p
      rw [hprevious p hp]
  rw [compile, compile, compileMatcher, compileMatcher, hpattern, hmapM]

/-- An alternate that a rule cannot reach does not count for it. -/
theorem compile_insert (hg : g.DrawsOnReferences) (hfree : ¬ r.Reaches alternates name)
    (value : String) : r.compile g (alternates.insert name value) = r.compile g alternates := by
  refine compile_congr ?_ fun p hp => ?_
  · exact hg.compile_insert (fun hreach => hfree (.inl hreach)) value
  · exact hg.compile_insert (fun hreach => hfree (.inr ⟨p, hp, hreach⟩)) value

/-- A rule that is compiled stays as it is when a new name is added. -/
theorem compile_insert_of_isCompiled (hg : g.DrawsOnReferences)
    (hnew : alternates.contains name = false)
    (hcompiled : (r.compile g alternates).isCompiled = true) (value : String) :
    r.compile g (alternates.insert name value) = r.compile g alternates := by
  obtain ⟨m, hm⟩ : ∃ m, r.compileMatcher g alternates = .ok m := by
    cases hmatcher : r.compileMatcher g alternates with
    | ok m => exact ⟨m, rfl⟩
    | error error => simp [isCompiled, compile, hmatcher, Except.toOption] at hcompiled
  obtain ⟨hpattern, hprevious⟩ := compileMatcher_eq_ok_iff.mp hm
  refine compile_congr ?_ fun p hp => ?_
  · rw [hpattern, hg.compile_insert_of_eq_ok hnew hpattern value]
  · rcases mapM_previous_eq_ok_iff.mp hprevious with ⟨hnone, _⟩ | ⟨p', regex, hp', hok, _⟩
    · rw [hnone] at hp
      contradiction
    · obtain rfl := Option.some.inj (hp'.symm.trans hp)
      rw [hok, hg.compile_insert_of_eq_ok hnew hok value]

end Rule

end Rejoinder
