import Mathlib
import Rejoinder.Pattern.Grammar
import Rejoinder.Proofs.Pattern.References

/-!
# When rendering fails

Rendering expands references, and it fails exactly as the first reference at fault does. It succeeds
exactly if every name that can be reached is stored, is a pattern, and does not reach itself
(`bundled_render_settles`).

Expansions are counted with a budget, and the count never runs out: the names around a reference are
different keys of the table, so as long as there is a new one some budget is left (`Affordable`).
For the same reason there are only finitely many places in the tree of an expansion
(`finite_places`).
-/

set_option autoImplicit false

namespace Rejoinder

namespace Pattern

variable {alternates : Alternates} {around around' names : List String} {name : String}
  {place : List Nat} {budget : Nat}

/-! ## One reference -/

/-- A text is stored under a name, and it is a pattern. -/
theorem stored?_eq_some_iff {fragment : Pattern} :
    stored? alternates name = some fragment ↔
      ∃ source, alternates.get? name = some source ∧ parse source = .ok fragment := by
  rw [stored?, Option.bind_eq_some_iff]
  refine exists_congr fun source => and_congr_right fun _ => ?_
  cases parse source <;> simp [Except.toOption]

/-- The checks on a reference pass if it is new and its alternate is a pattern. -/
theorem fragment?_eq_ok_iff {fragment : Pattern} :
    fragment? alternates around name = .ok fragment ↔
      name ∉ around ∧ stored? alternates name = some fragment := by
  rw [stored?_eq_some_iff, fragment?]
  cases hsource : alternates.get? name with
  | none => simp
  | some source =>
    by_cases hagain : name ∈ around
    · simp [hagain]
    · simp [hagain, mapError_eq_ok_iff]

/-- A check that fails says what is wrong with the reference. -/
theorem offends_of_fragment?_eq_error {error : PatternError}
    (h : fragment? alternates around name = .error error) : Offends alternates around name error := by
  unfold fragment? at h
  split at h
  · rename_i hmissing
    obtain rfl := Except.error.inj h
    exact .unknown hmissing
  · rename_i source hsource
    split at h
    · rename_i hagain
      obtain rfl := Except.error.inj h
      exact .recursive hagain
    · cases hparse : parse source with
      | ok fragment => simp [hparse, Except.mapError] at h
      | error e =>
        rw [hparse] at h
        obtain rfl := Except.error.inj h
        exact .malformed hsource hparse

/-- Nothing is wrong with a new reference whose alternate is a pattern. -/
theorem not_offends_of_stored {fragment : Pattern} {error : PatternError} (hnew : name ∉ around)
    (hstored : stored? alternates name = some fragment) :
    ¬ Offends alternates around name error := by
  obtain ⟨source, hsource, hparse⟩ := stored?_eq_some_iff.mp hstored
  intro h
  cases h with
  | unknown hmissing => simp [hmissing] at hsource
  | recursive hagain => exact hnew hagain
  | malformed hsource' hrefused =>
    obtain rfl := Option.some.inj (hsource.symm.trans hsource')
    simp [hrefused] at hparse

/-- Inside alternates that are patterns, only one thing can be wrong with a reference. -/
theorem Offends.unique {error error' : PatternError}
    (hstored : ∀ outer ∈ around, (stored? alternates outer).isSome)
    (h : Offends alternates around name error) (h' : Offends alternates around name error') :
    error = error' := by
  have hagain : name ∈ around →
      ∃ source fragment, alternates.get? name = some source ∧ parse source = .ok fragment := by
    intro hname
    obtain ⟨fragment, hfragment⟩ := Option.isSome_iff_exists.mp (hstored name hname)
    obtain ⟨source, hsource, hparse⟩ := stored?_eq_some_iff.mp hfragment
    exact ⟨source, fragment, hsource, hparse⟩
  cases h <;> cases h' <;> grind

/-! ## The whole expansion -/

/-- The error of a reference whose checks pass is that of the references of its alternate. -/
theorem error?_expandReference {fragment : Pattern}
    (h : fragment? alternates around name = .ok fragment) :
    error? (expandReference alternates (budget + 1) around name) =
      fragment.references.findSome? fun other =>
        error? (expandReference alternates budget (name :: around) other) := by
  rw [expandReference, h, ok_bind, error?_replaceElements]
  rfl

/-- The references around another one are different, they are all stored, and the budget that is
left counts at least the keys that are not among them, and one more. -/
structure Affordable (alternates : Alternates) (budget : Nat) (around : List String) : Prop where
  nodup : around.Nodup
  stored : ∀ outer ∈ around, (stored? alternates outer).isSome
  room : alternates.size < budget + around.length

/-- Outside all references the budget is large enough. -/
theorem affordable_nil : Affordable alternates (alternates.size + 1) [] :=
  ⟨List.nodup_nil, by simp, by simp⟩

/-- The names around a reference are different keys, so there are never more than keys. -/
theorem length_le_size (hnodup : around.Nodup)
    (hstored : ∀ outer ∈ around, (stored? alternates outer).isSome) :
    around.length ≤ alternates.size := by
  have hsubset : around ⊆ alternates.keys := by
    intro outer houter
    obtain ⟨fragment, hfragment⟩ := Option.isSome_iff_exists.mp (hstored outer houter)
    obtain ⟨source, hsource, _⟩ := stored?_eq_some_iff.mp hfragment
    exact Table.mem_keys_iff.mpr (Table.contains_iff.mpr ⟨source, hsource⟩)
  have hle := (hnodup.subperm hsubset).length_le
  rwa [Table.keys, List.length_map] at hle

/-- A budget that is used up is never large enough, since there cannot be more references around
another one than there are alternates. -/
theorem not_affordable_zero : ¬ Affordable alternates 0 around := by
  intro h
  have hle := length_le_size h.nodup h.stored
  have hroom := h.room
  omega

/-- Inside one more reference, one less of the budget is large enough. -/
theorem Affordable.inside {fragment : Pattern} (h : Affordable alternates (budget + 1) around)
    (hnew : name ∉ around) (hstored : stored? alternates name = some fragment) :
    Affordable alternates budget (name :: around) := by
  refine ⟨List.nodup_cons.mpr ⟨hnew, h.nodup⟩, ?_, ?_⟩
  · exact List.forall_mem_cons.mpr ⟨by rw [hstored]; rfl, h.stored⟩
  · have hroom := h.room
    rw [List.length_cons]
    omega

/-- A place that is met has a first number. -/
theorem Met.exists_cons (h : Met alternates around names place name around') :
    ∃ i rest, place = i :: rest := by
  cases h with
  | here => exact ⟨_, _, rfl⟩
  | inside => exact ⟨_, _, rfl⟩

/-- The references around one that is met are stored. -/
theorem Met.stored_around (h : Met alternates around names place name around')
    (hstored : ∀ outer ∈ around, (stored? alternates outer).isSome) :
    ∀ outer ∈ around', (stored? alternates outer).isSome := by
  induction h with
  | here => exact hstored
  | inside _ _ hfragment _ ih =>
    exact ih (List.forall_mem_cons.mpr ⟨by rw [hfragment]; rfl, hstored⟩)

/-- A place is the position of a reference, or lies inside the reference at its first position. -/
theorem places_subset : places alternates around names ⊆
    ⋃ i ∈ Finset.range names.length, insert [i] (List.cons i '' {place | ∃ outer fragment,
      names[i]? = some outer ∧ outer ∉ around ∧ stored? alternates outer = some fragment ∧
        place ∈ places alternates (outer :: around) fragment.references}) := by
  rintro place ⟨name, around', hmet⟩
  simp only [Set.mem_iUnion, Finset.mem_range]
  cases hmet with
  | here hi => exact ⟨_, (List.getElem?_eq_some_iff.mp hi).1, Set.mem_insert _ _⟩
  | inside hi hnew hstored hrest =>
    exact ⟨_, (List.getElem?_eq_some_iff.mp hi).1,
      .inr ⟨_, ⟨_, _, hi, hnew, hstored, _, _, hrest⟩, rfl⟩⟩

/-- The expansion of references meets finitely many of them. -/
theorem finite_places (hbudget : Affordable alternates budget around) (names : List String) :
    (places alternates around names).Finite := by
  induction budget generalizing around names with
  | zero => exact absurd hbudget not_affordable_zero
  | succ budget ih =>
    refine Set.Finite.subset (Set.Finite.biUnion (Finset.finite_toSet _) fun i _ => ?_)
      places_subset
    refine (Set.Finite.image _ ?_).insert _
    cases hi : names[i]? with
    | none => simp
    | some outer =>
      by_cases hnew : outer ∈ around
      · simp [hnew]
      · cases hstored : stored? alternates outer with
        | none => simp [hstored]
        | some fragment =>
          refine (ih (hbudget.inside hnew hstored) fragment.references).subset ?_
          rintro place ⟨outer', fragment', houter, _, hstored', hplace⟩
          obtain rfl := Option.some.inj houter
          obtain rfl := Option.some.inj (hstored.symm.trans hstored')
          exact hplace

/-- Where a reference expands without an error, nothing met in it is at fault. -/
theorem not_offends_of_met {i : Nat} {error : PatternError}
    (hfirst : ∀ outer, names[i]? = some outer →
      error? (expandReference alternates budget around outer) = none)
    (hmet : Met alternates around names (i :: place) name around') :
    ¬ Offends alternates around' name error := by
  induction budget generalizing around names i place with
  | zero =>
    cases hmet with
    | here hi => simpa [expandReference, error?] using hfirst _ hi
    | inside hi => simpa [expandReference, error?] using hfirst _ hi
  | succ budget ih =>
    have hfragment : ∀ outer, names[i]? = some outer → ∃ fragment,
        fragment? alternates around outer = .ok fragment ∧ ∀ other ∈ fragment.references,
          error? (expandReference alternates budget (outer :: around) other) = none := by
      intro outer hi
      have hnone := hfirst outer hi
      cases hchecks : fragment? alternates around outer with
      | error e => simp [expandReference, hchecks, error?] at hnone
      | ok fragment =>
        rw [error?_expandReference hchecks, List.findSome?_eq_none_iff] at hnone
        exact ⟨fragment, rfl, hnone⟩
    cases hmet with
    | here hi =>
      obtain ⟨fragment, hchecks, _⟩ := hfragment _ hi
      obtain ⟨hnew, hstored⟩ := fragment?_eq_ok_iff.mp hchecks
      exact not_offends_of_stored hnew hstored
    | inside hi hnew hstored hrest =>
      obtain ⟨fragment, hchecks, hnone⟩ := hfragment _ hi
      obtain ⟨_, hstored'⟩ := fragment?_eq_ok_iff.mp hchecks
      obtain rfl := Option.some.inj (hstored.symm.trans hstored')
      cases place with
      | nil => cases hrest
      | cons j place =>
        exact ih (fun other hj => hnone other (List.mem_of_getElem? hj)) hrest

/-- Nothing at fault is met before the first reference that fails. -/
theorem length_le_of_met {before after : List String} {outer : String} {i : Nat}
    {error : PatternError}
    (hbefore : ∀ other ∈ before,
      error? (expandReference alternates budget around other) = none)
    (hmet : Met alternates around (before ++ outer :: after) (i :: place) name around')
    (hoffends : Offends alternates around' name error) : before.length ≤ i := by
  by_contra! hi
  have hclean : ∀ other, (before ++ outer :: after)[i]? = some other →
      error? (expandReference alternates budget around other) = none := by
    intro other hother
    rw [List.getElem?_append_left hi] at hother
    exact hbefore other (List.mem_of_getElem? hother)
  exact not_offends_of_met hclean hmet hoffends

/-- The error with which the first of some references fails is that of the first one at fault. -/
theorem firstOffenceIn_of_findSome? {error : PatternError}
    (hbudget : Affordable alternates budget around)
    (h : (names.findSome? fun outer => error? (expandReference alternates budget around outer)) =
      some error) : FirstOffenceIn alternates around names error := by
  -- On the budget, which is one less inside every reference.
  induction budget generalizing around names with
  | zero => exact absurd hbudget not_affordable_zero
  | succ budget ih =>
    obtain ⟨before, outer, after, rfl, houter, hbefore⟩ := List.findSome?_eq_some_iff.mp h
    have hat : (before ++ outer :: after)[before.length]? = some outer := by simp
    cases hchecks : fragment? alternates around outer with
    | error error' =>
      have heq : error' = error := by simpa [expandReference, hchecks, error?] using houter
      refine ⟨[before.length], outer, around, .here hat,
        heq ▸ offends_of_fragment?_eq_error hchecks, ?_⟩
      intro place' name' around'' error'' hmet hoffends hlex
      cases hlex with
      | nil => cases hmet
      | rel hj => exact absurd (length_le_of_met hbefore hmet hoffends) (by omega)
      | cons hnil => cases hnil
    | ok fragment =>
      obtain ⟨hnew, hstored⟩ := fragment?_eq_ok_iff.mp hchecks
      rw [error?_expandReference hchecks] at houter
      obtain ⟨place, name, around', hmet, hoffends, hfirst⟩ :=
        ih (hbudget.inside hnew hstored) houter
      refine ⟨before.length :: place, name, around', .inside hat hnew hstored hmet, hoffends, ?_⟩
      intro place' name' around'' error'' hmet' hoffends' hlex
      cases hlex with
      | nil => cases hmet'
      | rel hj => exact absurd (length_le_of_met hbefore hmet' hoffends') (by omega)
      | cons hrest =>
        cases hmet' with
        | here hi =>
          -- At the reference itself nothing is at fault, since it could be expanded.
          obtain rfl := Option.some.inj (hat.symm.trans hi)
          exact not_offends_of_stored hnew hstored hoffends'
        | inside hi _ hstored' hmet' =>
          obtain rfl := Option.some.inj (hat.symm.trans hi)
          obtain rfl := Option.some.inj (hstored.symm.trans hstored')
          exact hfirst _ _ _ _ hmet' hoffends' hrest

/-- At one place one reference is met. -/
theorem Met.unique {name' : String} {around'' : List String}
    (h : Met alternates around names place name around')
    (h' : Met alternates around names place name' around'') :
    name = name' ∧ around' = around'' := by
  induction h with
  | here hi =>
    cases h' with
    | here hi' => exact ⟨Option.some.inj (hi.symm.trans hi'), rfl⟩
    | inside _ _ _ hrest => cases hrest
  | inside hi _ hstored hrest ih =>
    cases h' with
    | here => cases hrest
    | inside hi' _ hstored' hrest' =>
      obtain rfl := Option.some.inj (hi.symm.trans hi')
      obtain rfl := Option.some.inj (hstored.symm.trans hstored')
      exact ih hrest'

/-- A pattern has one first reference at fault, with one fault. -/
theorem FirstOffence.unique {p : Pattern} {error error' : PatternError}
    (h : FirstOffence alternates p error) (h' : FirstOffence alternates p error') :
    error = error' := by
  obtain ⟨place, name, around, hmet, hoffends, hfirst⟩ := h
  obtain ⟨place', name', around', hmet', hoffends', hfirst'⟩ := h'
  obtain rfl : place = place' := Std.Trichotomous.trichotomous (r := List.Lex (· < ·)) place place'
    (hfirst' _ _ _ _ hmet hoffends) (hfirst _ _ _ _ hmet' hoffends')
  obtain ⟨rfl, rfl⟩ := hmet.unique hmet'
  exact hoffends.unique (hmet.stored_around (by simp)) hoffends'

/-! ## What can be reached -/

/-- What is met can be reached from the references at which the expansion began, and from all the
references that have come around it. -/
theorem Met.reaches (h : Met alternates around names place name around') :
    (∃ first ∈ names, Relation.ReflTransGen (Refers alternates) first name) ∧
      ∀ outer ∈ around', outer ∈ around ∨ Relation.TransGen (Refers alternates) outer name := by
  induction h with
  | here hi => exact ⟨⟨_, List.mem_of_getElem? hi, .refl⟩, fun outer houter => .inl houter⟩
  | inside hi _ hstored _ ih =>
    obtain ⟨⟨first, hfirst, hreach⟩, houters⟩ := ih
    have hrefers := Relation.TransGen.head' ⟨_, hstored, hfirst⟩ hreach
    refine ⟨⟨_, List.mem_of_getElem? hi, hrefers.to_reflTransGen⟩, fun outer houter => ?_⟩
    rcases houters outer houter with hmem | htrans
    · rcases List.mem_cons.mp hmem with rfl | hmem
      · exact .inr hrefers
      · exact .inl hmem
    · exact .inr htrans

/-- Inside a new reference, the references of its alternate are met. -/
theorem Met.deeper {fragment : Pattern} {other : String}
    (h : Met alternates around names place name around') (hnew : name ∉ around')
    (hstored : stored? alternates name = some fragment) (hother : other ∈ fragment.references) :
    ∃ place', Met alternates around names place' other (name :: around') := by
  induction h with
  | here hi =>
    obtain ⟨j, hj⟩ := List.mem_iff_getElem?.mp hother
    exact ⟨_, .inside hi hnew hstored (.here hj)⟩
  | inside hi hnew' hstored' _ ih =>
    obtain ⟨place', hrest⟩ := ih hnew hstored
    exact ⟨_, .inside hi hnew' hstored' hrest⟩

/-- Nothing that the expansion of a pattern can meet is at fault. -/
def Faultless (alternates : Alternates) (p : Pattern) : Prop :=
  ∀ place name around error, Met alternates [] p.references place name around →
    ¬ Offends alternates around name error

variable {p : Pattern}

/-- One reference on: where nothing is at fault, what a name that is met refers to is met too. -/
theorem Faultless.step {other : String} (h : Faultless alternates p)
    (hmet : Met alternates [] p.references place name around)
    (hrefers : Refers alternates name other) :
    ∃ place', Met alternates [] p.references place' other (name :: around) := by
  obtain ⟨fragment, hstored, hother⟩ := hrefers
  exact hmet.deeper (fun hagain => h _ _ _ _ hmet (.recursive hagain)) hstored hother

/-- Where nothing is at fault, everything that can be reached is met. -/
theorem Faultless.exists_met (h : Faultless alternates p) (hreach : Reaches alternates p name) :
    ∃ place around, Met alternates [] p.references place name around := by
  obtain ⟨first, hfirst, hreach⟩ := hreach
  induction hreach with
  | refl =>
    obtain ⟨i, hi⟩ := List.mem_iff_getElem?.mp hfirst
    exact ⟨_, _, .here hi⟩
  | tail _ hrefers ih =>
    obtain ⟨place, around, hmet⟩ := ih
    obtain ⟨place', hmet'⟩ := h.step hmet hrefers
    exact ⟨place', _, hmet'⟩

/-- Where nothing is at fault, a name that is met is around everything that it reaches. -/
theorem Faultless.exists_met_around {other : String} (h : Faultless alternates p)
    (hmet : Met alternates [] p.references place name around)
    (hreach : Relation.TransGen (Refers alternates) name other) :
    ∃ place' around', Met alternates [] p.references place' other around' ∧ name ∈ around' := by
  induction hreach with
  | single hrefers =>
    obtain ⟨place', hmet'⟩ := h.step hmet hrefers
    exact ⟨place', _, hmet', List.mem_cons_self⟩
  | tail _ hrefers ih =>
    obtain ⟨place', around', hmet', hname⟩ := ih
    obtain ⟨place'', hmet''⟩ := h.step hmet' hrefers
    exact ⟨place'', _, hmet'', List.mem_cons_of_mem _ hname⟩

/-- Nothing is at fault exactly if all names that can be reached are stored, are patterns, and do
not reach themselves. -/
theorem faultless_iff :
    Faultless alternates p ↔ ∀ name, Reaches alternates p name →
      (∃ source fragment, alternates.get? name = some source ∧ parse source = .ok fragment) ∧
        ¬ Relation.TransGen (Refers alternates) name name := by
  constructor
  · intro h name hreach
    obtain ⟨place, around, hmet⟩ := h.exists_met hreach
    refine ⟨?_, fun hself => ?_⟩
    · cases hsource : alternates.get? name with
      | none => exact absurd (.unknown hsource) (h _ _ _ _ hmet)
      | some source =>
        cases hparse : parse source with
        | error e => exact absurd (.malformed hsource hparse) (h _ _ _ _ hmet)
        | ok fragment => exact ⟨source, fragment, rfl, hparse⟩
    · obtain ⟨place', around', hmet', hagain⟩ := h.exists_met_around hmet hself
      exact h _ _ _ _ hmet' (.recursive hagain)
  · intro h place name around error hmet hoffends
    obtain ⟨hreach, houters⟩ := hmet.reaches
    obtain ⟨⟨source, fragment, hsource, hparse⟩, hself⟩ := h name hreach
    cases hoffends with
    | unknown hmissing => simp [hmissing] at hsource
    | recursive hagain => exact hself ((houters name hagain).resolve_left (by simp))
    | malformed hsource' hrefused =>
      obtain rfl := Option.some.inj (hsource.symm.trans hsource')
      simp [hrefused] at hparse

/-! ## Rendering -/

/-- Rendering fails as the first reference of the pattern does that cannot be expanded. -/
theorem error?_render (p : Pattern) :
    error? (p.render alternates) = p.references.findSome? fun name =>
      error? (expandReference alternates (alternates.size + 1) [] name) := by
  rw [render, error?_map]
  exact error?_replaceElements _ p

/-- Rendering fails with the fault of the first reference at fault. -/
theorem firstOffence_of_render_eq_error {error : PatternError}
    (h : p.render alternates = .error error) : FirstOffence alternates p error := by
  rw [← error?_eq_some_iff, error?_render] at h
  exact firstOffenceIn_of_findSome? affordable_nil h

/-- A pattern that is rendered has no reference at fault. -/
theorem faultless_of_render_eq_ok {body : Text} (h : p.render alternates = .ok body) :
    Faultless alternates p := by
  have hnone := error?_eq_none_iff.mpr ⟨body, h⟩
  rw [error?_render, List.findSome?_eq_none_iff] at hnone
  intro place name around error hmet
  obtain ⟨i, rest, rfl⟩ := hmet.exists_cons
  exact not_offends_of_met (fun other hi => hnone other (List.mem_of_getElem? hi)) hmet

/-- Rendering fails with an error exactly if that is the first offence in the order of reading. -/
theorem render_eq_error_iff {error : PatternError} :
    p.render alternates = .error error ↔ FirstOffence alternates p error := by
  refine ⟨firstOffence_of_render_eq_error, fun h => ?_⟩
  cases hrender : p.render alternates with
  | error error' => rw [(firstOffence_of_render_eq_error hrender).unique h]
  | ok body =>
    obtain ⟨place, name, around, hmet, hoffends, _⟩ := h
    exact absurd hoffends (faultless_of_render_eq_ok hrender _ _ _ _ hmet)

/-- Rendering succeeds exactly if nothing that the expansion can meet is at fault. -/
theorem exists_render_eq_ok_iff :
    (∃ body, p.render alternates = .ok body) ↔ Faultless alternates p := by
  refine ⟨fun ⟨body, h⟩ => faultless_of_render_eq_ok h, fun h => ?_⟩
  cases hrender : p.render alternates with
  | ok body => exact ⟨body, rfl⟩
  | error error =>
    obtain ⟨place, name, around, hmet, hoffends, _⟩ := firstOffence_of_render_eq_error hrender
    exact absurd hoffends (h _ _ _ _ hmet)

/-- Expanding the references of a pattern comes to an end, since there are finitely many of them to
meet. The pattern is rendered exactly if every name that can be reached is stored, is a pattern, and
does not reach itself. If it is not rendered, the error is that of the first reference at fault,
depth first and from left to right. -/
theorem bundled_render_settles (alternates : Alternates) (p : Pattern) :
    (places alternates [] p.references).Finite ∧
    ((∃ body, Grammar.bundled.render alternates p = .ok body) ↔
      ∀ name, Reaches alternates p name →
        (∃ source fragment, alternates.get? name = some source ∧ parse source = .ok fragment) ∧
          ¬ Relation.TransGen (Refers alternates) name name) ∧
    (∀ error, Grammar.bundled.render alternates p = .error error ↔
      FirstOffence alternates p error) ∧
    AlternateFault.recursive.message = "recursive alternate" ∧
    (∀ error, (AlternateFault.malformed error).message =
      (PatternError.syntaxError error).message) := by
  refine ⟨finite_places affordable_nil _, ?_, fun error => render_eq_error_iff, rfl,
    fun error => rfl⟩
  rw [← faultless_iff]
  exact exists_render_eq_ok_iff

end Pattern

end Rejoinder
