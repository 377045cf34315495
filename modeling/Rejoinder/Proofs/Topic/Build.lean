import Rejoinder.Proofs.Outcome
import Rejoinder.Proofs.Topic.Ranking

/-!
# Topics that are up to date

A topic is up to date if its ranking is the one ranking of its rules and if the compiled patterns of
every rule are those that the alternates of the topic make of its patterns (`UpToDate`). Building a
topic is the same as bringing it up to date: a topic is up to date exactly if building changes
nothing (`upToDate_iff_build_eq`), and what has been built is up to date (`upToDate_build`).
-/

set_option autoImplicit false

namespace Rejoinder

namespace Rule

variable {g : Grammar} {alternates : Alternates} {r : Rule}

/-- The compiled patterns of a rule are those that some alternates make of its two patterns, and
they are missing exactly if one of the two cannot be compiled. -/
structure CompiledFrom (g : Grammar) (alternates : Alternates) (r : Rule) : Prop where
  pattern : ∀ m, r.matcher = some m → g.compile alternates r.pattern = .ok m.pattern
  previous : ∀ m, r.matcher = some m →
    r.previous = none ∧ m.previous = none ∨
      ∃ p regex, r.previous = some p ∧ g.compile alternates p = .ok regex ∧ m.previous = some regex
  missing : r.matcher = none ↔
    (∃ error, g.compile alternates r.pattern = .error error) ∨
      ∃ p error, r.previous = some p ∧ g.compile alternates p = .error error

/-- A previous pattern is compiled to nothing if there is none, and to its expression otherwise. -/
theorem mapM_previous_eq_ok_iff {previous : Option Pattern} {compiled : Option Regex} :
    previous.mapM (g.compile alternates) = .ok compiled ↔
      previous = none ∧ compiled = none ∨
        ∃ p regex, previous = some p ∧ g.compile alternates p = .ok regex ∧
          compiled = some regex := by
  cases previous with
  | none =>
    have hnone : (none : Option Pattern).mapM (g.compile alternates) = .ok none := rfl
    rw [hnone]
    simp [eq_comm]
  | some p =>
    have hsome : (some p).mapM (g.compile alternates) = some <$> g.compile alternates p := rfl
    rw [hsome]
    cases hp : g.compile alternates p with
    | error error => simp [hp]
    | ok regex => simp [hp, Functor.map, Except.map, eq_comm]

/-- A matcher is what a grammar makes of both patterns of a rule. -/
theorem compileMatcher_eq_ok_iff {m : Matcher} :
    r.compileMatcher g alternates = .ok m ↔
      g.compile alternates r.pattern = .ok m.pattern ∧
        r.previous.mapM (g.compile alternates) = .ok m.previous := by
  constructor
  · intro h
    obtain ⟨regex, hregex, h⟩ := bind_eq_ok_iff.mp h
    obtain ⟨previous, hprevious, h⟩ := bind_eq_ok_iff.mp h
    obtain rfl := Except.ok.inj h
    exact ⟨hregex, hprevious⟩
  · rintro ⟨hregex, hprevious⟩
    exact bind_eq_ok_iff.mpr ⟨_, hregex, bind_eq_ok_iff.mpr ⟨_, hprevious, rfl⟩⟩

/-- If the patterns of a rule cannot be compiled, one of the two is to blame. -/
theorem exists_of_compileMatcher_eq_error {error : PatternError}
    (h : r.compileMatcher g alternates = .error error) :
    ∃ p, (r.pattern = p ∨ r.previous = some p) ∧ g.compile alternates p = .error error := by
  cases hpattern : g.compile alternates r.pattern with
  | error cause =>
    rw [compileMatcher, hpattern, error_bind] at h
    obtain rfl := Except.error.inj h
    exact ⟨_, .inl rfl, hpattern⟩
  | ok regex =>
    rw [compileMatcher, hpattern, ok_bind] at h
    cases hprevious : r.previous with
    | none =>
      rw [hprevious] at h
      contradiction
    | some p =>
      have hsome : (some p).mapM (g.compile alternates) = some <$> g.compile alternates p := rfl
      rw [hprevious, hsome] at h
      cases hp : g.compile alternates p with
      | error cause =>
        rw [hp] at h
        obtain rfl := Except.error.inj h
        exact ⟨p, .inr rfl, hp⟩
      | ok regex' =>
        rw [hp] at h
        contradiction

/-- A rule has no compiled patterns where one of its patterns cannot be compiled. -/
theorem compileMatcher_eq_error_iff :
    (∃ error, r.compileMatcher g alternates = .error error) ↔
      (∃ error, g.compile alternates r.pattern = .error error) ∨
        ∃ p error, r.previous = some p ∧ g.compile alternates p = .error error := by
  constructor
  · rintro ⟨error, h⟩
    obtain ⟨p, rfl | hp, herror⟩ := exists_of_compileMatcher_eq_error h
    · exact .inl ⟨error, herror⟩
    · exact .inr ⟨p, error, hp, herror⟩
  · intro h
    cases hmatcher : r.compileMatcher g alternates with
    | error error => exact ⟨error, rfl⟩
    | ok m =>
      obtain ⟨hpattern, hprevious⟩ := compileMatcher_eq_ok_iff.mp hmatcher
      rcases h with ⟨error, herror⟩ | ⟨p, error, hp, herror⟩
      · rw [hpattern] at herror
        contradiction
      · rw [hp] at hprevious
        rcases mapM_previous_eq_ok_iff.mp hprevious with ⟨hnone, _⟩ | ⟨_, _, hsome, hok, _⟩
        · contradiction
        · obtain rfl := Option.some.inj hsome
          rw [hok] at herror
          contradiction

/-- A rule that compiling leaves as it is holds what compiling makes of its patterns. -/
theorem compiledFrom_of_compile_eq (h : r.compile g alternates = r) :
    r.CompiledFrom g alternates := by
  have hmatcher : (r.compileMatcher g alternates).toOption = r.matcher := congrArg Rule.matcher h
  have hok : ∀ m, r.matcher = some m → r.compileMatcher g alternates = .ok m := by
    intro m hm
    rw [hm] at hmatcher
    cases hc : r.compileMatcher g alternates with
    | error error => simp [hc, Except.toOption] at hmatcher
    | ok m' =>
      rw [hc] at hmatcher
      rw [Option.some.inj hmatcher]
  refine ⟨?_, ?_, ?_⟩
  · intro m hm
    exact (compileMatcher_eq_ok_iff.mp (hok m hm)).1
  · intro m hm
    exact mapM_previous_eq_ok_iff.mp (compileMatcher_eq_ok_iff.mp (hok m hm)).2
  · rw [← compileMatcher_eq_error_iff, ← hmatcher]
    cases r.compileMatcher g alternates <;> simp [Except.toOption]

/-- A rule that holds what compiling makes of its patterns is left as it is. -/
theorem CompiledFrom.compile_eq (h : r.CompiledFrom g alternates) : r.compile g alternates = r := by
  have hmatcher : (r.compileMatcher g alternates).toOption = r.matcher := by
    cases hm : r.matcher with
    | none =>
      obtain ⟨error, herror⟩ := compileMatcher_eq_error_iff.mpr (h.missing.mp hm)
      rw [herror]
      rfl
    | some m =>
      have hok := compileMatcher_eq_ok_iff.mpr
        ⟨h.pattern m hm, mapM_previous_eq_ok_iff.mpr (h.previous m hm)⟩
      rw [hok]
      rfl
  rw [compile, hmatcher]

/-- The rule without compiled patterns. -/
def uncompiled (r : Rule) : Rule := { r with matcher := none }

end Rule

namespace Topic

variable {g : Grammar} {t : Topic}

/-- The ranking is the one ranking of the rules, and every rule has the compiled patterns that the
alternates make of its patterns. -/
structure UpToDate (g : Grammar) (t : Topic) : Prop where
  ranking : ∀ places, IsRanking t.rules places ↔ places = t.ranking
  compiled : ∀ r ∈ t.rules, r.CompiledFrom g t.alternates

/-- A topic is up to date if building it changes nothing. -/
theorem upToDate_iff_build_eq : t.UpToDate g ↔ t.build g = t := by
  constructor
  · rintro ⟨hranking, hcompiled⟩
    have hrank : rank t.rules = t.ranking :=
      (hranking _).mp ((isRanking_iff_eq_rank _ _).mpr rfl)
    have hrules : t.rules.map (Rule.compile g t.alternates) = t.rules :=
      (List.map_congr_left fun r hr => (hcompiled r hr).compile_eq).trans (List.map_id _)
    rw [build, hrank, hrules]
  · intro h
    have hrank : rank t.rules = t.ranking := congrArg Topic.ranking h
    have hrules : t.rules.map (Rule.compile g t.alternates) = t.rules := congrArg Topic.rules h
    refine ⟨?_, ?_⟩
    · intro places
      rw [isRanking_iff_eq_rank, hrank]
    · intro r hr
      have hsame := List.map_inj_left.mp (hrules.trans (List.map_id _).symm) r hr
      exact Rule.compiledFrom_of_compile_eq hsame

/-- Compiled rules are ranked as they are before. -/
theorem rank_map_compile (alternates : Alternates) (rules : List Rule) :
    rank (rules.map (Rule.compile g alternates)) = rank rules :=
  rank_map (Rule.compile g alternates) (fun _ => ⟨rfl, rfl⟩) rules

/-- Of two compilations of a rule, the second one counts. -/
theorem map_compile_map_compile (alternates alternates' : Alternates) (rules : List Rule) :
    (rules.map (Rule.compile g alternates)).map (Rule.compile g alternates') =
      rules.map (Rule.compile g alternates') := by
  rw [List.map_map]
  rfl

/-- Building twice is building once. -/
theorem build_build (g : Grammar) (t : Topic) : (t.build g).build g = t.build g := by
  rw [build, build, rank_map_compile, map_compile_map_compile]

/-- What is built after an alternate has been added does not depend on a build before. -/
theorem build_addAlternate_build (g : Grammar) (t : Topic) (name value : String) :
    ((t.build g).addAlternate name value).build g = (t.addAlternate name value).build g := by
  simp only [build, addAlternate, rank_map_compile, map_compile_map_compile]

/-- What has been built is up to date. -/
theorem upToDate_build (g : Grammar) (t : Topic) : (t.build g).UpToDate g :=
  upToDate_iff_build_eq.mpr (build_build g t)

/-! ## What building adds -/

/-- The topic without what building adds to it. -/
def unbuilt (t : Topic) : Topic :=
  { t with rules := t.rules.map Rule.uncompiled, ranking := [] }

/-- Building adds nothing that does not count as added. -/
@[simp] theorem unbuilt_build (g : Grammar) (t : Topic) : (t.build g).unbuilt = t.unbuilt := by
  simp only [unbuilt, build, List.map_map]
  rfl

/-- Building does not look at what has been added before. -/
@[simp] theorem build_unbuilt (g : Grammar) (t : Topic) : t.unbuilt.build g = t.build g := by
  have hrank : rank (t.rules.map Rule.uncompiled) = rank t.rules :=
    rank_map Rule.uncompiled (fun _ => ⟨rfl, rfl⟩) t.rules
  simp only [build, unbuilt, hrank, List.map_map]
  rfl

/-! ## The rules of a topic that has been built -/

/-- The rules in the order of their ranks are made from the rules and the alternates. -/
theorem ranked_build_congr {t t' : Topic} (hrules : t.unbuilt.rules = t'.unbuilt.rules)
    (halternates : t.alternates = t'.alternates) :
    (t.build g).ranked = (t'.build g).ranked := by
  have hsame : t.unbuilt.alternates = t'.unbuilt.alternates := halternates
  rw [← build_unbuilt g t, ← build_unbuilt g t', build, build, hrules, hsame]
  rfl

/-- Where all elements of a list have images, keeping those that have one keeps all. -/
theorem map_some_filterMap {α β : Type} {f : α → Option β} {l : List α}
    (h : ∀ x ∈ l, (f x).isSome = true) : (l.filterMap f).map some = l.map f := by
  induction l with
  | nil => rfl
  | cons x rest ih =>
    obtain ⟨y, hy⟩ := Option.isSome_iff_exists.mp (h x List.mem_cons_self)
    rw [List.filterMap_cons_some hy, List.map_cons, List.map_cons, hy]
    rw [ih fun z hz => h z (List.mem_cons_of_mem _ hz)]

/-- The rules stand in the order of their ranks, compiled against the alternates of the topic, and
none is left out. -/
theorem map_some_ranked_build (g : Grammar) (t : Topic) :
    (t.build g).ranked.map some =
      (rank t.rules).map fun i => (t.rules[i]?).map (Rule.compile g t.alternates) := by
  have hplaces : ∀ i ∈ rank t.rules,
      ((t.rules[i]?).map (Rule.compile g t.alternates)).isSome = true := by
    intro i hi
    have hlt := List.mem_range.mp ((perm_rank t.rules).mem_iff.mp hi)
    simp [hlt]
  rw [← map_some_filterMap hplaces]
  simp [ranked, build]

/-- A build ranks every rule of the topic. -/
theorem length_ranked_build (g : Grammar) (t : Topic) :
    (t.build g).ranked.length = t.rules.length := by
  have hlength := congrArg List.length (map_some_ranked_build g t)
  rwa [List.length_map, List.length_map, (perm_rank t.rules).length_eq,
    List.length_range] at hlength

/-- At a place of the built ranking stands the compiled form of the rule that is ranked there. -/
theorem getElem?_ranked_build_eq_some_iff {k : Nat} {r : Rule} :
    (t.build g).ranked[k]? = some r ↔ ∃ i r', (rank t.rules)[k]? = some i ∧
      t.rules[i]? = some r' ∧ r'.compile g t.alternates = r := by
  have hplace := congrArg (fun l => l[k]?) (map_some_ranked_build g t)
  simp only [List.getElem?_map] at hplace
  constructor
  · intro hr
    rw [hr, Option.map_some, eq_comm, Option.map_eq_some_iff] at hplace
    obtain ⟨i, hi, hrule⟩ := hplace
    obtain ⟨r', hr', hcompile⟩ := Option.map_eq_some_iff.mp hrule
    exact ⟨i, r', hi, hr', hcompile⟩
  · rintro ⟨i, r', hi, hr', rfl⟩
    rw [hi, Option.map_some, hr', Option.map_some, Option.map_eq_some_iff] at hplace
    obtain ⟨r, hr, hsome⟩ := hplace
    rw [hr, Option.some.inj hsome]

end Topic

end Rejoinder
