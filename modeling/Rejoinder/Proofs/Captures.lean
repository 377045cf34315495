import Mathlib
import Rejoinder.Proofs.Pattern.Groups
import Rejoinder.Proofs.Pattern.Preference

/-!
# The groups of a match

When a rule matches a message, the groups of the match are those of a reading of the message, with
their tokens put together by single spaces (`match?_tells_reading`). It is the preferred reading if
the compiled expression finds what a search finds that tries the expression as it is written. That
is always so if nothing but text is put before the choices of the expression; otherwise another
reading may come first (`match?_ne_preferred_reading`).
-/

set_option autoImplicit false

namespace Rejoinder

open Regex ResolvedPattern

/-- The groups are those of the reading: a group is there exactly if it takes part in the reading,
and its text is made up of the tokens that it has read. -/
def Groups.Tell (groups : Groups) (d : Reading) : Prop :=
  ∀ i, groups.get? i = (d.groups.lookup i).map fun ws => String.ofList (Text.unwords ws)

namespace Rule

/-- The groups of a match are those of the reading that its marks tell. -/
theorem tell_groupsOf {count : Nat} (hcount : count ≤ Text.wordLimit) {marks : List Mark}
    {d : Reading} (h : Tells count marks d) : (groupsOf (numberedNames 0 count) marks).Tell d := by
  intro i
  rw [get?_groupsOf hcount]
  split
  · rw [h.groups, Option.map_map]
    rfl
  · -- A number that no group has is in no mark and, by that, in no part of the reading.
    rename_i hi
    have hnames : ∀ m ∈ marks, m.name ≠ numberedName i := by
      intro m hm hname
      obtain ⟨j, hj, hname'⟩ := h.names m hm
      have := groupName_injective (hname.symm.trans hname')
      omega
    have hnone := h.groups i
    rw [captured?_eq_none hnames] at hnone
    rw [Option.map_eq_none_iff.mp hnone.symm]
    rfl

/-- A match comes from the expression of the resolved pattern, which is not too large. -/
theorem exists_find?_of_match? {r : Rule} {alternates : Alternates} (hwell : r.pattern.WellFormed)
    {s : Text} {last : Option Text} {groups : Groups}
    (h : (r.compile Grammar.bundled alternates).match? s last = some groups) :
    ∃ q marks, r.pattern.resolve alternates = .ok q ∧ q.WellFormed ∧
      sequenceCount true q ≤ Text.wordLimit ∧ (ofTree q.anchoredTree).find? s = some marks ∧
      groups = groupsOf (numberedNames 0 (sequenceCount true q)) marks := by
  obtain ⟨m, hm, hmatch⟩ := Option.bind_eq_some_iff.mp h
  obtain ⟨q, hq, hqwell, hregex, hfits⟩ := matcher_of_compile hwell hm
  rw [hregex] at hfits
  split at hmatch
  · obtain ⟨marks, hmarks, hgroups⟩ := Option.bind_eq_some_iff.mp hmatch
    obtain rfl := Option.some.inj hgroups
    rw [hregex] at hmarks
    refine ⟨q, marks, hq, hqwell, (sequenceCount_lt_of_fits hfits).le, hmarks, ?_⟩
    rw [hregex, groupNames_anchoredTree]
  · simp at hmatch

/-- The groups of a match are those of a reading of the message, and of the preferred one if the
search keeps to the order of the expression as it is written. It does so if nothing but text is put
before the choices of the expression. -/
theorem match?_tells_reading {name : String} {spec : RuleSpec} {r : Rule} {alternates : Alternates}
    (hspec : Rule.ofSpec Grammar.bundled name spec = .ok r) {s : Text} (hs : '\n' ∉ s)
    {last : Option Text} {groups : Groups}
    (h : (r.compile Grammar.bundled alternates).match? s last = some groups) :
    ∃ q, r.pattern.resolve alternates = .ok q ∧
      (∃ d ∈ q.readings (Text.tokens s), groups.Tell d) ∧
      ((ofTree q.anchoredTree).find? s = (asWritten q.anchoredTree).find? s →
        ∃ d, (q.readings (Text.tokens s)).head? = some d ∧ groups.Tell d) ∧
      (LiftsText q.anchoredTree →
        (ofTree q.anchoredTree).find? s = (asWritten q.anchoredTree).find? s) := by
  obtain ⟨hwell, _⟩ := Rule.of_ofSpec hspec
  obtain ⟨q, marks, hq, hqwell, hcount, hmarks, rfl⟩ := exists_find?_of_match? hwell h
  refine ⟨q, hq, ?_, ?_, ?_⟩
  · obtain ⟨d, hd, htells⟩ := exists_reading_of_find? hqwell hs hmarks
    exact ⟨d, hd, tell_groupsOf hcount htells⟩
  · intro horder
    obtain ⟨d, hd, htells⟩ := head?_readings_of_find? hqwell hs (horder.symm.trans hmarks)
    exact ⟨d, hd, tell_groupsOf hcount htells⟩
  · intro hlifts
    exact find?_asWritten hlifts (ofTree_anchoredTree_steps q) (asWritten_anchoredTree_steps q) s

/-- A compiled rule without a previous pattern answers with the groups of the first way through its
expression. -/
theorem match?_eq_head? {name : String} {spec : RuleSpec} {r : Rule} {alternates : Alternates}
    {q : ResolvedPattern} (hspec : Rule.ofSpec Grammar.bundled name spec = .ok r)
    (hprevious : r.previous = none) (hq : r.pattern.resolve alternates = .ok q)
    (hcompiled : (r.compile Grammar.bundled alternates).isCompiled = true) (s : Text) :
    (r.compile Grammar.bundled alternates).match? s none =
      (sequenceWays s.length (ofTree q.anchoredTree).steps (.start (.ofText s))).head?.map fun t =>
        groupsOf (ofTree q.anchoredTree).groupNames t.marks := by
  obtain ⟨m, hm⟩ := Option.isSome_iff_exists.mp hcompiled
  obtain ⟨hwell, _⟩ := Rule.of_ofSpec hspec
  obtain ⟨q', hq', _, hregex, _⟩ := matcher_of_compile hwell hm
  obtain rfl := Except.ok.inj (hq'.symm.trans hq)
  rw [match?_of_previous hprevious hm, hregex, find?_eq_head? (ofTree_anchoredTree_steps q'),
    Option.map_map]
  rfl

/-- An optional part that is left out, a wildcard that reads an empty token as well, and a branch
with a reference. -/
theorem match?_tells_reading_reference :
    let alternates : Alternates := ⟨[("later", "_ times")], by simp⟩
    let spec : RuleSpec :=
      ⟨"say", "[please] say * (now|%a:later)", "", 0, ⟨.shared "say", []⟩⟩
    ∃ r groups q d, Rule.ofSpec Grammar.bundled "test.say" spec = .ok r ∧
      (r.compile Grammar.bundled alternates).match? "say so  3 times".toList none = some groups ∧
      r.pattern.resolve alternates = .ok q ∧ LiftsText q.anchoredTree ∧
      (q.readings (Text.tokens "say so  3 times".toList)).head? = some d ∧ groups.Tell d := by
  intro alternates spec
  obtain ⟨r, hspec, hresolve, hprevious, hcompiled⟩ :
      ∃ r, Rule.ofSpec Grammar.bundled "test.say" spec = .ok r ∧
        r.pattern.resolve alternates = .ok [.optional [.word ['p', 'l', 'e', 'a', 's', 'e']],
          .word ['s', 'a', 'y'], .anyWords, .choice [[.word ['n', 'o', 'w']],
            [.fragment "later" [.anyWord, .word ['t', 'i', 'm', 'e', 's']]]]] ∧
        r.previous = none ∧ (r.compile Grammar.bundled alternates).isCompiled = true :=
    ⟨_, by cbv, by cbv, rfl, by decide +kernel⟩
  have hmatched : ((r.compile Grammar.bundled alternates).match? "say so  3 times".toList
      none).isSome = true := by
    rw [match?_eq_head? hspec hprevious hresolve hcompiled]
    decide +kernel
  obtain ⟨groups, hgroups⟩ := Option.isSome_iff_exists.mp hmatched
  obtain ⟨q, hq, _, hfirst, hlifted⟩ := match?_tells_reading hspec (by decide) hgroups
  obtain rfl := Except.ok.inj (hresolve.symm.trans hq)
  have hlifts : LiftsText (ResolvedPattern.anchoredTree
      [.optional [.word ['p', 'l', 'e', 'a', 's', 'e']], .word ['s', 'a', 'y'], .anyWords,
        .choice [[.word ['n', 'o', 'w']],
          [.fragment "later" [.anyWord, .word ['t', 'i', 'm', 'e', 's']]]]]) := by
    decide +kernel
  obtain ⟨d, hd, htell⟩ := hfirst (hlifted hlifts)
  exact ⟨r, groups, _, d, hspec, hgroups, hq, hlifts, hd, htell⟩

/-- Both branches begin with the same optional part, which is matched before the choice. So the rule
prefers to take it and the second branch, though it can be left out before the first branch. -/
theorem match?_ne_preferred_reading :
    let spec : RuleSpec := ⟨"say", "([a] a _|[a] _)", "", 0, ⟨.shared "say", []⟩⟩
    ∃ r q groups d, Rule.ofSpec Grammar.bundled "test.say" spec = .ok r ∧
      r.pattern.resolve Table.empty = .ok q ∧
      (r.compile Grammar.bundled Table.empty).match? "a q".toList none = some groups ∧
      (q.readings (Text.tokens "a q".toList)).head? = some d ∧
      groups.get? 1 = none ∧ groups.get? 2 = some "q" ∧
      d.groups.lookup 1 = some [['q']] ∧ d.groups.lookup 2 = none := by
  intro spec
  obtain ⟨r, hspec, hresolve, hprevious, hcompiled⟩ :
      ∃ r, Rule.ofSpec Grammar.bundled "test.say" spec = .ok r ∧
        r.pattern.resolve Table.empty = .ok [.choice [[.optional [.word ['a']], .word ['a'],
          .anyWord], [.optional [.word ['a']], .anyWord]]] ∧
        r.previous = none ∧ (r.compile Grammar.bundled Table.empty).isCompiled = true :=
    ⟨_, by cbv, by cbv, rfl, by decide +kernel⟩
  have hmatch : (r.compile Grammar.bundled Table.empty).match? "a q".toList none =
      some [(0, "a q"), (2, "q")] := by
    rw [match?_eq_head? hspec hprevious hresolve hcompiled]
    decide +kernel
  exact ⟨r, _, _, ⟨[], [(0, [['a'], ['q']]), (1, [['q']])]⟩, hspec, hresolve, hmatch, by cbv, rfl,
    rfl, rfl, rfl⟩

end Rule

end Rejoinder
