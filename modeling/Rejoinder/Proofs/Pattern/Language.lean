import Mathlib
import Rejoinder.Proofs.Outcome
import Rejoinder.Proofs.Pattern.WellFormed
import Rejoinder.Pattern.Rendering

/-!
# The language of a pattern

A pattern describes lists of words. `Pattern.Describes` says which, with one clause for each kind of
element; a reference stands for whatever the alternate that it names describes. A resolved pattern
describes the same lists as the pattern that it was made from (`describes_resolve_iff`), and it is
well-formed if that pattern is (`wellFormed_of_resolve`).
-/

set_option autoImplicit false

namespace Rejoinder

/-- The pattern describes the words, if references stand for the alternates. -/
inductive Pattern.Describes (alternates : Alternates) : Pattern → List Text → Prop
  | nil : Describes alternates [] []
  | word {letters : Text} {p : Pattern} {ws : List Text} (rest : Describes alternates p ws) :
    Describes alternates (.word letters :: p) (letters :: ws)
  /-- One word, but not the empty one. -/
  | anyWord {w : Text} {p : Pattern} {ws : List Text} (nonempty : w ≠ [])
    (rest : Describes alternates p ws) : Describes alternates (.anyWord :: p) (w :: ws)
  /-- One or more words, but not the empty one alone. -/
  | anyWords {vs : List Text} {p : Pattern} {ws : List Text} (some : vs ≠ []) (nonempty : vs ≠ [[]])
    (rest : Describes alternates p ws) : Describes alternates (.anyWords :: p) (vs ++ ws)
  | choice {bs : List Pattern} {b p : Pattern} {vs ws : List Text} (mem : b ∈ bs)
    (taken : Describes alternates b vs) (rest : Describes alternates p ws) :
    Describes alternates (.choice bs :: p) (vs ++ ws)
  | skip {body p : Pattern} {ws : List Text} (rest : Describes alternates p ws) :
    Describes alternates (.optional body :: p) ws
  | take {body p : Pattern} {vs ws : List Text} (taken : Describes alternates body vs)
    (rest : Describes alternates p ws) : Describes alternates (.optional body :: p) (vs ++ ws)
  | reference {name source : String} {fragment p : Pattern} {vs ws : List Text}
    (stored : alternates.get? name = some source) (parsed : Pattern.parse source = .ok fragment)
    (taken : Describes alternates fragment vs) (rest : Describes alternates p ws) :
    Describes alternates (.reference name :: p) (vs ++ ws)

mutual

/-- The element without references describes the words. -/
def ResolvedElement.Describes : ResolvedElement → List Text → Prop
  | .word letters, ws => ws = [letters]
  | .anyWords, ws => ws ≠ [] ∧ ws ≠ [[]]
  | .anyWord, ws => ∃ w, w ≠ [] ∧ ws = [w]
  | .choice branches, ws => branchesDescribe branches ws
  | .optional body, ws => ws = [] ∨ sequenceDescribes body ws
  | .fragment _ body, ws => sequenceDescribes body ws
termination_by structural e => e

/-- The elements describe the words, one after the other. -/
def sequenceDescribes : List ResolvedElement → List Text → Prop
  | [], ws => ws = []
  | e :: es, ws => ∃ first rest, ws = first ++ rest ∧ e.Describes first ∧ sequenceDescribes es rest
termination_by structural es => es

/-- One of the branches describes the words. -/
def branchesDescribe : List (List ResolvedElement) → List Text → Prop
  | [], _ => False
  | b :: bs, ws => sequenceDescribes b ws ∨ branchesDescribe bs ws
termination_by structural bs => bs

end

/-- The pattern without references describes the words. -/
def ResolvedPattern.Describes (p : ResolvedPattern) (ws : List Text) : Prop :=
  sequenceDescribes p ws

/-- Branches describe what one of them describes. -/
theorem branchesDescribe_iff {bs : List (List ResolvedElement)} {ws : List Text} :
    branchesDescribe bs ws ↔ ∃ b ∈ bs, sequenceDescribes b ws := by
  induction bs with
  | nil => simp [branchesDescribe]
  | cons b bs ih => rw [branchesDescribe, ih, List.exists_mem_cons_iff]

/-! ## Replacing references -/

namespace Pattern

variable {alternates : Alternates} {expand : String → Except PatternError ResolvedPattern}

/-- What a pattern becomes begins with what its first element becomes. -/
theorem replaceElements_cons_eq_ok_iff {e : Element} {es : List Element}
    {rs : List ResolvedElement} :
    replaceElements expand (e :: es) = .ok rs ↔
      ∃ r rs', replaceElement expand e = .ok r ∧ replaceElements expand es = .ok rs' ∧
        rs = r :: rs' := by
  rw [replaceElements, bind_eq_ok_iff]
  simp only [bind_eq_ok_iff, pure, Except.pure, Except.ok.injEq]
  grind

/-- Branches are resolved one after the other. -/
theorem replaceBranches_cons_eq_ok_iff {b : List Element} {bs : List (List Element)}
    {rs : List (List ResolvedElement)} :
    replaceBranches expand (b :: bs) = .ok rs ↔
      ∃ r rs', replaceElements expand b = .ok r ∧ replaceBranches expand bs = .ok rs' ∧
        rs = r :: rs' := by
  rw [replaceBranches, bind_eq_ok_iff]
  simp only [bind_eq_ok_iff, pure, Except.pure, Except.ok.injEq]
  grind

/-- A choice is resolved to a choice of its resolved branches. -/
theorem replaceElement_choice_eq_ok_iff {bs : List (List Element)} {r : ResolvedElement} :
    replaceElement expand (.choice bs) = .ok r ↔
      ∃ rs, replaceBranches expand bs = .ok rs ∧ r = .choice rs := by
  rw [replaceElement, bind_eq_ok_iff]
  simp only [pure, Except.pure, Except.ok.injEq, eq_comm]

/-- An optional part is resolved to one with a resolved body. -/
theorem replaceElement_optional_eq_ok_iff {body : List Element} {r : ResolvedElement} :
    replaceElement expand (.optional body) = .ok r ↔
      ∃ rs, replaceElements expand body = .ok rs ∧ r = .optional rs := by
  rw [replaceElement, bind_eq_ok_iff]
  simp only [pure, Except.pure, Except.ok.injEq, eq_comm]

/-- A reference is resolved to a fragment with the body that its name stands for. -/
theorem replaceElement_reference_eq_ok_iff {name : String} {r : ResolvedElement} :
    replaceElement expand (.reference name) = .ok r ↔
      ∃ body, expand name = .ok body ∧ r = .fragment name body := by
  rw [replaceElement, bind_eq_ok_iff]
  simp only [pure, Except.pure, Except.ok.injEq, eq_comm]

/-- What an element was before its references were replaced. -/
theorem replaceElement_inv {e : Element} {r : ResolvedElement}
    (h : replaceElement expand e = .ok r) :
    match r with
    | .word letters => e = .word letters
    | .anyWords => e = .anyWords
    | .anyWord => e = .anyWord
    | .choice rs => ∃ bs, e = .choice bs ∧ replaceBranches expand bs = .ok rs
    | .optional rs => ∃ body, e = .optional body ∧ replaceElements expand body = .ok rs
    | .fragment name body => e = .reference name ∧ expand name = .ok body := by
  cases e with
  | word letters =>
    obtain rfl := Except.ok.inj h
    rfl
  | anyWords =>
    obtain rfl := Except.ok.inj h
    rfl
  | anyWord =>
    obtain rfl := Except.ok.inj h
    rfl
  | choice bs =>
    obtain ⟨rs, hrs, rfl⟩ := replaceElement_choice_eq_ok_iff.mp h
    exact ⟨bs, rfl, hrs⟩
  | optional body =>
    obtain ⟨rs, hrs, rfl⟩ := replaceElement_optional_eq_ok_iff.mp h
    exact ⟨body, rfl, hrs⟩
  | reference name =>
    obtain ⟨body, hbody, rfl⟩ := replaceElement_reference_eq_ok_iff.mp h
    exact ⟨rfl, hbody⟩

/-- A resolved sequence that is not empty comes from one with a first element. -/
theorem replaceElements_inv {p : Pattern} {r : ResolvedElement} {rs : List ResolvedElement}
    (h : replaceElements expand p = .ok (r :: rs)) :
    ∃ e es, p = e :: es ∧ replaceElement expand e = .ok r ∧ replaceElements expand es = .ok rs := by
  cases p with
  | nil => exact absurd (Except.ok.inj h) (by simp)
  | cons e es =>
    obtain ⟨r', rs', hr, hrs, heq⟩ := replaceElements_cons_eq_ok_iff.mp h
    obtain ⟨rfl, rfl⟩ := List.cons.inj heq
    exact ⟨e, es, rfl, hr, hrs⟩

/-- Every branch has a counterpart behind the replacement. -/
theorem exists_mem_replaceBranches {bs : List (List Element)} {rs : List (List ResolvedElement)}
    (h : replaceBranches expand bs = .ok rs) {b : List Element} (hb : b ∈ bs) :
    ∃ r ∈ rs, replaceElements expand b = .ok r := by
  induction bs generalizing rs with
  | nil => simp at hb
  | cons b' bs ih =>
    obtain ⟨r, rs', hr, hrs, rfl⟩ := replaceBranches_cons_eq_ok_iff.mp h
    rcases List.mem_cons.mp hb with rfl | hb
    · exact ⟨r, List.mem_cons_self, hr⟩
    · obtain ⟨r', hr', heq⟩ := ih hrs hb
      exact ⟨r', List.mem_cons_of_mem _ hr', heq⟩

/-- A reference is replaced by what the parsed alternate becomes, with one name less to spend. -/
theorem expandReference_eq_ok {budget : Nat} {expanding : List String} {name : String}
    {body : ResolvedPattern} (h : expandReference alternates budget expanding name = .ok body) :
    ∃ source fragment budget', budget = budget' + 1 ∧ alternates.get? name = some source ∧
      parse source = .ok fragment ∧
      replaceElements (expandReference alternates budget' (name :: expanding)) fragment =
        .ok body := by
  cases budget with
  | zero => simp [expandReference] at h
  | succ budget =>
    rw [expandReference, bind_eq_ok_iff] at h
    obtain ⟨fragment, hfragment, hbody⟩ := h
    unfold fragment? at hfragment
    split at hfragment
    · simp at hfragment
    · rename_i source hsource
      split at hfragment
      · simp at hfragment
      · exact ⟨source, fragment, budget, rfl, hsource, mapError_eq_ok_iff.mp hfragment, hbody⟩

/-- What the pattern describes is described by what it becomes. -/
theorem Describes.replace {p : Pattern} {ws : List Text} (h : p.Describes alternates ws)
    {budget : Nat} {expanding : List String} {q : ResolvedPattern}
    (hq : replaceElements (expandReference alternates budget expanding) p = .ok q) :
    q.Describes ws := by
  induction h generalizing budget expanding q with
  | nil =>
    obtain rfl := Except.ok.inj hq
    rfl
  | word _ ih =>
    obtain ⟨r, q', hr, hq', rfl⟩ := replaceElements_cons_eq_ok_iff.mp hq
    obtain rfl := Except.ok.inj hr
    exact ⟨[_], _, rfl, rfl, ih hq'⟩
  | anyWord hne _ ih =>
    obtain ⟨r, q', hr, hq', rfl⟩ := replaceElements_cons_eq_ok_iff.mp hq
    obtain rfl := Except.ok.inj hr
    exact ⟨[_], _, rfl, ⟨_, hne, rfl⟩, ih hq'⟩
  | anyWords hsome hne _ ih =>
    obtain ⟨r, q', hr, hq', rfl⟩ := replaceElements_cons_eq_ok_iff.mp hq
    obtain rfl := Except.ok.inj hr
    exact ⟨_, _, rfl, ⟨hsome, hne⟩, ih hq'⟩
  | choice hmem _ _ ihb ih =>
    obtain ⟨r, q', hr, hq', rfl⟩ := replaceElements_cons_eq_ok_iff.mp hq
    obtain ⟨rs, hrs, rfl⟩ := replaceElement_choice_eq_ok_iff.mp hr
    obtain ⟨r, hmem', hr⟩ := exists_mem_replaceBranches hrs hmem
    exact ⟨_, _, rfl, branchesDescribe_iff.mpr ⟨r, hmem', ihb hr⟩, ih hq'⟩
  | skip _ ih =>
    obtain ⟨r, q', hr, hq', rfl⟩ := replaceElements_cons_eq_ok_iff.mp hq
    obtain ⟨rs, hrs, rfl⟩ := replaceElement_optional_eq_ok_iff.mp hr
    exact ⟨[], _, rfl, Or.inl rfl, ih hq'⟩
  | take _ _ ihb ih =>
    obtain ⟨r, q', hr, hq', rfl⟩ := replaceElements_cons_eq_ok_iff.mp hq
    obtain ⟨rs, hrs, rfl⟩ := replaceElement_optional_eq_ok_iff.mp hr
    exact ⟨_, _, rfl, Or.inr (ihb hrs), ih hq'⟩
  | reference hstored hparsed _ _ ihb ih =>
    obtain ⟨r, q', hr, hq', rfl⟩ := replaceElements_cons_eq_ok_iff.mp hq
    obtain ⟨body, hbody, rfl⟩ := replaceElement_reference_eq_ok_iff.mp hr
    -- The description and the expansion look up the same text, so they have the same fragment.
    obtain ⟨source, fragment, budget', _, hget, hparse, hreplace⟩ := expandReference_eq_ok hbody
    obtain rfl := Option.some.inj (hget.symm.trans hstored)
    obtain rfl := Except.ok.inj (hparse.symm.trans hparsed)
    exact ⟨_, _, rfl, ihb hreplace, ih hq'⟩

mutual

/-- What an element becomes describes nothing that the element does not. -/
theorem describes_of_replaceElement {budget : Nat} {expanding : List String} {e : Element}
    (r : ResolvedElement)
    (hr : replaceElement (expandReference alternates budget expanding) e = .ok r) {vs : List Text}
    (hvs : r.Describes vs) {p : Pattern} {ws : List Text} (hws : p.Describes alternates ws) :
    Pattern.Describes alternates (e :: p) (vs ++ ws) := by
  have hinv := replaceElement_inv hr
  cases r with
  | word letters =>
    rw [show e = .word letters from hinv, show vs = [letters] from hvs]
    exact .word hws
  | anyWords =>
    rw [show e = .anyWords from hinv]
    exact .anyWords hvs.1 hvs.2 hws
  | anyWord =>
    obtain ⟨w, hne, rfl⟩ := hvs
    rw [show e = .anyWord from hinv]
    exact .anyWord hne hws
  | choice rs =>
    obtain ⟨bs, rfl, hbs⟩ := hinv
    obtain ⟨b, hmem, hb⟩ := describes_of_replaceBranches rs hbs hvs
    exact .choice hmem hb hws
  | optional body =>
    obtain ⟨source, rfl, hbody⟩ := hinv
    rcases hvs with rfl | hvs
    · exact .skip hws
    · exact .take (describes_of_replaceElements body hbody hvs) hws
  | fragment name body =>
    obtain ⟨rfl, hbody⟩ := hinv
    obtain ⟨source, fragment, budget', _, hget, hparse, hreplace⟩ := expandReference_eq_ok hbody
    exact .reference hget hparse (describes_of_replaceElements body hreplace hvs) hws

/-- What a pattern becomes describes nothing that the pattern does not. -/
theorem describes_of_replaceElements {budget : Nat} {expanding : List String} {p : Pattern}
    (q : List ResolvedElement)
    (hq : replaceElements (expandReference alternates budget expanding) p = .ok q)
    {ws : List Text} (hws : sequenceDescribes q ws) : p.Describes alternates ws := by
  cases q with
  | nil =>
    rw [show ws = [] from hws]
    cases p with
    | nil => exact .nil
    | cons e p =>
      obtain ⟨_, _, _, _, h⟩ := replaceElements_cons_eq_ok_iff.mp hq
      simp at h
  | cons r q =>
    obtain ⟨e, p, rfl, he, hp⟩ := replaceElements_inv hq
    obtain ⟨first, rest, rfl, hfirst, hrest⟩ := hws
    exact describes_of_replaceElement r he hfirst (describes_of_replaceElements q hp hrest)

/-- What resolved branches describe is described by one of the branches. -/
theorem describes_of_replaceBranches {budget : Nat} {expanding : List String} {bs : List Pattern}
    (rs : List (List ResolvedElement))
    (hrs : replaceBranches (expandReference alternates budget expanding) bs = .ok rs)
    {ws : List Text} (hws : branchesDescribe rs ws) : ∃ b ∈ bs, b.Describes alternates ws := by
  cases rs with
  | nil => exact hws.elim
  | cons r rs =>
    cases bs with
    | nil => exact absurd (Except.ok.inj hrs) (by simp)
    | cons b bs =>
      obtain ⟨r', rs', hb, hbs, heq⟩ := replaceBranches_cons_eq_ok_iff.mp hrs
      obtain ⟨rfl, rfl⟩ := List.cons.inj heq
      rcases hws with hws | hws
      · exact ⟨b, List.mem_cons_self, describes_of_replaceElements r hb hws⟩
      · obtain ⟨b', hmem, hb'⟩ := describes_of_replaceBranches rs hbs hws
        exact ⟨b', List.mem_cons_of_mem _ hmem, hb'⟩

end

/-- A pattern and what it becomes when its references are replaced describe the same words. -/
theorem describes_resolve_iff {p : Pattern} {q : ResolvedPattern}
    (h : p.resolve alternates = .ok q) (ws : List Text) :
    q.Describes ws ↔ p.Describes alternates ws :=
  ⟨fun hq => describes_of_replaceElements q h hq, fun hp => hp.replace h⟩

end Pattern

/-! ## Well-formed resolved patterns -/

/-- Some element of the resolved pattern has to be there. -/
def ResolvedPattern.HasRequired (p : ResolvedPattern) : Prop :=
  ∃ e ∈ p, ResolvedPattern.isRequired e = true

mutual

/-- The words in an element can be written, a choice has a branch, and every branch, optional part
and fragment has a required element. -/
def ResolvedElement.WellFormed : ResolvedElement → Prop
  | .word letters => Token.IsWord letters
  | .anyWords => True
  | .anyWord => True
  | .choice branches => branches ≠ [] ∧ resolvedBranchesWellFormed branches
  | .optional body => ResolvedPattern.HasRequired body ∧ resolvedElementsWellFormed body
  | .fragment _ body => ResolvedPattern.HasRequired body ∧ resolvedElementsWellFormed body
termination_by structural e => e

/-- All of some elements are well-formed. -/
def resolvedElementsWellFormed : List ResolvedElement → Prop
  | [] => True
  | e :: es => e.WellFormed ∧ resolvedElementsWellFormed es
termination_by structural es => es

/-- All of some branches are well-formed. -/
def resolvedBranchesWellFormed : List (List ResolvedElement) → Prop
  | [] => True
  | b :: bs =>
    (ResolvedPattern.HasRequired b ∧ resolvedElementsWellFormed b) ∧ resolvedBranchesWellFormed bs
termination_by structural bs => bs

end

/-- A resolved pattern that comes from one that can be written down. -/
def ResolvedPattern.WellFormed (p : ResolvedPattern) : Prop :=
  p.HasRequired ∧ resolvedElementsWellFormed p

namespace Pattern

variable {alternates : Alternates} {expand : String → Except PatternError ResolvedPattern}

/-- Resolving an element does not change whether it has to be there. -/
theorem isRequired_of_replaceElement {e : Element} {r : ResolvedElement}
    (h : replaceElement expand e = .ok r) : ResolvedPattern.isRequired r = e.isRequired := by
  have hinv := replaceElement_inv h
  cases r with
  | word letters =>
    rw [show e = .word letters from hinv]
    rfl
  | anyWords =>
    rw [show e = .anyWords from hinv]
    rfl
  | anyWord =>
    rw [show e = .anyWord from hinv]
    rfl
  | choice rs =>
    obtain ⟨bs, rfl, _⟩ := hinv
    rfl
  | optional rs =>
    obtain ⟨body, rfl, _⟩ := hinv
    rfl
  | fragment name body =>
    obtain ⟨rfl, _⟩ := hinv
    rfl

/-- A sequence with a required element has one when it is resolved. -/
theorem hasRequired_of_replaceElements {p : Pattern} {q : ResolvedPattern} (hp : p.HasRequired)
    (h : replaceElements expand p = .ok q) : q.HasRequired := by
  induction p generalizing q with
  | nil =>
    obtain ⟨e, he, _⟩ := hp
    simp at he
  | cons e es ih =>
    obtain ⟨r, rs, hr, hrs, rfl⟩ := replaceElements_cons_eq_ok_iff.mp h
    obtain ⟨e', he', hreq⟩ := hp
    rcases List.mem_cons.mp he' with rfl | he'
    · exact ⟨r, List.mem_cons_self, (isRequired_of_replaceElement hr).trans hreq⟩
    · obtain ⟨r', hr', hreq'⟩ := ih ⟨e', he', hreq⟩ hrs
      exact ⟨r', List.mem_cons_of_mem _ hr', hreq'⟩

mutual

/-- Replacing references by well-formed patterns keeps an element well-formed. -/
theorem wellFormed_of_replaceElement
    (hexpand : ∀ name body, expand name = .ok body → body.WellFormed) (e : Element)
    {r : ResolvedElement} (he : e.WellFormed) (h : replaceElement expand e = .ok r) :
    r.WellFormed := by
  cases e with
  | word letters =>
    obtain rfl := Except.ok.inj h
    exact he
  | anyWords =>
    obtain rfl := Except.ok.inj h
    trivial
  | anyWord =>
    obtain rfl := Except.ok.inj h
    trivial
  | choice bs =>
    obtain ⟨rs, hrs, rfl⟩ := replaceElement_choice_eq_ok_iff.mp h
    refine ⟨?_, wellFormed_of_replaceBranches hexpand bs he.2 hrs⟩
    obtain ⟨b, bs, rfl⟩ := List.exists_cons_of_ne_nil he.1
    obtain ⟨_, _, _, _, rfl⟩ := replaceBranches_cons_eq_ok_iff.mp hrs
    simp
  | optional body =>
    obtain ⟨rs, hrs, rfl⟩ := replaceElement_optional_eq_ok_iff.mp h
    exact ⟨hasRequired_of_replaceElements he.1 hrs,
      wellFormed_of_replaceElements hexpand body he.2 hrs⟩
  | reference name =>
    obtain ⟨body, hbody, rfl⟩ := replaceElement_reference_eq_ok_iff.mp h
    exact hexpand name body hbody

/-- A well-formed sequence is resolved to a well-formed one, if its references are. -/
theorem wellFormed_of_replaceElements
    (hexpand : ∀ name body, expand name = .ok body → body.WellFormed) (es : List Element)
    {rs : List ResolvedElement} (hes : elementsWellFormed es)
    (h : replaceElements expand es = .ok rs) : resolvedElementsWellFormed rs := by
  cases es with
  | nil =>
    obtain rfl := Except.ok.inj h
    trivial
  | cons e es =>
    obtain ⟨r, rs, hr, hrs, rfl⟩ := replaceElements_cons_eq_ok_iff.mp h
    exact ⟨wellFormed_of_replaceElement hexpand e hes.1 hr,
      wellFormed_of_replaceElements hexpand es hes.2 hrs⟩

/-- Well-formed branches are resolved to well-formed ones, if their references are. -/
theorem wellFormed_of_replaceBranches
    (hexpand : ∀ name body, expand name = .ok body → body.WellFormed) (bs : List (List Element))
    {rs : List (List ResolvedElement)} (hbs : branchesWellFormed bs)
    (h : replaceBranches expand bs = .ok rs) : resolvedBranchesWellFormed rs := by
  cases bs with
  | nil =>
    obtain rfl := Except.ok.inj h
    trivial
  | cons b bs =>
    obtain ⟨r, rs, hr, hrs, rfl⟩ := replaceBranches_cons_eq_ok_iff.mp h
    exact ⟨⟨hasRequired_of_replaceElements hbs.1.1 hr,
      wellFormed_of_replaceElements hexpand b hbs.1.2 hr⟩,
      wellFormed_of_replaceBranches hexpand bs hbs.2 hrs⟩

end

/-- Whatever a reference stands for is well-formed. -/
theorem wellFormed_of_expandReference (budget : Nat) {expanding : List String} {name : String}
    {body : ResolvedPattern} (h : expandReference alternates budget expanding name = .ok body) :
    body.WellFormed := by
  induction budget generalizing expanding name body with
  | zero => simp [expandReference] at h
  | succ budget ih =>
    obtain ⟨source, fragment, budget', hbudget, _, hparse, hbody⟩ := expandReference_eq_ok h
    obtain rfl := Nat.succ.inj hbudget
    have hwell := wellFormed_of_parse (mapError_eq_ok_iff.mpr hparse)
    exact ⟨hasRequired_of_replaceElements hwell.1 hbody,
      wellFormed_of_replaceElements (fun _ _ hname => ih hname) fragment hwell.2 hbody⟩

/-- What a well-formed pattern becomes is well-formed. -/
theorem wellFormed_of_resolve {p : Pattern} {q : ResolvedPattern} (hp : p.WellFormed)
    (h : p.resolve alternates = .ok q) : q.WellFormed :=
  ⟨hasRequired_of_replaceElements hp.1 h,
    wellFormed_of_replaceElements (fun _ _ hname => wellFormed_of_expandReference _ hname) p
      hp.2 h⟩

end Pattern

end Rejoinder
