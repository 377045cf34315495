import Mathlib
import Rejoinder.Pattern.Grammar
import Rejoinder.Proofs.Outcome

/-!
# The grammar of patterns

The parser reads tokens one after the other and keeps a stack of open brackets. The grammar says
the same without a parser: a sequence is a list of elements of which at least one is required, and
an element is a word, a wildcard, a reference, or a bracket around branches or a sequence.

`Derives.reads` follows a derivation through the parser, and `Progress.step` follows the parser
through the grammar: whatever the parser has read so far is spelled by its stack. Together they
give `parse_iff_derives`: the parser accepts what the grammar derives, with the pattern that
is derived, and since a run of the parser has one result, no list of tokens derives two patterns.
-/

set_option autoImplicit false

namespace Rejoinder

open Pattern

/-- A part of a pattern for which the grammar has rules. -/
inductive Phrase
  | element (e : Element)
  | elements (es : List Element)
  | sequence (p : Pattern)
  | branches (bs : List Pattern)

namespace Phrase

/-- The tokens with which a phrase is written. -/
inductive Derives : Phrase → List Token → Prop
  | word (letters : Text) : Derives (.element (.word letters)) [.word letters]
  | anyWords : Derives (.element .anyWords) [.star]
  | anyWord : Derives (.element .anyWord) [.underscore]
  | reference (name : String) : Derives (.element (.reference name)) [.reference name]
  | choice {bs : List Pattern} {ts : List Token} :
      Derives (.branches bs) ts →
      Derives (.element (.choice bs)) (.openChoice :: (ts ++ [.closeChoice]))
  | optional {p : Pattern} {ts : List Token} :
      Derives (.sequence p) ts →
      Derives (.element (.optional p)) (.openOptional :: (ts ++ [.closeOptional]))
  | nil : Derives (.elements []) []
  | cons {e : Element} {es : List Element} {ts us : List Token} :
      Derives (.element e) ts → Derives (.elements es) us →
      Derives (.elements (e :: es)) (ts ++ us)
  | sequence {p : Pattern} {ts : List Token} :
      Derives (.elements p) ts → (∃ e ∈ p, e.isRequired) → Derives (.sequence p) ts
  | lastBranch {p : Pattern} {ts : List Token} :
      Derives (.sequence p) ts → Derives (.branches [p]) ts
  | branch {p : Pattern} {bs : List Pattern} {ts us : List Token} :
      Derives (.sequence p) ts → Derives (.branches bs) us →
      Derives (.branches (p :: bs)) (ts ++ .bar :: us)

/-- Elements that are written one after the other are written with both lists of tokens. -/
theorem Derives.append {es fs : List Element} {ts us : List Token}
    (hes : (elements es).Derives ts) (hfs : (elements fs).Derives us) :
    (elements (es ++ fs)).Derives (ts ++ us) := by
  induction es generalizing ts with
  | nil =>
    cases hes
    exact hfs
  | cons e es ih =>
    cases hes with
    | cons he hes =>
      rw [List.append_assoc]
      exact .cons he (ih hes)

/-! ## What is derived is read -/

/-- What reading some tokens does to the parser if they are a phrase: elements come to the innermost
sequence, a sequence is read into an empty one, and branches leave the last of them unfinished. -/
def Reads (ls : List Lexeme) : Phrase → Prop
  | element e => ∀ s : ParseState, ∃ start,
      ls.foldlM ParseState.step s = .ok ⟨⟨start, e :: s.current.elements⟩, s.brackets⟩
  | elements es => ∀ s : ParseState, ∃ start,
      ls.foldlM ParseState.step s = .ok ⟨⟨start, es.reverse ++ s.current.elements⟩, s.brackets⟩
  | sequence p => (∃ e ∈ p, e.isRequired) ∧ ∀ brackets, ∃ start,
      ls.foldlM ParseState.step ⟨.empty, brackets⟩ = .ok ⟨⟨start, p.reverse⟩, brackets⟩
  | branches bs => ∃ closed last, bs = closed ++ [last] ∧ (∃ e ∈ last, e.isRequired) ∧
      ∀ before earlier outer, ∃ start,
        ls.foldlM ParseState.step ⟨.empty, .choice before earlier :: outer⟩ =
          .ok ⟨⟨start, last.reverse⟩, .choice before (closed.reverse ++ earlier) :: outer⟩

/-- A sequence with a required element ends without a fault. -/
theorem finish_eq_ok {start : Option Nat} {p : Pattern} (h : ∃ e ∈ p, e.isRequired)
    (position : Nat) : Unfinished.finish position ⟨start, p.reverse⟩ = .ok p := by
  obtain ⟨e, he, hreq⟩ := h
  have hne : p.reverse.isEmpty = false := by
    cases p with
    | nil => simp at he
    | cons f p => simp
  have hany : p.reverse.any Element.isRequired = true :=
    List.any_eq_true.mpr ⟨e, List.mem_reverse.mpr he, hreq⟩
  simp [Unfinished.finish, hne, hany]

/-- A list of tokens that ends with one more token. -/
theorem exists_append_of_map_eq {ls : List Lexeme} {ts : List Token} {t : Token}
    (h : ls.map Lexeme.token = ts ++ [t]) :
    ∃ ls' l, ls = ls' ++ [l] ∧ ls'.map Lexeme.token = ts ∧ l.token = t := by
  obtain ⟨ls', rest, rfl, hls, hrest⟩ := List.map_eq_append_iff.mp h
  obtain ⟨l, rfl, hl⟩ := List.map_eq_singleton_iff.mp hrest
  exact ⟨ls', l, rfl, hls, hl⟩

section Step

variable {s : ParseState} {l : Lexeme} {before : Unfinished} {branches : List Pattern}
  {outer : List OpenBracket} {p : Pattern}

/-- An opening bracket of a choice begins a sequence of its own, and the sequence around it waits.
-/
theorem step_openChoice (h : l.token = .openChoice) :
    s.step l = .ok ⟨.empty, .choice (s.current.startAt l.position) [] :: s.brackets⟩ := by
  simp [ParseState.step, h]

/-- An opening bracket of an optional part begins a sequence of its own, and the sequence around it
waits. -/
theorem step_openOptional (h : l.token = .openOptional) :
    s.step l = .ok ⟨.empty, .optional (s.current.startAt l.position) :: s.brackets⟩ := by
  simp [ParseState.step, h]

/-- A bar ends a branch. -/
theorem step_bar {current : Unfinished} (h : l.token = .bar)
    (hp : (current.startAt l.position).finish l.position = .ok p) :
    ParseState.step ⟨current, .choice before branches :: outer⟩ l =
      .ok ⟨.empty, .choice before (p :: branches) :: outer⟩ := by
  simp [ParseState.step, h, hp]

/-- A closing bracket ends the last branch and with it the choice. -/
theorem step_closeChoice {current : Unfinished} (h : l.token = .closeChoice)
    (hp : (current.startAt l.position).finish l.position = .ok p) :
    ParseState.step ⟨current, .choice before branches :: outer⟩ l =
      .ok ⟨before.push (.choice (p :: branches).reverse), outer⟩ := by
  simp [ParseState.step, h, hp]

/-- A closing bracket ends the sequence in an optional part. -/
theorem step_closeOptional {current : Unfinished} (h : l.token = .closeOptional)
    (hp : (current.startAt l.position).finish l.position = .ok p) :
    ParseState.step ⟨current, .optional before :: outer⟩ l =
      .ok ⟨before.push (.optional p), outer⟩ := by
  simp [ParseState.step, h, hp]

end Step

/-- A token that the parser takes as an element is read as that element. -/
theorem reads_of_step {e : Element} {t : Token} {ls : List Lexeme}
    (hls : ls.map Lexeme.token = [t])
    (hstep : ∀ (s : ParseState) (l : Lexeme), l.token = t →
      s.step l = .ok ⟨(s.current.startAt l.position).push e, s.brackets⟩) :
    (element e).Reads ls := by
  intro s
  obtain ⟨l, rfl, hl⟩ := List.map_eq_singleton_iff.mp hls
  refine ⟨(s.current.startAt l.position).start, ?_⟩
  rw [List.foldlM_cons, hstep s l hl]
  rfl

/-- The parser reads every derived list of tokens as the phrase that derives it. -/
theorem Derives.reads {ph : Phrase} {ts : List Token} (h : ph.Derives ts) :
    ∀ ls : List Lexeme, ls.map Lexeme.token = ts → ph.Reads ls := by
  induction h with
  | word letters =>
    exact fun ls hls => reads_of_step hls fun s l hl => by simp [ParseState.step, hl]
  | anyWords =>
    exact fun ls hls => reads_of_step hls fun s l hl => by simp [ParseState.step, hl]
  | anyWord =>
    exact fun ls hls => reads_of_step hls fun s l hl => by simp [ParseState.step, hl]
  | reference name =>
    exact fun ls hls => reads_of_step hls fun s l hl => by simp [ParseState.step, hl]
  | choice hbs ih =>
    intro ls hls s
    obtain ⟨l, ls, rfl, hl, hls⟩ := List.map_eq_cons_iff.mp hls
    obtain ⟨ls, last, rfl, hls, hlast⟩ := exists_append_of_map_eq hls
    -- The branches leave the last one unfinished; the closing bracket ends it with the choice.
    obtain ⟨closed, branch, rfl, hreq, hrun⟩ := ih ls hls
    obtain ⟨start, hrun⟩ := hrun (s.current.startAt l.position) [] s.brackets
    refine ⟨some (s.current.start.getD l.position), ?_⟩
    rw [List.foldlM_cons, step_openChoice hl, ok_bind, List.foldlM_append, hrun,
      ok_bind, List.foldlM_cons, step_closeChoice hlast (finish_eq_ok hreq _)]
    simp [Unfinished.push, Unfinished.startAt]
  | optional hp ih =>
    intro ls hls s
    obtain ⟨l, ls, rfl, hl, hls⟩ := List.map_eq_cons_iff.mp hls
    obtain ⟨ls, last, rfl, hls, hlast⟩ := exists_append_of_map_eq hls
    obtain ⟨hreq, hrun⟩ := ih ls hls
    obtain ⟨start, hrun⟩ := hrun (.optional (s.current.startAt l.position) :: s.brackets)
    refine ⟨some (s.current.start.getD l.position), ?_⟩
    rw [List.foldlM_cons, step_openOptional hl, ok_bind, List.foldlM_append, hrun,
      ok_bind, List.foldlM_cons, step_closeOptional hlast (finish_eq_ok hreq _)]
    simp [Unfinished.push, Unfinished.startAt]
  | nil =>
    intro ls hls s
    obtain rfl := List.map_eq_nil_iff.mp hls
    exact ⟨s.current.start, rfl⟩
  | cons he hes ihe ihes =>
    intro ls hls s
    obtain ⟨js, ks, rfl, hjs, hks⟩ := List.map_eq_append_iff.mp hls
    obtain ⟨start, hrun⟩ := ihe js hjs s
    obtain ⟨start', hrun'⟩ := ihes ks hks ⟨⟨start, _⟩, s.brackets⟩
    refine ⟨start', ?_⟩
    rw [List.foldlM_append, hrun, ok_bind, hrun']
    simp
  | sequence hp hreq ih =>
    intro ls hls
    refine ⟨hreq, fun brackets => ?_⟩
    obtain ⟨start, hrun⟩ := ih ls hls ⟨.empty, brackets⟩
    exact ⟨start, by simpa [Unfinished.empty] using hrun⟩
  | lastBranch hp ih =>
    intro ls hls
    obtain ⟨hreq, hrun⟩ := ih ls hls
    exact ⟨[], _, rfl, hreq, fun before earlier outer => hrun _⟩
  | branch hp hbs ihp ihbs =>
    intro ls hls
    obtain ⟨js, rest, rfl, hjs, hrest⟩ := List.map_eq_append_iff.mp hls
    obtain ⟨l, ks, rfl, hl, hks⟩ := List.map_eq_cons_iff.mp hrest
    obtain ⟨hreq, hrun⟩ := ihp js hjs
    obtain ⟨closed, last, rfl, hlast, hrun'⟩ := ihbs ks hks
    refine ⟨_ :: closed, last, rfl, hlast, fun before earlier outer => ?_⟩
    obtain ⟨start, hrun⟩ := hrun (.choice before earlier :: outer)
    obtain ⟨start', hrun'⟩ := hrun' before (_ :: earlier) outer
    refine ⟨start', ?_⟩
    rw [List.foldlM_append, hrun, ok_bind, List.foldlM_cons,
      step_bar hl (finish_eq_ok hreq _), ok_bind, hrun']
    simp

end Phrase

/-! ## What is read is derived -/

/-- The tokens of the branches that have ended, the last one first: each with the bar behind it. -/
inductive BranchesRead : List Pattern → List Token → Prop
  | nil : BranchesRead [] []
  | cons {p : Pattern} {bs : List Pattern} {ts us : List Token} :
      BranchesRead bs ts → (Phrase.sequence p).Derives us →
      BranchesRead (p :: bs) (ts ++ (us ++ [.bar]))

/-- The tokens that lead to a stack of open brackets. -/
inductive BracketsRead : List OpenBracket → List Token → Prop
  | nil : BracketsRead [] []
  | choice {before : Unfinished} {bs : List Pattern} {outer : List OpenBracket}
      {ts us vs : List Token} :
      BracketsRead outer ts → (Phrase.elements before.elements.reverse).Derives us →
      BranchesRead bs vs →
      BracketsRead (.choice before bs :: outer) (ts ++ (us ++ .openChoice :: vs))
  | optional {before : Unfinished} {outer : List OpenBracket} {ts us : List Token} :
      BracketsRead outer ts → (Phrase.elements before.elements.reverse).Derives us →
      BracketsRead (.optional before :: outer) (ts ++ (us ++ [.openOptional]))

/-- The tokens that lead to a state of the parser: those of its open brackets and those of the
innermost sequence. -/
def Progress (s : ParseState) (ts : List Token) : Prop :=
  ∃ us vs, ts = us ++ vs ∧ BracketsRead s.brackets us ∧
    (Phrase.elements s.current.elements.reverse).Derives vs

/-- Branches that have ended and branches that follow are all the branches of a choice. -/
theorem BranchesRead.append {bs cs : List Pattern} {ts us : List Token}
    (hbs : BranchesRead bs ts) (hcs : (Phrase.branches cs).Derives us) :
    (Phrase.branches (bs.reverse ++ cs)).Derives (ts ++ us) := by
  induction hbs generalizing cs us with
  | nil => exact hcs
  | cons hbs hp ih =>
    have h := ih (.branch hp hcs)
    simpa using h

/-- One more element of the innermost sequence is written with its tokens behind the others. -/
theorem Derives.push {s : Unfinished} {e : Element} {ts us : List Token}
    (hs : (Phrase.elements s.elements.reverse).Derives ts)
    (he : (Phrase.element e).Derives us) :
    (Phrase.elements (s.push e).elements.reverse).Derives (ts ++ us) := by
  have h := hs.append (.cons he .nil)
  simpa [Unfinished.push] using h

/-- A sequence that ends is derived from its tokens. -/
theorem derives_of_finish {position : Nat} {s : Unfinished} {p : Pattern} {ts : List Token}
    (hs : (Phrase.elements s.elements.reverse).Derives ts) (h : s.finish position = .ok p) :
    (Phrase.sequence p).Derives ts := by
  unfold Unfinished.finish at h
  split at h
  · simp at h
  · split at h
    · rename_i hany
      obtain rfl := Except.ok.inj h
      obtain ⟨e, he, hreq⟩ := List.any_eq_true.mp hany
      exact .sequence hs ⟨e, List.mem_reverse.mpr he, hreq⟩
    · simp at h

/-- A token that is an element goes to the innermost sequence. -/
theorem Progress.element {s : ParseState} {ts : List Token} {e : Element} {t : Token}
    (h : Progress s ts) (he : (Phrase.element e).Derives [t]) (position : Nat) :
    Progress ⟨(s.current.startAt position).push e, s.brackets⟩ (ts ++ [t]) := by
  obtain ⟨us, vs, rfl, hbrackets, hcurrent⟩ := h
  refine ⟨us, vs ++ [t], by simp, hbrackets, ?_⟩
  exact Derives.push (s := s.current.startAt position) hcurrent he

/-- One step of the parser: the stack goes on to spell what has been read. -/
theorem Progress.step {s s' : ParseState} {ts : List Token} {l : Lexeme} (h : Progress s ts)
    (hs : s.step l = .ok s') : Progress s' (ts ++ [l.token]) := by
  unfold ParseState.step at hs
  split at hs
  case h_1 brackets letters ht =>
    obtain rfl := Except.ok.inj hs
    rw [ht]
    exact h.element (.word letters) l.position
  case h_2 ht =>
    obtain rfl := Except.ok.inj hs
    rw [ht]
    exact h.element .anyWords l.position
  case h_3 ht =>
    obtain rfl := Except.ok.inj hs
    rw [ht]
    exact h.element .anyWord l.position
  case h_4 brackets name ht =>
    obtain rfl := Except.ok.inj hs
    rw [ht]
    exact h.element (.reference name) l.position
  case h_5 ht =>
    obtain rfl := Except.ok.inj hs
    obtain ⟨us, vs, rfl, hbrackets, hcurrent⟩ := h
    rw [ht]
    exact ⟨_, [], by simp, .choice hbrackets hcurrent .nil, .nil⟩
  case h_6 ht =>
    obtain rfl := Except.ok.inj hs
    obtain ⟨us, vs, rfl, hbrackets, hcurrent⟩ := h
    rw [ht]
    exact ⟨_, [], by simp, .optional hbrackets hcurrent, .nil⟩
  -- Where a bracket or a branch ends, the stack says what has been read since it began.
  case h_7 before bs outer ht hb =>
    obtain ⟨p, hp, hs⟩ := bind_eq_ok_iff.mp hs
    obtain rfl := Except.ok.inj hs
    obtain ⟨us, vs, rfl, hbrackets, hcurrent⟩ := h
    rw [hb] at hbrackets
    cases hbrackets with
    | choice houter hbefore hbs =>
      rw [ht]
      have hp := derives_of_finish (s := s.current.startAt l.position) hcurrent hp
      exact ⟨_, [], by simp, .choice houter hbefore (.cons hbs hp), .nil⟩
  case h_8 before bs outer ht hb =>
    obtain ⟨p, hp, hs⟩ := bind_eq_ok_iff.mp hs
    obtain rfl := Except.ok.inj hs
    obtain ⟨us, vs, rfl, hbrackets, hcurrent⟩ := h
    rw [hb] at hbrackets
    cases hbrackets with
    | choice houter hbefore hbs =>
      rw [ht]
      have hp := derives_of_finish (s := s.current.startAt l.position) hcurrent hp
      have hchoice := Phrase.Derives.choice (hbs.append (.lastBranch hp))
      rw [← List.reverse_cons] at hchoice
      exact ⟨_, _, by simp, houter, Derives.push hbefore hchoice⟩
  case h_9 before outer ht hb =>
    obtain ⟨p, hp, hs⟩ := bind_eq_ok_iff.mp hs
    obtain rfl := Except.ok.inj hs
    obtain ⟨us, vs, rfl, hbrackets, hcurrent⟩ := h
    rw [hb] at hbrackets
    cases hbrackets with
    | optional houter hbefore =>
      rw [ht]
      have hp := derives_of_finish (s := s.current.startAt l.position) hcurrent hp
      exact ⟨_, _, by simp, houter, Derives.push hbefore (.optional hp)⟩
  case h_10 => simp at hs

/-- A run of the parser: the stack spells all that has been read. -/
theorem Progress.run {ls : List Lexeme} {s s' : ParseState} {ts : List Token} (h : Progress s ts)
    (hs : ls.foldlM ParseState.step s = .ok s') : Progress s' (ts ++ ls.map Lexeme.token) := by
  induction ls generalizing s ts with
  | nil =>
    obtain rfl := Except.ok.inj hs
    simpa using h
  | cons l ls ih =>
    obtain ⟨s₁, hstep, hrest⟩ := bind_eq_ok_iff.mp hs
    simpa using ih (h.step hstep) hrest

/-- The tokens of a text are a pattern exactly if the grammar derives it from them. -/
theorem ofTokens?_eq_ok_iff {position : Nat} {ls : List Lexeme} {p : Pattern} :
    ofTokens? position ls = .ok p ↔ (Phrase.sequence p).Derives (ls.map Lexeme.token) := by
  constructor
  · intro h
    obtain ⟨s, hrun, hfinish⟩ := bind_eq_ok_iff.mp h
    have hstart : Progress .start [] := ⟨[], [], rfl, .nil, .nil⟩
    obtain ⟨us, vs, huv, hbrackets, hcurrent⟩ := hstart.run hrun
    unfold ParseState.finish at hfinish
    split at hfinish
    · rename_i hempty
      rw [List.isEmpty_iff.mp hempty] at hbrackets
      cases hbrackets
      rw [List.nil_append, List.nil_append] at huv
      rw [huv]
      exact derives_of_finish hcurrent hfinish
    · simp at hfinish
  · intro h
    obtain ⟨hreq, hrun⟩ := h.reads ls rfl
    obtain ⟨start, hrun⟩ := hrun []
    unfold ofTokens?
    rw [ParseState.start, hrun, ok_bind]
    exact Phrase.finish_eq_ok hreq position

/-- No list of tokens derives two patterns. -/
theorem Phrase.Derives.unique {p q : Pattern} {ts : List Token}
    (hp : (Phrase.sequence p).Derives ts) (hq : (Phrase.sequence q).Derives ts) : p = q := by
  have hts : (ts.map (Lexeme.mk 0)).map Lexeme.token = ts := by
    rw [List.map_map]
    exact List.map_id ts
  rw [← hts] at hp hq
  have hok : ofTokens? 0 (ts.map (Lexeme.mk 0)) = .ok p := ofTokens?_eq_ok_iff.mpr hp
  rw [ofTokens?_eq_ok_iff.mpr hq] at hok
  exact (Except.ok.inj hok).symm

/-- The bundled grammar gives a pattern for a text if its tokens derive the pattern. -/
theorem bundled_parse_eq_ok_iff (source : String) (p : Pattern) :
    Grammar.bundled.parse source = .ok p ↔
      ∃ ls, Token.scan 0 source.toList = .ok ls ∧
        (Phrase.sequence p).Derives (ls.map Lexeme.token) := by
  show ((ofText? source.toList).mapError _).mapError _ = .ok p ↔ _
  rw [mapError_eq_ok_iff, mapError_eq_ok_iff]
  unfold ofText?
  rw [bind_eq_ok_iff]
  simp only [ofTokens?_eq_ok_iff]

/-- The bundled grammar accepts a text exactly if its tokens derive a pattern, which is the one it
gives. The tokens derive at most one pattern, and every other text is a syntax error. -/
theorem parse_iff_derives (source : String) :
    (∀ p, Grammar.bundled.parse source = .ok p ↔
      ∃ ls, Token.scan 0 source.toList = .ok ls ∧
        (Phrase.sequence p).Derives (ls.map Lexeme.token)) ∧
    (∀ ts p q, (Phrase.sequence p).Derives ts → (Phrase.sequence q).Derives ts → p = q) ∧
    ((¬ ∃ p ls, Token.scan 0 source.toList = .ok ls ∧
        (Phrase.sequence p).Derives (ls.map Lexeme.token)) →
      ∃ fault, Grammar.bundled.parse source = .error (.syntaxError ⟨source, fault⟩)) := by
  have hiff := bundled_parse_eq_ok_iff source
  refine ⟨hiff, fun ts p q => Phrase.Derives.unique, fun h => ?_⟩
  have hno : ∀ p, Grammar.bundled.parse source ≠ .ok p := fun p hp => h ⟨p, (hiff p).mp hp⟩
  show ∃ fault, ((ofText? source.toList).mapError _).mapError _ = _
  change ∀ p, ((ofText? source.toList).mapError _).mapError _ ≠ .ok p at hno
  cases hres : ofText? source.toList with
  | error fault => exact ⟨fault, rfl⟩
  | ok p =>
    rw [hres] at hno
    exact absurd rfl (hno p)

/-- An optional part and a word are accepted, and a bracket that is left open is not. -/
theorem parse_iff_derives_optional :
    Grammar.bundled.parse "[a] b" = .ok [.optional [.word ['a']], .word ['b']] ∧
    ∃ fault, Grammar.bundled.parse "[a b" = .error (.syntaxError ⟨"[a b", fault⟩) := by
  constructor
  · apply ((parse_iff_derives "[a] b").1 _).mpr
    refine ⟨[⟨0, .openOptional⟩, ⟨1, .word ['a']⟩, ⟨2, .closeOptional⟩, ⟨4, .word ['b']⟩],
      by cbv, ?_⟩
    have ha : (Phrase.sequence [.word ['a']]).Derives [.word ['a']] :=
      .sequence (.cons (.word _) .nil) ⟨.word ['a'], by simp, rfl⟩
    exact .sequence (.cons (.optional ha) (.cons (.word _) .nil)) ⟨.word ['b'], by simp, rfl⟩
  · apply (parse_iff_derives "[a b").2.2
    rintro ⟨p, ls, hscan, hp⟩
    have hparse := ((parse_iff_derives "[a b").1 p).mpr ⟨ls, hscan, hp⟩
    have hfault : Grammar.bundled.parse "[a b" =
        .error (.syntaxError ⟨"[a b", ⟨4, .unexpectedEnd⟩⟩) := by cbv
    rw [hfault] at hparse
    cases hparse

end Rejoinder
