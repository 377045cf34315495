import Mathlib
import Rejoinder.Proofs.Pattern.Tiling

/-!
# Where syntax errors point

A syntax error holds a byte offset, and what stands in front of it has tokens of its own
(`Pattern.parse_error_repairable`). Where the scanner stops, it has read everything in front of that
place. The parser reports the end of the text, the token that it cannot read, or the token with
which a sequence begins: it keeps no other offsets (`ParseState.BeginsAmong`).

If the text as a whole has tokens, then the parser has read those in front of the offset without a
fault, and from every state that it can be in there is a way to go on to the end of a pattern: a
word makes the innermost sequence one that may end, then its bracket ends, and so on outwards
(`exists_finish_of_completion`).
-/

set_option autoImplicit false

namespace Rejoinder

namespace Pattern

/-! ## The offsets that the parser keeps -/

/-- The sequence begins, once it does, where one of the lexemes does. -/
def Unfinished.BeginsAmong (ls : List Lexeme) (s : Unfinished) : Prop :=
  ∀ position ∈ s.start, ∃ l ∈ ls, l.position = position

/-- The sequence in which a bracket stands. -/
def OpenBracket.before : OpenBracket → Unfinished
  | .choice before _ => before
  | .optional before => before

/-- Every sequence that the parser has begun begins where one of the lexemes does. -/
structure ParseState.BeginsAmong (ls : List Lexeme) (s : ParseState) : Prop where
  current : s.current.BeginsAmong ls
  brackets : ∀ b ∈ s.brackets, b.before.BeginsAmong ls

section Offsets

variable {ls ks : List Lexeme} {l : Lexeme} {fault : SyntaxFault}

/-- A sequence that has not begun has its beginning anywhere. -/
theorem Unfinished.beginsAmong_empty : Unfinished.empty.BeginsAmong ls := by
  intro position h
  contradiction

/-- A sequence that begins among some lexemes begins among more of them. -/
theorem Unfinished.BeginsAmong.append {s : Unfinished} (h : s.BeginsAmong ls) :
    s.BeginsAmong (ls ++ ks) := by
  intro position hposition
  obtain ⟨m, hm, hat⟩ := h position hposition
  exact ⟨m, List.mem_append_left ks hm, hat⟩

/-- A sequence that does not begin before a lexeme begins there. -/
theorem Unfinished.BeginsAmong.startAt {s : Unfinished} (h : s.BeginsAmong ls) :
    (s.startAt l.position).BeginsAmong (ls ++ [l]) := by
  intro position hposition
  obtain rfl := Option.some.inj hposition
  cases hstart : s.start with
  | none => exact ⟨l, by simp, rfl⟩
  | some start =>
    obtain ⟨m, hm, hat⟩ := h start hstart
    exact ⟨m, List.mem_append_left _ hm, hat⟩

/-- A sequence that cannot end is reported where it begins. -/
theorem Unfinished.position_of_finish_eq_error {s : Unfinished} {position : Nat}
    (h : s.finish position = .error fault) : fault.position = s.start.getD position := by
  unfold Unfinished.finish at h
  split at h
  · obtain rfl := Except.error.inj h
    rfl
  · split at h
    · contradiction
    · obtain rfl := Except.error.inj h
      rfl

/-- A sequence that cannot end with a lexeme is reported there or where it begins. -/
theorem Unfinished.BeginsAmong.of_finish_eq_error {s : Unfinished} (h : s.BeginsAmong ls)
    (hfinish : (s.startAt l.position).finish l.position = .error fault) :
    ∃ m ∈ ls ++ [l], m.position = fault.position := by
  refine h.startAt fault.position ?_
  rw [Unfinished.position_of_finish_eq_error hfinish]
  rfl

namespace ParseState

variable {s s' : ParseState}

/-- One token is read: no sequence begins but where it did before or at that token. -/
theorem BeginsAmong.step (h : s.BeginsAmong ls) (hs : s.step l = .ok s') :
    s'.BeginsAmong (ls ++ [l]) := by
  have hcurrent : (s.current.startAt l.position).BeginsAmong (ls ++ [l]) := h.current.startAt
  have hbrackets : ∀ b ∈ s.brackets, b.before.BeginsAmong (ls ++ [l]) :=
    fun b hb => (h.brackets b hb).append
  unfold ParseState.step at hs
  split at hs
  case h_1 | h_2 | h_3 | h_4 =>
    obtain rfl := Except.ok.inj hs
    exact ⟨hcurrent, hbrackets⟩
  case h_5 | h_6 =>
    obtain rfl := Except.ok.inj hs
    exact ⟨Unfinished.beginsAmong_empty, List.forall_mem_cons.mpr ⟨hcurrent, hbrackets⟩⟩
  case h_7 before branches outer _ hstack =>
    obtain ⟨branch, -, hs⟩ := bind_eq_ok_iff.mp hs
    obtain rfl := Except.ok.inj hs
    rw [hstack] at hbrackets
    obtain ⟨hbefore, houter⟩ := List.forall_mem_cons.mp hbrackets
    exact ⟨Unfinished.beginsAmong_empty, List.forall_mem_cons.mpr ⟨hbefore, houter⟩⟩
  case h_8 hstack | h_9 hstack =>
    obtain ⟨body, -, hs⟩ := bind_eq_ok_iff.mp hs
    obtain rfl := Except.ok.inj hs
    rw [hstack] at hbrackets
    obtain ⟨hbefore, houter⟩ := List.forall_mem_cons.mp hbrackets
    exact ⟨hbefore, houter⟩
  case h_10 => contradiction

/-- A token that cannot be read is reported there or where its sequence begins. -/
theorem BeginsAmong.of_step_eq_error (h : s.BeginsAmong ls) (hs : s.step l = .error fault) :
    ∃ m ∈ ls ++ [l], m.position = fault.position := by
  unfold ParseState.step at hs
  split at hs
  case h_1 | h_2 | h_3 | h_4 | h_5 | h_6 => contradiction
  case h_7 | h_8 | h_9 =>
    have hfinish := (error?_bind_pure _ _).symm.trans (error?_eq_some_iff.mpr hs)
    exact h.current.of_finish_eq_error (error?_eq_some_iff.mp hfinish)
  case h_10 =>
    obtain rfl := Except.error.inj hs
    exact ⟨l, by simp, rfl⟩

/-- A run of the parser: every sequence begins at one of the tokens that have been read. -/
theorem BeginsAmong.run (h : s.BeginsAmong ls) (hs : ks.foldlM ParseState.step s = .ok s') :
    s'.BeginsAmong (ls ++ ks) := by
  induction ks generalizing s ls with
  | nil =>
    obtain rfl := Except.ok.inj hs
    simpa using h
  | cons k ks ih =>
    obtain ⟨s₁, hstep, hrest⟩ := bind_eq_ok_iff.mp hs
    simpa using ih (h.step hstep) hrest

/-- Before anything has been read, every sequence has its beginning. -/
theorem beginsAmong_start : ParseState.start.BeginsAmong [] :=
  ⟨Unfinished.beginsAmong_empty, fun b hb => by contradiction⟩

end ParseState

/-- A run of the parser goes through every beginning of the tokens. -/
theorem exists_run_of_append {s s' : ParseState}
    (h : (ls ++ ks).foldlM ParseState.step s = .ok s') :
    ∃ s₁, ls.foldlM ParseState.step s = .ok s₁ := by
  rw [List.foldlM_append] at h
  obtain ⟨s₁, hrun, -⟩ := bind_eq_ok_iff.mp h
  exact ⟨s₁, hrun⟩

/-- A fault of the parser lies at one of the tokens or at the end of the text, and the parser reads
all tokens in front of it. -/
theorem exists_run_of_ofTokens?_eq_error {position : Nat}
    (h : ofTokens? position ls = .error fault) :
    ∃ front rest s, ls = front ++ rest ∧ front.foldlM ParseState.step .start = .ok s ∧
      (rest.head?.map Lexeme.position).getD position = fault.position := by
  unfold ofTokens? at h
  cases hrun : ls.foldlM ParseState.step .start with
  | error cause =>
    rw [hrun] at h
    obtain rfl := Except.error.inj h
    obtain ⟨read, l, unread, s, rfl, hread, hstep⟩ := exists_of_foldlM_eq_error hrun
    have hbegins := ParseState.beginsAmong_start.run hread
    -- The fault is told at the token that is refused, or where the sequence begins that it ends.
    obtain ⟨m, hm, hposition⟩ := hbegins.of_step_eq_error hstep
    rw [List.nil_append] at hm
    rcases List.mem_append.mp hm with hm | hm
    · obtain ⟨front, behind, rfl⟩ := List.append_of_mem hm
      obtain ⟨s₁, hfront⟩ := exists_run_of_append hread
      exact ⟨front, m :: behind ++ l :: unread, s₁, by simp, hfront, hposition⟩
    · obtain rfl := List.mem_singleton.mp hm
      exact ⟨read, m :: unread, s, rfl, hread, hposition⟩
  | ok s =>
    rw [hrun, ok_bind] at h
    unfold ParseState.finish at h
    split at h
    · have hposition := Unfinished.position_of_finish_eq_error h
      cases hstart : s.current.start with
      | none =>
        rw [hstart] at hposition
        exact ⟨ls, [], s, by simp, hrun, hposition.symm⟩
      | some start =>
        rw [hstart] at hposition
        have hbegins := ParseState.beginsAmong_start.run hrun
        obtain ⟨m, hm, hat⟩ := hbegins.current start hstart
        obtain ⟨front, behind, rfl⟩ := List.append_of_mem hm
        obtain ⟨s₁, hfront⟩ := exists_run_of_append hrun
        exact ⟨front, m :: behind, s₁, rfl, hfront, hat.trans hposition.symm⟩
    · obtain rfl := Except.error.inj h
      exact ⟨ls, [], s, by simp, hrun, rfl⟩

end Offsets

/-! ## Going on to the end of a pattern -/

/-- The token that ends a bracket. -/
def OpenBracket.closing : OpenBracket → Token
  | .choice .. => .closeChoice
  | .optional _ => .closeOptional

/-- Tokens that end a pattern inside these brackets: an asterisk, for the innermost sequence needs
something required, and for every bracket its end and an asterisk in the sequence around it. -/
def completion : List OpenBracket → List Token
  | [] => [.star]
  | b :: outer => .star :: b.closing :: completion outer

/-- The tokens that complete a pattern are valid. -/
theorem valid_of_mem_completion (bs : List OpenBracket) : ∀ t ∈ completion bs, t.Valid := by
  induction bs with
  | nil => exact List.forall_mem_singleton.mpr trivial
  | cons b outer ih =>
    have hclosing : b.closing.Valid := by cases b <;> trivial
    exact List.forall_mem_cons.mpr ⟨trivial, List.forall_mem_cons.mpr ⟨hclosing, ih⟩⟩

/-- A sequence may end behind an asterisk. -/
theorem exists_finish_of_push_anyWords (s : Unfinished) (position : Nat) :
    ∃ p, (s.push .anyWords).finish position = .ok p := by
  refine ⟨(Element.anyWords :: s.elements).reverse, ?_⟩
  have hrequired : ∃ e ∈ (Element.anyWords :: s.elements).reverse, e.isRequired :=
    ⟨.anyWords, by simp, rfl⟩
  have hfinish : Unfinished.finish position
      ⟨s.start, (Element.anyWords :: s.elements).reverse.reverse⟩ = _ :=
    Phrase.finish_eq_ok hrequired position
  rwa [List.reverse_reverse] at hfinish

section Completion

variable {s : ParseState} {l : Lexeme}

/-- An asterisk is an element of the innermost sequence. -/
theorem step_star (h : l.token = .star) :
    s.step l = .ok ⟨(s.current.startAt l.position).push .anyWords, s.brackets⟩ := by
  simp [ParseState.step, h]

/-- A bracket ends behind an asterisk. -/
theorem exists_step_of_closing {b : OpenBracket} (h : l.token = b.closing) (current : Unfinished)
    (outer : List OpenBracket) :
    ∃ e, ParseState.step ⟨current.push .anyWords, b :: outer⟩ l = .ok ⟨b.before.push e, outer⟩ := by
  obtain ⟨p, hp⟩ := exists_finish_of_push_anyWords (current.startAt l.position) l.position
  cases b with
  | choice before branches => exact ⟨_, Phrase.step_closeChoice h hp⟩
  | optional before => exact ⟨_, Phrase.step_closeOptional h hp⟩

/-- From every state the parser comes to the end of a pattern. -/
theorem exists_finish_of_completion {ls : List Lexeme}
    (h : ls.map Lexeme.token = completion s.brackets) (position : Nat) :
    ∃ s' p, ls.foldlM ParseState.step s = .ok s' ∧ s'.finish position = .ok p := by
  obtain ⟨current, brackets⟩ := s
  induction brackets generalizing current ls with
  | nil =>
    obtain ⟨l, rfl, hl⟩ := List.map_eq_singleton_iff.mp h
    obtain ⟨p, hp⟩ := exists_finish_of_push_anyWords (current.startAt l.position) position
    refine ⟨⟨(current.startAt l.position).push .anyWords, []⟩, p, ?_, hp⟩
    rw [List.foldlM_cons, step_star hl]
    rfl
  | cons b outer ih =>
    obtain ⟨l, rest, rfl, hl, hrest⟩ := List.map_eq_cons_iff.mp h
    obtain ⟨m, rest, rfl, hm, hrest⟩ := List.map_eq_cons_iff.mp hrest
    obtain ⟨e, hstep⟩ := exists_step_of_closing hm (current.startAt l.position) outer
    obtain ⟨s', p, hrun, hp⟩ := ih (b.before.push e) hrest
    refine ⟨s', p, ?_, hp⟩
    rw [List.foldlM_cons, step_star hl, ok_bind, List.foldlM_cons, hstep, ok_bind, hrun]

end Completion

end Pattern

/-! ## Texts -/

namespace Token

/-- The text in which each of the tokens stands behind a space. -/
def spaced : List Token → Text
  | [] => []
  | t :: ts => ' ' :: (t.spelling ++ spaced ts)

/-- Every token ends before a space and at the end of the text. -/
theorem endsBefore_spaced (token : Token) (ts : List Token) : token.EndsBefore (spaced ts) := by
  have hspace : ∀ c ∈ (spaced ts).head?, c = ' ' := by
    cases ts with
    | nil => simp [spaced]
    | cons t ts => simp [spaced]
  cases token with
  | word letters =>
    intro c hc
    rw [hspace c hc]
    decide
  | reference name =>
    intro c hc
    rw [hspace c hc]
    decide
  | _ => trivial

/-- Valid tokens with a space in front of each tile their text. -/
theorem exists_tiles_spaced {ts : List Token} (h : ∀ t ∈ ts, t.Valid) (position : Nat) :
    ∃ ls, Tiles position (spaced ts) ls ∧ ls.map Lexeme.token = ts := by
  induction ts generalizing position with
  | nil => exact ⟨[], .nil position, rfl⟩
  | cons t ts ih =>
    obtain ⟨hvalid, hvalids⟩ := List.forall_mem_cons.mp h
    obtain ⟨ls, htiles, htokens⟩ := ih hvalids (position + ' '.utf8Size + Text.utf8Size t.spelling)
    refine ⟨_, .blank (by decide) (.token hvalid (endsBefore_spaced t ts) htiles), ?_⟩
    rw [List.map_cons, htokens]

end Token

namespace Pattern

/-- A text that is tiled by tokens which the parser has read can be completed to a pattern. -/
theorem exists_ofText?_append {front : Text} {ls : List Lexeme} {s : ParseState}
    (htiles : Token.Tiles 0 front ls) (hrun : ls.foldlM ParseState.step .start = .ok s) :
    ∃ suffix p, ofText? (front ++ suffix) = .ok p := by
  have hvalid := valid_of_mem_completion s.brackets
  obtain ⟨ks, hsuffix, htokens⟩ := Token.exists_tiles_spaced hvalid (0 + Text.utf8Size front)
  have hends : ∀ token : Token, token.EndsBefore (Token.spaced (completion s.brackets)) :=
    fun token => Token.endsBefore_spaced token _
  have hscan := (htiles.append hends hsuffix).scan_eq_ok
  obtain ⟨s', p, hrun', hfinish⟩ := exists_finish_of_completion htokens
    (Text.utf8Size (front ++ Token.spaced (completion s.brackets)))
  refine ⟨Token.spaced (completion s.brackets), p, ?_⟩
  rw [ofText?, hscan, ok_bind, ofTokens?, List.foldlM_append, hrun, ok_bind, hrun', ok_bind,
    hfinish]

/-- A fault in a text lies behind a text that has tokens. If the whole text has tokens, then the
text in front of the fault can be completed to a pattern. -/
theorem exists_front_of_ofText?_eq_error {t : Text} {fault : SyntaxFault}
    (h : ofText? t = .error fault) :
    ∃ front back, t = front ++ back ∧ Text.utf8Size front = fault.position ∧
      (∃ ls, Token.scan 0 front = .ok ls) ∧
      ((∃ ls, Token.scan 0 t = .ok ls) → ∃ suffix p, ofText? (front ++ suffix) = .ok p) := by
  unfold ofText? at h
  cases hscan : Token.scan 0 t with
  | error cause =>
    rw [hscan] at h
    obtain rfl := Except.error.inj h
    obtain ⟨front, back, ls, rfl, hposition, htiles⟩ := Token.exists_front_of_scan_eq_error hscan
    rw [Nat.zero_add] at hposition
    refine ⟨front, back, rfl, hposition.symm, ⟨ls, htiles.scan_eq_ok⟩, ?_⟩
    rintro ⟨ks, hks⟩
    contradiction
  | ok ls =>
    rw [hscan, ok_bind] at h
    obtain ⟨read, rest, s, rfl, hrun, hposition⟩ := exists_run_of_ofTokens?_eq_error h
    have htiles := Token.scan_eq_ok_iff_tiles.mp hscan
    obtain ⟨front, back, rfl, hfront, hat⟩ := htiles.exists_front
    rw [Nat.zero_add, Nat.zero_add, hposition] at hat
    refine ⟨front, back, rfl, hat.symm, ⟨read, hfront.scan_eq_ok⟩, fun _ => ?_⟩
    exact exists_ofText?_append hfront hrun

/-- The bundled grammar refuses a text for the first fault in it. -/
theorem bundled_parse_eq_error_iff {source : String} {error : SyntaxError} :
    Grammar.bundled.parse source = .error (.syntaxError error) ↔
      error.source = source ∧ ofText? source.toList = .error error.fault := by
  show ((ofText? source.toList).mapError _).mapError _ = _ ↔ _
  obtain ⟨written, fault⟩ := error
  cases ofText? source.toList with
  | error cause => simp [Except.mapError, eq_comm]
  | ok p => simp [Except.mapError]

/-- The bundled grammar accepts the strings of the texts that are patterns. -/
theorem bundled_parse_ofList {t : Text} {p : Pattern} (h : ofText? t = .ok p) :
    Grammar.bundled.parse (String.ofList t) = .ok p := by
  show ((ofText? (String.ofList t).toList).mapError _).mapError _ = _
  rw [String.toList_ofList, h]
  rfl

/-- A syntax error points at a place that can be repaired. It holds the text, and its offset is that
of a character of the text or of its end. The text in front of that place has tokens, and if the
whole text has, then the text in front can be completed to a pattern. -/
theorem parse_error_repairable {source : String} {error : SyntaxError}
    (h : Grammar.bundled.parse source = .error (.syntaxError error)) :
    error.source = source ∧ error.fault.position ≤ source.utf8ByteSize ∧
      ∃ front back : String, source = front ++ back ∧
        front.utf8ByteSize = error.fault.position ∧
        (∃ ls, Token.scan 0 front.toList = .ok ls) ∧
        ((∃ ls, Token.scan 0 source.toList = .ok ls) →
          ∃ suffix p, Grammar.bundled.parse (front ++ suffix) = .ok p) := by
  obtain ⟨hsource, hfault⟩ := bundled_parse_eq_error_iff.mp h
  obtain ⟨front, back, hsplit, hposition, hscan, hcompletes⟩ :=
    exists_front_of_ofText?_eq_error hfault
  have hstring : source = String.ofList front ++ String.ofList back := by
    rw [← String.ofList_append, ← hsplit, String.ofList_toList]
  have hsize : (String.ofList front).utf8ByteSize = error.fault.position := by
    rw [String.utf8ByteSize_ofList, ← hposition, Text.utf8Size_eq_utf8Len]
  refine ⟨hsource, ?_, _, _, hstring, hsize, ?_, fun hscans => ?_⟩
  · rw [hstring, String.utf8ByteSize_append, hsize]
    exact Nat.le_add_right _ _
  · rwa [String.toList_ofList]
  · obtain ⟨suffix, p, hp⟩ := hcompletes hscans
    refine ⟨String.ofList suffix, p, ?_⟩
    rw [← String.ofList_append]
    exact bundled_parse_ofList hp

set_option maxRecDepth 1000 in
/-- A branch of optional parts is reported where it begins, here behind a letter of two bytes. -/
theorem parse_error_repairable_branch :
    Grammar.bundled.parse "é ([*])" =
        .error (.syntaxError ⟨"é ([*])", ⟨4, .nothingRequired⟩⟩) ∧
      ∃ front back : String, "é ([*])" = front ++ back ∧ front.utf8ByteSize = 4 ∧
        ∃ suffix p, Grammar.bundled.parse (front ++ suffix) = .ok p := by
  have hscans : Token.scan 0 "é ([*])".toList =
      .ok [⟨0, .word ['é']⟩, ⟨3, .openChoice⟩, ⟨4, .openOptional⟩, ⟨5, .star⟩,
        ⟨6, .closeOptional⟩, ⟨7, .closeChoice⟩] := by cbv
  have herror : Grammar.bundled.parse "é ([*])" =
      .error (.syntaxError ⟨"é ([*])", ⟨4, .nothingRequired⟩⟩) := by cbv
  obtain ⟨-, -, front, back, hsource, hposition, -, hcompletes⟩ := parse_error_repairable herror
  exact ⟨herror, front, back, hsource, hposition, hcompletes ⟨_, hscans⟩⟩

end Pattern

end Rejoinder
