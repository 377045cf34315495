import Mathlib
import Rejoinder.Proofs.Pattern.Readings
import Rejoinder.Proofs.Regex.Marks
import Rejoinder.Proofs.Regex.Written
import Rejoinder.Proofs.Text.Fields

/-!
# Ways and readings side by side

A way through the expression of a part of a pattern mirrors a reading of the part if it has come to
the tokens that the reading leaves, and if its marks tell the tokens of the numbered parts
(`Mirrors`). A part is read in the order of its ways if, one by one, its ways mirror its readings
(`Reads`). Parts that are put one behind the other, put in turn or remembered as a group keep this
(`Reads.seq`, `Reads.append`, `Reads.group`).

A way may also stop inside a token, where no reading ends: then only options that are left out can
follow. And a reading may come to the end of the tokens before the first required element, where no
way ends: then nothing required can follow. Both are set aside (`atToken`, `goesOn`) before ways and
readings are compared.
-/

set_option autoImplicit false

namespace Rejoinder

open Regex

namespace ResolvedPattern

/-! ## Where tokens end -/

/-- What is left of a message when these tokens are left, behind something or before anything. -/
def spell (started : Bool) (ws : List Text) : Text :=
  if started then Text.led ws else Text.unwords ws

/-- The rest of a message begins with the end of a token. -/
def endsToken : Text → Bool
  | [] => true
  | c :: _ => c == ' '

/-- The texts are tokens of a message without a line feed. -/
def AreTokens (ws : List Text) : Prop := ∀ w ∈ ws, ' ' ∉ w ∧ '\n' ∉ w

/-- Tokens have no spaces in them. -/
theorem AreTokens.spaceFree {ws : List Text} (h : AreTokens ws) : Text.SpaceFree ws :=
  fun w hw => (h w hw).1

/-- Where words with a space before each begin, a token ends. -/
theorem endsToken_led (ws : List Text) : endsToken (Text.led ws) = true := by
  cases ws <;> rfl

/-- What begins with the end of a token is made up of the tokens behind. -/
theorem exists_of_endsToken {rest : Text} (h : endsToken rest = true) :
    ∃ ws, Text.SpaceFree ws ∧ rest = Text.led ws := by
  cases rest with
  | nil => exact ⟨[], by simp [Text.SpaceFree], rfl⟩
  | cons c rest =>
    obtain rfl : c = ' ' := by simpa [endsToken] using h
    refine ⟨Text.tokens rest, Text.spaceFree_tokens rest, ?_⟩
    rw [Text.led_eq_of_ne_nil (Text.tokens_ne_nil rest), Text.unwords_tokens]

/-- Before the tokens that are left, a token has ended only where nothing is left of it. -/
theorem endsToken_append_iff {w : Text} (hw : ' ' ∉ w) (ws : List Text) :
    endsToken (w ++ Text.led ws) = true ↔ w = [] := by
  constructor
  · intro h
    cases w with
    | nil => rfl
    | cons c w =>
      obtain rfl : c = ' ' := by simpa [endsToken] using h
      exact absurd List.mem_cons_self hw
  · rintro rfl
    exact endsToken_led ws

/-- There is no line feed in the spelling of tokens. -/
theorem not_mem_spell {ws : List Text} (h : AreTokens ws) (started : Bool) :
    '\n' ∉ spell started ws := by
  have hled {ws : List Text} (h : AreTokens ws) : '\n' ∉ Text.led ws := by
    intro hmem
    obtain ⟨w, hw, hmem⟩ := List.mem_flatMap.mp hmem
    rcases List.mem_cons.mp hmem with hspace | hmem
    · exact absurd hspace (by decide)
    · exact (h w hw).2 hmem
  cases started
  · cases ws with
    | nil => simp [spell, Text.unwords, Text.joinWith]
    | cons w ws =>
      obtain ⟨hw, hws⟩ := List.forall_mem_cons.mp h
      show '\n' ∉ w ++ Text.led ws
      rw [List.mem_append, not_or]
      exact ⟨hw.2, hled hws⟩
  · exact hled h

/-! ## Ways that mirror readings -/

/-- Behind something, the way has come to the end of a token. -/
def atToken (started : Bool) (t : Thread) : Bool := !started || endsToken t.rest

/-- Before anything, the reading leaves a token. -/
def goesOn (started : Bool) (d : Reading) : Bool := started || !d.left.isEmpty

/-- Behind something every reading goes on. -/
theorem filter_goesOn_true (ds : List Reading) : ds.filter (goesOn true) = ds :=
  List.filter_eq_self.mpr (by simp [goesOn])

/-- The way mirrors the reading of some tokens; `first` and `last` say whether anything stands
before the part that is read, and before what follows it. The groups have numbers from `lo` on below
`hi`. -/
structure Mirrors (first last : Bool) (lo hi : Nat) (ws : List Text) (t : Thread) (d : Reading) :
    Prop where
  rest : t.rest = spell last d.left
  goesOn : last = false → d.left ≠ []
  taken : ∃ taken, ws = taken ++ d.left ∧ (first = false → last = true → taken ≠ [])
  paired : Paired t.marks
  groups : ∀ i, captured? t.marks (numberedName i) = (d.groups.lookup i).map Text.unwords
  names : ∀ m ∈ t.marks, ∃ i, lo ≤ i ∧ i < hi ∧ m.name = numberedName i

namespace Mirrors

variable {first middle last : Bool} {lo mid hi : Nat} {ws : List Text} {t u : Thread}
  {d e : Reading}

/-- The numbers of the groups may lie in a wider range. -/
theorem weaken {lo' hi' : Nat} (h : Mirrors first last lo hi ws t d) (hlo : lo' ≤ lo)
    (hhi : hi ≤ hi') : Mirrors first last lo' hi' ws t d := by
  refine ⟨h.rest, h.goesOn, h.taken, h.paired, h.groups, ?_⟩
  intro m hm
  obtain ⟨i, hi, hlt, hname⟩ := h.names m hm
  exact ⟨i, by omega, by omega, hname⟩

/-- A way without groups of its own mirrors a reading whatever the range of numbers is. -/
theorem widen (h : Mirrors first last mid mid ws t d) : Mirrors first last lo hi ws t d := by
  -- Where there are no numbers, there are no marks either.
  refine ⟨h.rest, h.goesOn, h.taken, h.paired, h.groups, ?_⟩
  intro m hm
  obtain ⟨i, hle, hlt, _⟩ := h.names m hm
  omega

/-- A way without marks mirrors a reading without groups if it has come to the tokens left. -/
theorem of_no_marks (taken : List Text) {left : List Text} (hmarks : t.marks = [])
    (hrest : t.rest = spell last left) (hgoes : last = false → left ≠ []) (hws : ws = taken ++ left)
    (htaken : first = false → last = true → taken ≠ []) :
    Mirrors first last lo hi ws t ⟨left, []⟩ := by
  refine ⟨hrest, hgoes, ⟨taken, hws, htaken⟩, ?_, ?_, ?_⟩
  · intro name
    rw [hmarks]
    rfl
  · intro i
    rw [hmarks]
    rfl
  · rw [hmarks]
    simp

/-- What a mirrored reading leaves are tokens, as those that it began with are. -/
theorem areTokens (h : Mirrors first last lo hi ws t d) (hws : AreTokens ws) :
    AreTokens d.left := by
  obtain ⟨taken, hsplit, _⟩ := h.taken
  rw [hsplit] at hws
  exact fun w hw => hws w (List.mem_append_right _ hw)

/-- One way behind another mirrors one reading behind another. -/
theorem followed (h : Mirrors first middle lo mid ws t d)
    (h' : Mirrors middle last mid hi d.left u e) (hlo : lo ≤ mid) (hhi : mid ≤ hi) :
    Mirrors first last lo hi ws (t.behind u) (d.followed e) := by
  refine ⟨h'.rest, h'.goesOn, ?_, h'.paired.append h.paired, ?_, ?_⟩
  · obtain ⟨taken, hws, htaken⟩ := h.taken
    obtain ⟨taken', hleft, htaken'⟩ := h'.taken
    refine ⟨taken ++ taken', by rw [hws, hleft, List.append_assoc]; rfl, ?_⟩
    intro hfirst hlast
    cases middle
    · exact List.append_ne_nil_of_right_ne_nil _ (htaken' rfl hlast)
    · exact List.append_ne_nil_of_left_ne_nil (htaken hfirst rfl) _
  · intro i
    show captured? (u.marks ++ t.marks) _ = ((e.groups ++ d.groups).lookup i).map _
    rw [captured?_append h'.paired, h.groups, h'.groups, List.lookup_append]
    cases e.groups.lookup i <;> rfl
  · intro m hm
    rcases List.mem_append.mp hm with hm | hm
    · obtain ⟨i, hmid, hlt, hname⟩ := h'.names m hm
      exact ⟨i, by omega, hlt, hname⟩
    · obtain ⟨i, hle, hlt, hname⟩ := h.names m hm
      exact ⟨i, hle, by omega, hname⟩

/-- The text between two places of which the second one lies behind some tokens. -/
theorem take_unwords {taken left : List Text} (h : taken ≠ []) :
    (Text.unwords (taken ++ left)).take
      ((Text.unwords (taken ++ left)).length - (Text.led left).length) = Text.unwords taken := by
  rw [Text.unwords_append h, List.length_append, Nat.add_sub_cancel, List.take_left]

/-- A group around a way remembers the tokens that the way has passed. -/
theorem group {number : Nat} (h : Mirrors false true (number + 1) hi ws t d) (hlt : number < hi)
    (numbers : List Nat) :
    Mirrors false true number hi ws
      ⟨t.place, enclosed (numberedName number) (.ofText (Text.unwords ws)) t.place t.marks, numbers⟩
      ⟨d.left, (number, ws.take (ws.length - d.left.length)) :: d.groups⟩ := by
  -- The groups inside have higher numbers, so neither hides the marks of the other.
  have hnames : ∀ m ∈ t.marks, m.name ≠ numberedName number := by
    intro m hm hname
    obtain ⟨i, hle, _, hi⟩ := h.names m hm
    have := groupName_injective (hname.symm.trans hi)
    omega
  refine ⟨h.rest, h.goesOn, h.taken, paired_enclosed hnames h.paired, ?_, ?_⟩
  · intro i
    by_cases hi : i = number
    · subst hi
      obtain ⟨taken, hws, htaken⟩ := h.taken
      have hplace : t.place.left = (Text.led d.left).length := by
        rw [t.place.left_eq, ← show t.rest = Text.led d.left from h.rest]
        rfl
      show captured? (enclosed _ _ t.place t.marks) _ = _
      rw [captured?_enclosed_self hnames, hplace, List.lookup_cons_self, Option.map_some, hws,
        List.length_append, Nat.add_sub_cancel, List.take_left]
      exact congrArg some (take_unwords (htaken rfl rfl))
    · have hne : numberedName number ≠ numberedName i :=
        fun hname => hi (groupName_injective hname).symm
      show captured? (enclosed _ _ t.place t.marks) _ = _
      rw [captured?_enclosed_of_ne hne, h.groups, List.lookup_cons, beq_eq_false_iff_ne.mpr hi]
  · intro m hm
    rcases List.mem_append.mp hm with hm | hm
    · obtain rfl := List.mem_singleton.mp hm
      exact ⟨number, Nat.le_refl _, hlt, rfl⟩
    · rcases List.mem_append.mp hm with hm | hm
      · obtain ⟨i, hle, hi, hname⟩ := h.names m hm
        exact ⟨i, by omega, hi, hname⟩
      · obtain rfl := List.mem_singleton.mp hm
        exact ⟨number, Nat.le_refl _, hlt, rfl⟩

end Mirrors

/-! ## Parts that are read in the order of their ways -/

/-- Wherever the part begins, its ways mirror the readings of the reader, one by one. -/
def Reads (first last : Bool) (lo hi : Nat) (f : Thread → List Thread) (r : Reader) : Prop :=
  ∀ ws, AreTokens ws → (first = false → ws ≠ []) →
    List.Forall₂ (Mirrors first last lo hi ws)
      ((f (.start (.ofText (spell first ws)))).filter (atToken last)) ((r ws).filter (goesOn last))

/-- Members of which no continuation is kept may be set aside before. -/
theorem filter_flatMap_of_filter {α β : Type} {f : α → List β} {p : α → Bool} {p' : β → Bool}
    {as : List α} (h : ∀ a ∈ as, p a = false → (f a).filter p' = []) :
    (as.flatMap f).filter p' = (as.filter p).flatMap fun a => (f a).filter p' := by
  induction as with
  | nil => rfl
  | cons a as ih =>
    obtain ⟨ha, has⟩ := List.forall_mem_cons.mp h
    rw [List.flatMap_cons, List.filter_append, ih has]
    cases hp : p a
    · rw [ha hp, List.filter_cons_of_neg (by simp [hp]), List.nil_append]
    · rw [List.filter_cons_of_pos hp, List.flatMap_cons]

namespace Reads

variable {first middle last : Bool} {lo mid hi lo' hi' : Nat} {f g : Thread → List Thread}
  {r r' : Reader}

/-- The numbers of the groups may lie in a wider range. -/
theorem weaken (h : Reads first last lo hi f r) (hlo : lo' ≤ lo) (hhi : hi ≤ hi') :
    Reads first last lo' hi' f r :=
  fun ws hws hne => (h ws hws hne).imp fun _ _ hr => hr.weaken hlo hhi

/-- A part without groups of its own is read alike whatever the range of numbers is. -/
theorem widen (h : Reads first last mid mid f r) : Reads first last lo hi f r :=
  fun ws hws hne => (h ws hws hne).imp fun _ _ hr => hr.widen

/-- A part without ways is read in no way. -/
theorem none : Reads first last lo hi (fun _ => []) fun _ => [] :=
  fun _ _ _ => .nil

/-- A part that is passed without going on is read as nothing. -/
theorem stay (started : Bool) :
    Reads started started lo hi (fun t => [t]) fun ws => [⟨ws, []⟩] := by
  intro ws _ hne
  have hway : atToken started (.start (.ofText (spell started ws))) = true := by
    cases started
    · rfl
    · exact endsToken_led ws
  have hreading : goesOn started ⟨ws, []⟩ = true := by
    cases started
    · simpa [goesOn] using hne rfl
    · rfl
  rw [List.filter_cons_of_pos hway, List.filter_cons_of_pos hreading]
  refine .cons (.of_no_marks [] rfl rfl hne rfl ?_) .nil
  intro hfalse htrue
  rw [hfalse] at htrue
  exact absurd htrue (by simp)

/-- Two parts that may be taken in turn are read in turn. -/
theorem append (h : Reads first last lo hi f r) (h' : Reads first last lo hi g r') :
    Reads first last lo hi (fun t => f t ++ g t) fun ws => r ws ++ r' ws := by
  intro ws hws hne
  rw [List.filter_append, List.filter_append]
  exact List.rel_append (h ws hws hne) (h' ws hws hne)

variable {whole : Nat} {ss ss' : List Step}

/-- One part behind another. Ways that stop inside a token lead no further through the second part,
and readings that come to the end of the tokens before anything required do not either. -/
theorem seq (h : Reads first middle lo mid (sequenceWays whole ss) r)
    (h' : Reads middle last mid hi (sequenceWays whole ss') r') (hlo : lo ≤ mid) (hhi : mid ≤ hi)
    (hways : middle = true → ∀ t : Thread, '\n' ∉ t.rest → endsToken t.rest = false →
      ∀ u ∈ sequenceWays whole ss' t, atToken last u = false)
    (hreadings : middle = false → ∀ d ∈ r' [], goesOn last d = false) :
    Reads first last lo hi (sequenceWays whole (ss ++ ss')) (.behind r r') := by
  intro ws hws hne
  rw [sequenceWays_append, Reader.behind, filter_flatMap_of_filter (p := atToken middle),
    filter_flatMap_of_filter (p := goesOn middle)]
  · -- What is left after the first part is where the second part begins, on either side.
    refine List.rel_flatMap (h ws hws hne) ?_
    intro t d hr
    have hplace : t.place = .ofText (spell middle d.left) := Place.eq_of_rest hr.rest
    have hnext := h' d.left (hr.areTokens hws) hr.goesOn
    show List.Forall₂ _ ((sequenceWays whole ss' t).filter _) (((r' d.left).map _).filter _)
    rw [sequenceWays_eq_map whole ss' t, List.filter_map, List.filter_map, hplace]
    refine List.rel_map ?_ hnext
    intro u e hu
    exact hr.followed hu hlo hhi
  · intro d _ hstuck
    simp only [goesOn, Bool.or_eq_false_iff, Bool.not_eq_false', List.isEmpty_iff] at hstuck
    rw [List.filter_map, List.map_eq_nil_iff, List.filter_eq_nil_iff, hstuck.2]
    intro e he
    show ¬ goesOn last e = true
    rw [hreadings hstuck.1 e he]
    simp
  · intro t ht hstuck
    simp only [atToken, Bool.or_eq_false_iff, Bool.not_eq_false'] at hstuck
    have hrest : '\n' ∉ t.rest := fun hmem =>
      not_mem_spell hws first ((rest_suffix_of_mem_sequenceWays whole ss ht).subset hmem)
    rw [List.filter_eq_nil_iff]
    intro u hu
    rw [hways hstuck.1 t hrest hstuck.2 u hu]
    simp

/-- What is read in a group is read in the same order, and remembered. -/
theorem group {number : Nat} (h : Reads false true (number + 1) hi (sequenceWays whole ss) r)
    (hlt : number < hi) :
    Reads false true number hi
      (sequenceWays whole [.capture (some (numberedName number)) ss])
      (.remembered true number r) := by
  intro ws hws hne
  have hways := sequenceWays_eq_map whole ss
    ((Thread.start (.ofText (Text.unwords ws))).mark (some (numberedName number)) true)
  rw [Thread.mark_place] at hways
  rw [sequenceWays_singleton]
  show List.Forall₂ _ (((sequenceWays whole ss _).map _).filter _) (((r ws).map _).filter _)
  rw [List.filter_map, List.filter_map, show spell false ws = Text.unwords ws from rfl, hways,
    List.filter_map, List.map_map]
  refine List.rel_map ?_ (h ws hws hne)
  intro t d hr
  exact hr.group hlt []

end Reads

end ResolvedPattern

end Rejoinder
