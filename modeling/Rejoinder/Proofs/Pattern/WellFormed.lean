import Mathlib
import Rejoinder.Proofs.Pattern.Derivation
import Rejoinder.Proofs.Text.Classes

/-!
# Well-formed patterns

Not every value of the type of patterns can be written down: a word may not be empty, a choice needs
a branch, and a sequence needs a required element. The parser gives well-formed patterns only: the
tokens of a text are valid (`valid_of_scan`), and what valid tokens derive is well-formed
(`Phrase.Derives.wellFormed`).
-/

set_option autoImplicit false

namespace Rejoinder

/-- Some element of the pattern has to be there. -/
def Pattern.HasRequired (p : Pattern) : Prop := ∃ e ∈ p, e.isRequired

/-- The text is a literal word: one or more letters or numbers, none of them in upper case. -/
def Token.IsWord (letters : Text) : Prop := letters ≠ [] ∧ ∀ c ∈ letters, isWordChar c = true

/-- No reserved character is in a literal word. -/
theorem Token.IsWord.not_mem {w : Text} {c : Char} (h : Token.IsWord w) (hc : c ∈ Token.reserved) :
    c ∉ w := fun hmem => not_mem_reserved (h.2 c hmem) hc

mutual

/-- The words and names in an element can be written, a choice has a branch, and every branch and
optional part has a required element. -/
def Element.WellFormed : Element → Prop
  | .word letters => Token.IsWord letters
  | .anyWords => True
  | .anyWord => True
  | .choice branches => branches ≠ [] ∧ branchesWellFormed branches
  | .optional body => Pattern.HasRequired body ∧ elementsWellFormed body
  | .reference name => Token.isName name.toList = true
termination_by structural e => e

/-- All of some elements are well-formed. -/
def elementsWellFormed : List Element → Prop
  | [] => True
  | e :: es => e.WellFormed ∧ elementsWellFormed es
termination_by structural es => es

/-- All of some branches are well-formed patterns. -/
def branchesWellFormed : List (List Element) → Prop
  | [] => True
  | b :: bs => (Pattern.HasRequired b ∧ elementsWellFormed b) ∧ branchesWellFormed bs
termination_by structural bs => bs

end

/-- A pattern that can be written down. -/
def Pattern.WellFormed (p : Pattern) : Prop := p.HasRequired ∧ elementsWellFormed p

/-- A phrase that can be written down. -/
def Phrase.WellFormed : Phrase → Prop
  | .element e => e.WellFormed
  | .elements es => elementsWellFormed es
  | .sequence p => p.WellFormed
  | .branches bs => bs ≠ [] ∧ branchesWellFormed bs

/-- A token that scanning can give. -/
def Token.Valid : Token → Prop
  | .word letters => IsWord letters
  | .reference name => isName name.toList = true
  | _ => True

/-- A symbol is a valid token. -/
theorem Token.valid_of_symbol? {c : Char} {t : Token} (h : symbol? c = some t) : t.Valid := by
  unfold symbol? at h
  split at h <;> first | (obtain rfl := Option.some.inj h; trivial) | simp at h

/-- Valid tokens derive well-formed phrases only. -/
theorem Phrase.Derives.wellFormed {ph : Phrase} {ts : List Token} (h : ph.Derives ts)
    (hvalid : ∀ t ∈ ts, t.Valid) : ph.WellFormed := by
  induction h with
  | word letters => exact hvalid (.word letters) (by simp)
  | anyWords => trivial
  | anyWord => trivial
  | reference name => exact hvalid (.reference name) (by simp)
  | choice hbs ih => exact ih fun t ht => hvalid t (by simp [ht])
  | optional hp ih => exact ih fun t ht => hvalid t (by simp [ht])
  | nil => trivial
  | cons he hes ihe ihes =>
    exact ⟨ihe fun t ht => hvalid t (by simp [ht]), ihes fun t ht => hvalid t (by simp [ht])⟩
  | sequence hp hreq ih => exact ⟨hreq, ih hvalid⟩
  | lastBranch hp ih => exact ⟨by simp, ih hvalid, trivial⟩
  | branch hp hbs ihp ihbs =>
    refine ⟨by simp, ihp fun t ht => hvalid t (by simp [ht]), ?_⟩
    exact (ihbs fun t ht => hvalid t (by simp [ht])).2

/-- Scanning gives valid tokens only. -/
theorem Token.valid_of_scan {position : Nat} {t : Text} {ls : List Lexeme}
    (h : scan position t = .ok ls) : ∀ l ∈ ls, l.token.Valid := by
  fun_induction scan position t generalizing ls with
  | case1 position =>
    obtain rfl := Except.ok.inj h
    simp
  | case2 position c rest hblank ih => exact ih h
  | case3 position c rest hblank token hsymbol ih =>
    obtain ⟨ks, hks, hls⟩ := bind_eq_ok_iff.mp h
    obtain rfl := Except.ok.inj hls
    exact List.forall_mem_cons.mpr ⟨valid_of_symbol? hsymbol, ih hks⟩
  | case4 => simp at h
  | case5 =>
    rename_i hname ih
    obtain ⟨ks, hks, hls⟩ := bind_eq_ok_iff.mp h
    obtain rfl := Except.ok.inj hls
    exact List.forall_mem_cons.mpr ⟨(reference?_eq_some_iff.mp hname).2, ih hks⟩
  | case6 =>
    rename_i hword letters ih
    obtain ⟨ks, hks, hls⟩ := bind_eq_ok_iff.mp h
    obtain rfl := Except.ok.inj hls
    refine List.forall_mem_cons.mpr ⟨⟨by simp, ?_⟩, ih hks⟩
    intro d hd
    rcases List.mem_cons.mp hd with rfl | hd
    · exact hword
    · exact List.mem_takeWhile_imp hd
  | case7 => simp at h
  | case8 => simp at h

/-- Every pattern that the parser gives is well-formed. -/
theorem Pattern.wellFormed_of_parse {source : String} {p : Pattern}
    (h : Grammar.bundled.parse source = .ok p) : p.WellFormed := by
  obtain ⟨ls, hscan, hp⟩ := (bundled_parse_eq_ok_iff source p).mp h
  refine hp.wellFormed fun t ht => ?_
  obtain ⟨l, hl, rfl⟩ := List.mem_map.mp ht
  exact Token.valid_of_scan hscan l hl

end Rejoinder
