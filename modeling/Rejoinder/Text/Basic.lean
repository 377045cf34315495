/-!
# Text

Messages, patterns and words are read character by character, so the library keeps them as lists
of characters. `String` appears where text comes in or goes out and where it is only a name.

The operations here are about pieces: `fields` cuts a text at separators and keeps every piece,
`unwords` puts pieces together with single spaces, and `utf8Size` measures a text in the unit in
which positions are reported.
-/

set_option autoImplicit false

namespace Rejoinder

/-- A text as the list of its characters. -/
abbrev Text := List Char

namespace Text

/-- The pieces of a text between the characters that satisfy `separates`, empty ones included; a
text without a separator is its own only piece. -/
def fields (separates : Char → Bool) : Text → List Text
  | [] => [[]]
  | c :: rest =>
    if separates c then [] :: fields separates rest
    else match fields separates rest with
      | [] => [[c]]
      | piece :: pieces => (c :: piece) :: pieces

/-- Pieces put together with one separator between neighbours. -/
def joinWith (separator : Char) : List Text → Text
  | [] => []
  | w :: ws => w ++ ws.flatMap fun v => separator :: v

/-- Pieces put together with one space between neighbours. -/
def unwords (ws : List Text) : Text := joinWith ' ' ws

/-- The length of a text in bytes of UTF-8. -/
def utf8Size : Text → Nat
  | [] => 0
  | c :: rest => c.utf8Size + utf8Size rest

/-- The text without the beginning that repeats `lead`, however often it stands there. -/
def dropRepeated (lead : Text) (t : Text) : Text :=
  if _h : lead ≠ [] ∧ lead.isPrefixOf t then dropRepeated lead (t.drop lead.length) else t
termination_by t.length
decreasing_by
  have hpre : lead <+: t := List.isPrefixOf_iff_prefix.mp _h.2
  have hle : lead.length ≤ t.length := hpre.length_le
  have hpos : 0 < lead.length := List.length_pos_iff.mpr _h.1
  simp only [List.length_drop]
  omega

end Text

end Rejoinder
