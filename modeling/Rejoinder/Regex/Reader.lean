import Rejoinder.Regex.Tree
import Rejoinder.Regex.Error
import Rejoinder.Text.Basic
import Rejoinder.Text.Alphabetic

/-!
# Reading regular expressions

The text of a regular expression is read one character after the other. The syntax read here has
literal characters, `.`, the class `[^ ]`, the anchors `^` and `$`, groups with and without names,
bars, and the repetitions `?` and `+` with their lazy forms; `+` follows a single character or a
class only. What is being read is kept with the last part first, so each character is one step.

The rest of the usual syntax is left out: other classes, `*`, counted repetitions, `+` behind a
group, escapes, flags and comments. An expression with any of these is refused as `unsupported`,
whatever it would mean elsewhere. Rendered patterns have none of them.
-/

set_option autoImplicit false

namespace Rejoinder.Regex

/-- A group of which the end has not been read: the branches that have ended and the pieces of the
branch that has not, the last ones first. -/
structure Frame where
  kind : GroupKind
  branches : List (List Piece)
  pieces : List Piece

/-- What the characters read last have begun. -/
inductive Mode
  /-- Nothing. -/
  | plain
  /-- A repetition, which a `?` makes lazy. -/
  | repeated
  /-- A group, with `(`. -/
  | group
  /-- A group that is no plain one, with `(?`. -/
  | groupKind
  /-- A group that has a name, with `(?P`. -/
  | groupNamed
  /-- The name of a group, of which these characters have been read, the last one first. -/
  | name (letters : Text)
  /-- A class, with `[`. -/
  | cls
  /-- The class of all characters but some, with `[^`. -/
  | clsExcept
  /-- The class of all characters but the space, with `[^` and a space. -/
  | clsNotSpace
deriving DecidableEq, Repr

/-- How far a reader has come: the innermost group, the groups around it, innermost first, and the
names that are taken. -/
structure ReadState where
  mode : Mode
  inner : Frame
  outer : List Frame
  names : List String

/-- A group of which nothing has been read. -/
def Frame.empty (kind : GroupKind) : Frame := ⟨kind, [], []⟩

/-- The group with one more piece. -/
def Frame.push (p : Piece) (f : Frame) : Frame := ⟨f.kind, f.branches, p :: f.pieces⟩

/-- The group with one more branch, which begins now. -/
def Frame.nextBranch (f : Frame) : Frame := ⟨f.kind, f.pieces.reverse :: f.branches, []⟩

/-- The branches of the group, now that it ends. -/
def Frame.finish (f : Frame) : Tree := f.nextBranch.branches.reverse

/-- Where a reader begins. -/
def ReadState.start : ReadState := ⟨.plain, .empty .plain, [], []⟩

/-- One more piece in the innermost group. -/
def ReadState.push (p : Piece) (s : ReadState) : ReadState :=
  ⟨.plain, s.inner.push p, s.outer, s.names⟩

/-- The innermost group has a new group inside. -/
def ReadState.enter (kind : GroupKind) (s : ReadState) : ReadState :=
  ⟨.plain, .empty kind, s.inner :: s.outer, kind.name?.toList ++ s.names⟩

/-- The last piece of the innermost group is replaced by a repetition of it. -/
def ReadState.repeatLast (change : Piece → Except Error Piece) (s : ReadState) (next : Mode) :
    Except Error ReadState :=
  match s.inner.pieces with
  | [] => .error .nothingToRepeat
  | p :: before => do
    let repeated ← change p
    return ⟨next, ⟨s.inner.kind, s.inner.branches, repeated :: before⟩, s.outer, s.names⟩

/-- The piece with `?` behind it. -/
def Piece.optional (p : Piece) : Except Error Piece := .ok (.option p false)

/-- The piece with `+` behind it. -/
def Piece.oneOrMore : Piece → Except Error Piece
  | .one cls => .ok (.many cls false)
  | _ => .error (.unsupported '+')

/-- The repetition with `?` behind it. -/
def Piece.lazily : Piece → Except Error Piece
  | .option p _ => .ok (.option p true)
  | .many cls _ => .ok (.many cls true)
  | p => .ok p

/-- Whether a text can be the name of a group: a letter or an underscore, and then letters, numbers,
underscores, points and square brackets. -/
def isGroupName : Text → Bool
  | [] => false
  | first :: rest =>
    (Text.isAlphabetic first || first == '_') &&
      rest.all fun c => Text.isAlphanumeric c || c == '_' || c == '.' || c == '[' || c == ']'

/-- One character is read that continues nothing. -/
def ReadState.stepPlain (s : ReadState) (c : Char) : Except Error ReadState :=
  if c = '(' then .ok ⟨.group, s.inner, s.outer, s.names⟩
  else if c = ')' then
    match s.outer with
    | [] => .error .unopenedGroup
    | f :: outer => .ok ⟨.plain, f.push (.group s.inner.kind s.inner.finish), outer, s.names⟩
  else if c = '|' then .ok ⟨.plain, s.inner.nextBranch, s.outer, s.names⟩
  else if c = '?' then s.repeatLast Piece.optional .repeated
  else if c = '+' then s.repeatLast Piece.oneOrMore .repeated
  else if c = '[' then .ok ⟨.cls, s.inner, s.outer, s.names⟩
  else if c = '.' then .ok (s.push (.one .notLineFeed))
  else if c = '^' then .ok (s.push .start)
  else if c = '$' then .ok (s.push .stop)
  else if c = '*' ∨ c = '\x7b' ∨ c = '\\' then .error (.unsupported c)
  else .ok (s.push (.one (.exactly c)))

/-- One character is read. -/
def ReadState.step (s : ReadState) (c : Char) : Except Error ReadState :=
  match s.mode with
  | .plain => s.stepPlain c
  | .repeated =>
    if c = '?' then s.repeatLast Piece.lazily .plain else s.stepPlain c
  | .group =>
    if c = '?' then .ok ⟨.groupKind, s.inner, s.outer, s.names⟩
    else (s.enter (.captured none)).stepPlain c
  | .groupKind =>
    if c = ':' then .ok (s.enter .plain)
    else if c = 'P' then .ok ⟨.groupNamed, s.inner, s.outer, s.names⟩
    else .error (.unsupported c)
  | .groupNamed =>
    if c = '<' then .ok ⟨.name [], s.inner, s.outer, s.names⟩ else .error (.unsupported c)
  | .name letters =>
    if c = '>' then
      let name := String.ofList letters.reverse
      if !isGroupName letters.reverse then .error .badGroupName
      else if name ∈ s.names then .error .repeatedGroupName
      else .ok (s.enter (.captured (some name)))
    else .ok ⟨.name (c :: letters), s.inner, s.outer, s.names⟩
  | .cls =>
    if c = '^' then .ok ⟨.clsExcept, s.inner, s.outer, s.names⟩ else .error (.unsupported c)
  | .clsExcept =>
    if c = ' ' then .ok ⟨.clsNotSpace, s.inner, s.outer, s.names⟩ else .error (.unsupported c)
  | .clsNotSpace => if c = ']' then .ok (s.push (.one .notSpace)) else .error (.unsupported c)

/-- The expression that has been read, now that the text ends. -/
def ReadState.finish (s : ReadState) : Except Error Tree :=
  match s.mode with
  | .plain | .repeated => if s.outer.isEmpty then .ok s.inner.finish else .error .unclosedGroup
  | .name _ | .groupNamed => .error .badGroupName
  | _ => .error .unclosedGroup

/-- The expression that a text is. -/
def Tree.ofText? (text : Text) : Except Error Tree := do
  (← text.foldlM ReadState.step .start).finish

end Rejoinder.Regex
