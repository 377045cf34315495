import Rejoinder.Json.Basic
import Rejoinder.Table
import Rejoinder.Text.Digit
import Rejoinder.Text.Number

/-!
# Handlers

A handler makes the reply of a rule. It is a program: a list of actions, each of which adds a piece
of text to the reply, changes a variable, or fails. How a program goes on may depend in any way on
what it has made and seen so far. Two handlers are the same only if they have the same identity,
whatever their programs are.
-/

set_option autoImplicit false

namespace Rejoinder

/-- The texts that the numbered groups of a pattern matched, in ascending order of the numbers. -/
abbrev Groups := List (Nat × String)

namespace Groups

/-- The text of a group, if it took part in the match. -/
def get? (groups : Groups) (number : Nat) : Option String := List.lookup number groups

/-- The groups with one more, which replaces a group of the same number. -/
def insert (number : Nat) (text : String) : Groups → Groups
  | [] => [(number, text)]
  | (n, t) :: rest =>
    if number < n then (number, text) :: (n, t) :: rest
    else if number = n then (number, text) :: rest
    else (n, t) :: insert number text rest

end Groups

/-- Why a handler has no reply. -/
inductive HandlerError
  | failed (message : String)
  /-- A group is asked for that took no part in the match. -/
  | missingGroup (number : Nat)
  /-- The digits between the braces of a template are no group number. -/
  | badGroup (digits : String)
deriving DecidableEq, Repr

/-- The words for an error of a handler. -/
def HandlerError.message : HandlerError → String
  | .failed message => message
  | .missingGroup number => "no capture group " ++ toString number ++ " in the current match"
  | .badGroup digits => "bad group \x7b" ++ digits ++ "\x7d"

/-- Variables of the bot or of a user. -/
abbrev Vars := Table String Json

/-- What a handler is told about the reply it is to make. -/
structure Turn where
  user : String
  depth : Nat
  groups : Groups

/-- What a handler can see while it runs. -/
structure Sight where
  turn : Turn
  /-- The variables of the user; none if the engine has not met the user. -/
  uservars : Vars
  botvars : Vars

/-- A step of a handler. -/
inductive Action
  /-- Adds a text. -/
  | literal (text : String)
  /-- Adds the text of a group, or fails. -/
  | group (number : Nat)
  /-- Adds the text of a group, or another text if the group took no part. -/
  | groupOr (number : Nat) (fallback : String)
  /-- Adds all groups with their numbers. -/
  | groups
  /-- Adds a template with its group numbers filled in. -/
  | template (source : String)
  /-- Adds the reply to the text that a program makes. -/
  | reply (message : List Action)
  /-- Adds the name of the user. -/
  | user
  /-- Adds how many replies this one is nested in. -/
  | depth
  /-- Adds the topic of the user. -/
  | topic
  /-- Moves the user to the topic that a program names. -/
  | setTopic (name : List Action)
  /-- Adds the value of a variable of the user, or another text if there is none. -/
  | getUser (key fallback : String)
  /-- Adds the value of a variable of the bot, or another text if there is none. -/
  | getBot (key fallback : String)
  /-- Sets a variable of the user to the text that a program makes. -/
  | setUser (key : String) (text : List Action)
  /-- Sets a variable of the bot to the text that a program makes. -/
  | setBot (key : String) (text : List Action)
  | setUserValue (key : String) (value : Json)
  | setBotValue (key : String) (value : Json)
  | deleteUser (key : String)
  | deleteBot (key : String)
  /-- Adds one to a variable of the bot; what is no natural number counts as zero. -/
  | increment (key : String)
  | fail (message : String)
  /-- Adds what a program makes that is chosen when another program has made its text. -/
  | andThen (first : List Action) (next : Sight → String → List Action)
deriving Inhabited

/-- What makes two handlers the same: the name of a callable that several rules share, or the place
of the declaration, by script and rule, that the handler belongs to. -/
inductive Identity
  | shared (name : String)
  | declared (script rule : Nat)
deriving DecidableEq, Repr

/-- A program with an identity. -/
structure Handler where
  identity : Identity
  program : List Action

namespace Template

/-- A piece of a template: a character of its own, or the digits between two braces. -/
inductive Piece
  | literal (c : Char)
  | group (digits : Text)
deriving DecidableEq, Repr

/-- The pieces of a template. A group is an opening brace, one or more decimal digits of any script,
and a closing brace; braces that belong to no group stand for themselves. -/
def pieces (template : Text) : List Piece :=
  match template with
  | [] => []
  | '{' :: rest =>
    match _h : rest.dropWhile Text.isDecimalDigit with
    | '}' :: behind =>
      if (rest.takeWhile Text.isDecimalDigit).isEmpty then .literal '{' :: pieces rest
      else .group (rest.takeWhile Text.isDecimalDigit) :: pieces behind
    | _ => .literal '{' :: pieces rest
  | c :: rest => .literal c :: pieces rest
termination_by template.length
decreasing_by
  · simp
  · have hle : ('}' :: behind).length ≤ rest.length :=
      _h ▸ (List.dropWhile_sublist Text.isDecimalDigit).length_le
    simp only [List.length_cons] at hle ⊢
    omega
  · simp
  · simp

/-- The text of a piece. -/
def Piece.fill (groups : Groups) : Piece → Except HandlerError Text
  | .literal c => .ok [c]
  | .group digits =>
    match Text.number? digits with
    | none => .error (.badGroup (String.ofList digits))
    | some number =>
      match groups.get? number with
      | none => .error (.missingGroup number)
      | some text => .ok text.toList

/-- A template with the texts of the groups in the places of their numbers, or what is wrong with
the first place that cannot be filled. -/
def expand (groups : Groups) (template : Text) : Except HandlerError Text := do
  return (← (pieces template).mapM (Piece.fill groups)).flatten

end Template

end Rejoinder
