import Rejoinder.Json.Token

/-!
# Reading JSON

The tokens of a text are read one after the other, with the open arrays and objects on a stack;
at most `nestingLimit` of them may be open at once. `Json.read?` is the value of a whole text, with
its fields as they stand, repetitions included.
-/

set_option autoImplicit false

namespace Rejoinder.Json

/-- How many arrays and objects may be open at once. -/
def nestingLimit : Nat := 127

/-- An open array or object with what it holds so far, last first. -/
inductive Frame
  | items (done : List Json)
  | fields (done : List (String × Json)) (key : String)

/-- What a reader waits for. -/
inductive Expected
  /-- A value. -/
  | value
  /-- The first item of an array, or its end. -/
  | firstItem
  /-- The first key of an object, or its end. -/
  | firstKey
  /-- A key behind a comma. -/
  | key
  /-- The colon behind a key. -/
  | colon
  /-- A comma or the end of the innermost array or object. -/
  | separator
  /-- Nothing more: the value is complete. -/
  | nothing (value : Json)

/-- How far a reader has come. -/
structure Progress where
  expected : Expected
  frames : List Frame

/-- Where a reader begins. -/
def Progress.start : Progress := ⟨.value, []⟩

/-- A complete value goes into the innermost open array or object. -/
def deliver (value : Json) : List Frame → Progress
  | [] => ⟨.nothing value, []⟩
  | .items done :: outer => ⟨.separator, .items (value :: done) :: outer⟩
  | .fields done key :: outer => ⟨.separator, .fields ((key, value) :: done) "" :: outer⟩

/-- A new array or object is opened, unless too many are open. -/
def enter (frame : Frame) (expected : Expected) (frames : List Frame) : Option Progress :=
  if frames.length < nestingLimit then some ⟨expected, frame :: frames⟩ else none

/-- A value begins with this token. -/
def begin? (frames : List Frame) : Token → Option Progress
  | .scalar value => some (deliver value frames)
  | .openArray => enter (.items []) .firstItem frames
  | .openObject => enter (.fields [] "") .firstKey frames
  | _ => none

/-- The innermost array or object is closed by this token. -/
def close? : List Frame → Token → Option Progress
  | .items done :: outer, .closeArray => some (deliver (.array done.reverse) outer)
  | .fields done _ :: outer, .closeObject => some (deliver (.object done.reverse) outer)
  | _, _ => none

/-- One token is read. -/
def Progress.step (p : Progress) (token : Token) : Option Progress :=
  match p.expected, token, p.frames with
  | .value, token, frames => begin? frames token
  | .firstItem, .closeArray, frames => close? frames .closeArray
  | .firstItem, token, frames => begin? frames token
  | .firstKey, .closeObject, frames => close? frames .closeObject
  | .firstKey, .scalar (.string key), .fields done _ :: outer =>
    some ⟨.colon, .fields done key :: outer⟩
  | .key, .scalar (.string key), .fields done _ :: outer =>
    some ⟨.colon, .fields done key :: outer⟩
  | .colon, .colon, frames => some ⟨.value, frames⟩
  | .separator, .comma, .items done :: outer => some ⟨.value, .items done :: outer⟩
  | .separator, .comma, .fields done key :: outer => some ⟨.key, .fields done key :: outer⟩
  | .separator, token, frames => close? frames token
  | _, _, _ => none

/-- The value that a whole text stands for. -/
def read? (text : Text) : Option Json := do
  let tokens ← Token.scan text
  let last ← tokens.foldlM Progress.step Progress.start
  match last.expected with
  | .nothing value => some value
  | _ => none

end Rejoinder.Json
