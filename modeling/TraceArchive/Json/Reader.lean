import TraceArchive.Json.Token

set_option autoImplicit false

/-!
Reading JSON texts. The tokens of a text are taken in one after the other, by a machine whose
stack holds the arrays and objects that are still open, so that nesting costs no recursion.
-/

namespace TraceArchive.Json

/-- The members of an open object, last one first; `readable` is false once a name was not. -/
structure OpenObject where
  members : List (String × Json) := []
  readable : Bool := true

/-- What is still open around the current place. -/
inductive Frame where
  | items (before : List Json)
  | member (before : OpenObject) (name : String)

/-- What may come next. -/
inductive Place where
  | wantValue (stack : List Frame)
  | wantItem (stack : List Frame)
  | afterItem (items : List Json) (stack : List Frame)
  | wantMember (stack : List Frame)
  | wantName (before : OpenObject) (stack : List Frame)
  | wantColon (before : OpenObject) (name : String) (stack : List Frame)
  | afterMember (members : OpenObject) (stack : List Frame)
  | done (value : Json)

namespace Place

/-- A value is complete; it belongs to what is open around it. -/
def close (value : Json) : List Frame → Place
  | [] => .done value
  | .items before :: stack => .afterItem (value :: before) stack
  | .member before name :: stack =>
    .afterMember { before with members := (name, value) :: before.members } stack

def ofOpen (o : OpenObject) : Json := if o.readable then .object o.members.reverse else .unreadable

def startValue (stack : List Frame) : Token → Option Place
  | .scalar value => some (close value stack)
  | .openBracket => some (.wantItem stack)
  | .openBrace => some (.wantMember stack)
  | _ => none

def startName (before : OpenObject) (stack : List Frame) : Token → Option Place
  | .scalar (.string name) => some (.wantColon before name stack)
  | .scalar .unreadable => some (.wantColon { before with readable := false } "" stack)
  | _ => none

def step : Place → Token → Option Place
  | .wantValue stack, token => startValue stack token
  | .wantItem stack, .closeBracket => some (close (.array []) stack)
  | .wantItem stack, token => startValue (.items [] :: stack) token
  | .afterItem items stack, .comma => some (.wantValue (.items items :: stack))
  | .afterItem items stack, .closeBracket => some (close (.array items.reverse) stack)
  | .wantMember stack, .closeBrace => some (close (.object []) stack)
  | .wantMember stack, token => startName {} stack token
  | .wantName before stack, token => startName before stack token
  | .wantColon before name stack, .colon => some (.wantValue (.member before name :: stack))
  | .afterMember members stack, .comma => some (.wantName members stack)
  | .afterMember members stack, .closeBrace => some (close (ofOpen members) stack)
  | _, _ => none

end Place

/-- The value of a text that holds exactly one value. -/
def ofString? (text : String) : Option Json := do
  match (← Token.list? text.toList).foldlM Place.step (.wantValue []) with
  | some (.done value) => some value
  | _ => none

end TraceArchive.Json
