set_option autoImplicit false

/-!
JSON values. An object keeps its members in the order of the text, repeated names included, so
that a reader of members can tell a repeated name from a single one.
-/

namespace TraceArchive

inductive Json where
  | null
  | bool (value : Bool)
  | natural (value : Nat)
  /-- A number with a sign, a fraction or an exponent, as it was written. -/
  | number (text : String)
  | string (text : String)
  | array (items : List Json)
  | object (members : List (String × Json))
  /-- Well-formed text without a value: half of a surrogate pair in a string, or in the name of
  one of an object's members. -/
  | unreadable
  deriving Inhabited

namespace Json

/-- Members that are absent are left out. -/
def ofMembers (members : List (Option (String × Json))) : Json := .object (members.filterMap id)

def member (name : String) (value : Json) : Option (String × Json) := some (name, value)

def member? (name : String) (value : Option Json) : Option (String × Json) :=
  value.map fun v => (name, v)

def isArray : Json → Bool
  | .array _ => true
  | _ => false

end Json

end TraceArchive
