import TraceArchive.Id
import TraceArchive.Json
import TraceArchive.Sorted.Map

set_option autoImplicit false

/-!
Reading values out of JSON. A structure is an object, whose members come in any order and may
have other members beside them, or an array of the members in their fixed order. Of several
faults the one that stands first is reported, and a member that is missing after all of them.
-/

namespace TraceArchive

inductive DecodeError where
  /-- The value has not the form that is read. -/
  | shape
  | id (error : IdError)
  deriving DecidableEq

abbrev Decoded (α : Type) := Except DecodeError α

namespace Json

def asString : Json → Decoded String
  | .string s => .ok s
  | _ => .error .shape

def asBool : Json → Decoded Bool
  | .bool b => .ok b
  | _ => .error .shape

def asUInt64 : Json → Decoded UInt64
  | .natural n => if n < UInt64.size then .ok (UInt64.ofNat n) else .error .shape
  | _ => .error .shape

def asUInt16 : Json → Decoded UInt16
  | .natural n => if n < UInt16.size then .ok (UInt16.ofNat n) else .error .shape
  | _ => .error .shape

def asId (j : Json) : Decoded UInt64 := do
  (Id.ofHex (← j.asString)).mapError .id

def ofUInt64 (n : UInt64) : Json := .natural n.toNat

def ofUInt16 (n : UInt16) : Json := .natural n.toNat

/-- An absent value is written as null. -/
def ofOption {α : Type} (write : α → Json) (a : Option α) : Json := (a.map write).getD .null

def ofId (id : UInt64) : Json := .string (Id.toHex id)

@[simp] theorem asUInt64_ofUInt64 (n : UInt64) : (ofUInt64 n).asUInt64 = .ok n := by
  rw [ofUInt64, asUInt64, if_pos n.toNat_lt, UInt64.ofNat_toNat]

@[simp] theorem asUInt16_ofUInt16 (n : UInt16) : (ofUInt16 n).asUInt16 = .ok n := by
  rw [ofUInt16, asUInt16, if_pos n.toNat_lt, UInt16.ofNat_toNat]

def asList {α : Type} (read : Json → Decoded α) : Json → Decoded (List α)
  | .array items => items.mapM read
  | _ => .error .shape

/-- Null stands for an absent value. -/
def nullable {α : Type} (read : Json → Decoded α) : Json → Decoded (Option α)
  | .null => .ok none
  | j => (read j).map some

/-- Texts by name; of two members of one name the later one wins. -/
def asTexts : Json → Decoded (SortedMap String String)
  | .object members =>
    (members.mapM fun m => (asString m.2).map fun text => (m.1, text)).map SortedMap.ofList
  | _ => .error .shape

def ofTexts (texts : SortedMap String String) : Json :=
  .object (texts.entries.map fun e => (e.1, .string e.2))

/-- How a structure is given. -/
structure Layout where
  /-- The names of the members, in the order in which they stand in an array. -/
  names : List String
  /-- The members that an object must have. -/
  required : List String
  /-- How many members an array must have. -/
  least : Nat

namespace Layout

/-- The members of a structure in the order in which they stand; none is given twice. -/
def members (layout : Layout) : Json → Decoded (List (String × Json))
  | .object members =>
    if ((members.map Prod.fst).filter (· ∈ layout.names)).Nodup then .ok members
    else .error .shape
  | .array items => .ok (layout.names.zip items)
  | _ => .error .shape

/-- No member is missing, and an array has no others. -/
def isComplete (layout : Layout) : Json → Bool
  | .object members => layout.required.all fun name => members.any fun m => m.1 == name
  | .array items =>
    decide (layout.least ≤ items.length) && decide (items.length ≤ layout.names.length)
  | _ => false

end Layout

/-- Reads a structure by taking in one member after the other. -/
def asStructure {α : Type} (layout : Layout) (start : α) (take : α → String → Json → Decoded α)
    (j : Json) : Decoded α := do
  let a ← (← layout.members j).foldlM (fun a m => take a m.1 m.2) start
  if layout.isComplete j then .ok a else .error .shape

def required {α : Type} : Option α → Decoded α
  | none => .error .shape
  | some a => .ok a

/-- The name of a value that is nothing but a name; it may also stand as the name of null. -/
def asName : Json → Decoded String
  | .string name => .ok name
  | .object [(name, .null)] => .ok name
  | _ => .error .shape

end Json

end TraceArchive
