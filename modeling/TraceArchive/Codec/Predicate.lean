import TraceArchive.Codec.Basic
import TraceArchive.Predicate

set_option autoImplicit false

/-!
Predicates in JSON: the name of a form, with what it is made of.
-/

namespace TraceArchive

namespace Column

def title : Column → String
  | .traceIdHigh => "TraceIdHigh"
  | .traceId => "TraceId"
  | .id => "Id"
  | .parentId => "ParentId"
  | .name => "Name"
  | .timestamp => "Timestamp"
  | .duration => "Duration"

def every : List Column := [.traceIdHigh, .traceId, .id, .parentId, .name, .timestamp, .duration]

def toJson (c : Column) : Json := .string c.title

def ofJson (j : Json) : Decoded Column := do
  let name ← j.asName
  Json.required (every.find? fun c => c.title == name)

end Column

namespace Cell

def toJson : Cell → Json
  | .number n => .object [("U64", Json.ofUInt64 n)]
  | .text s => .object [("Str", .string s)]

def ofJson : Json → Decoded Cell
  | .object [("U64", j)] => j.asUInt64.map .number
  | .object [("Str", j)] => j.asString.map .text
  | _ => .error .shape

end Cell

def Row.toJson (row : Row) : Json := .array (row.map (Json.ofOption Cell.toJson))

namespace Predicate

mutual

def toJson : Predicate → Json
  | .always => .string "Always"
  | .equal column cell => .object [("Equal", .array [column.toJson, cell.toJson])]
  | .between column min max => .object [("Between", .object [
      ("attribute", column.toJson),
      ("min", Json.ofOption Json.ofUInt64 min),
      ("max", Json.ofOption Json.ofUInt64 max)])]
  | .anyEvent value => .object [("AnyAnnotationValue", .string value)]
  | .anyTagKey key => .object [("AnyTagKey", .string key)]
  | .anyTag key text => .object [("AnyTag", .object [
      ("key", .string key), ("value", .string text)])]
  | .all ps => .object [("And", .array (listToJson ps))]
  | .any ps => .object [("Or", .array (listToJson ps))]

def listToJson : List Predicate → List Json
  | [] => []
  | p :: ps => p.toJson :: listToJson ps

end

/-- A column with the ends of a range. -/
structure Bounds where
  column : Column
  min : Option UInt64 := none
  max : Option UInt64 := none

namespace Bounds

def layout : Json.Layout where
  names := ["attribute", "min", "max"]
  required := ["attribute"]
  least := 3

def takeMember (b : Bounds) (name : String) (j : Json) : Decoded Bounds :=
  match name with
  | "attribute" => return { b with column := ← Column.ofJson j }
  | "min" => return { b with min := ← Json.nullable Json.asUInt64 j }
  | "max" => return { b with max := ← Json.nullable Json.asUInt64 j }
  | _ => return b

def ofJson (j : Json) : Decoded Bounds := Json.asStructure layout { column := .id } takeMember j

end Bounds

def pairLayout : Json.Layout where
  names := ["key", "value"]
  required := ["key", "value"]
  least := 2

def takePairMember (pair : String × String) (name : String) (j : Json) :
    Decoded (String × String) :=
  match name with
  | "key" => return (← j.asString, pair.2)
  | "value" => return (pair.1, ← j.asString)
  | _ => return pair

def pairOfJson (j : Json) : Decoded (String × String) :=
  Json.asStructure pairLayout ("", "") takePairMember j

mutual

/-- Reads a predicate. What a form is made of stands in an object under its names; if `packed`,
it may stand in an array instead. -/
def read (packed : Bool) : Json → Decoded Predicate
  | .string "Always" => .ok .always
  | .object [("Always", .null)] => .ok .always
  | .object [("Equal", .array [column, cell])] => do
    return .equal (← Column.ofJson column) (← Cell.ofJson cell)
  | .object [("Between", j)] => do
    if j.isArray && !packed then .error .shape
    let b ← Bounds.ofJson j
    return .between b.column b.min b.max
  | .object [("AnyAnnotationValue", j)] => j.asString.map .anyEvent
  | .object [("AnyTagKey", j)] => j.asString.map .anyTagKey
  | .object [("AnyTag", j)] => do
    if j.isArray && !packed then .error .shape
    let (key, text) ← pairOfJson j
    return .anyTag key text
  | .object [("And", .array js)] => (readList packed js).map .all
  | .object [("Or", .array js)] => (readList packed js).map .any
  | _ => .error .shape

def readList (packed : Bool) : List Json → Decoded (List Predicate)
  | [] => .ok []
  | j :: js => do return (← read packed j) :: (← readList packed js)

end

def ofJson (j : Json) : Decoded Predicate := read false j

/-- How many arrays and objects of a predicate stand inside one another. Members that are not
read do not count. -/
def nesting : Json → Nat
  | .object [("And", .array js)] => 2 + listNesting js
  | .object [("Or", .array js)] => 2 + listNesting js
  | .object [("Equal", _)] => 3
  | .object [("Between", .array (.object _ :: _))] => 3
  | .object [("Between", .object members)] =>
    match members.lookup "attribute" with
    | some (.object _) => 3
    | _ => 2
  | .object [("Between", _)] => 2
  | .object [("AnyTag", _)] => 2
  | .object _ => 1
  | _ => 0
where
  listNesting : List Json → Nat
    | [] => 0
    | j :: js => max (nesting j) (listNesting js)

/-- Texts that are nested deeper than this are not read. -/
def nestingLimit : Nat := 127

/-- Reads what a text holds. -/
def ofDocument (j : Json) : Decoded Predicate :=
  if nesting j ≤ nestingLimit then read true j else .error .shape

end Predicate

end TraceArchive
