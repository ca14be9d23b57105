import TraceArchive.Codec.Endpoint
import TraceArchive.Report

set_option autoImplicit false

/-!
Reports in JSON. Reading keeps a report as it was written: order, repetitions, case and zeros
stay. The high half of the trace id and the debug flag are written only when they are set.
-/

namespace TraceArchive

namespace Event

def toJson (e : Event) : Json := Json.ofMembers [
  Json.member "timestamp" (Json.ofUInt64 e.timestamp),
  Json.member "value" (.string e.value),
  Json.member? "endpoint" (e.endpoint.map Endpoint.toJson)]

def layout : Json.Layout where
  names := ["timestamp", "value", "endpoint"]
  required := ["timestamp", "value"]
  least := 2

def takeMember (e : Event) (name : String) (j : Json) : Decoded Event :=
  match name with
  | "timestamp" => return { e with timestamp := ← j.asUInt64 }
  | "value" => return { e with value := ← j.asString }
  | "endpoint" => return { e with endpoint := ← Json.nullable Endpoint.ofJson j }
  | _ => return e

def ofJson (j : Json) : Decoded Event :=
  Json.asStructure layout { timestamp := 0, value := "" } takeMember j

end Event

namespace TagValue

def toJson : TagValue → Json
  | .flag b => .bool b
  | .text s => .string s

def ofJson : Json → Decoded TagValue
  | .bool b => .ok (.flag b)
  | .string s => .ok (.text s)
  | _ => .error .shape

end TagValue

namespace Tag

def toJson (t : Tag) : Json := Json.ofMembers [
  Json.member "key" (.string t.key),
  Json.member "value" t.value.toJson,
  Json.member? "endpoint" (t.endpoint.map Endpoint.toJson)]

def layout : Json.Layout where
  names := ["key", "value", "endpoint"]
  required := ["key", "value"]
  least := 2

def takeMember (t : Tag) (name : String) (j : Json) : Decoded Tag :=
  match name with
  | "key" => return { t with key := ← j.asString }
  | "value" => return { t with value := ← TagValue.ofJson j }
  | "endpoint" => return { t with endpoint := ← Json.nullable Endpoint.ofJson j }
  | _ => return t

def ofJson (j : Json) : Decoded Tag :=
  Json.asStructure layout { key := "", value := .text "" } takeMember j

end Tag

namespace Key

/-- The parts of a key are plain numbers. -/
def toJson (k : Key) : Json := Json.ofMembers [
  Json.member "traceIdHigh" (Json.ofUInt64 k.traceId.high),
  Json.member "traceId" (Json.ofUInt64 k.traceId.low),
  Json.member "id" (Json.ofUInt64 k.id)]

def layout : Json.Layout where
  names := ["traceIdHigh", "traceId", "id"]
  required := ["traceIdHigh", "traceId", "id"]
  least := 3

def takeMember (k : Key) (name : String) (j : Json) : Decoded Key :=
  match name with
  | "traceIdHigh" => return { k with traceId := { k.traceId with high := ← j.asUInt64 } }
  | "traceId" => return { k with traceId := { k.traceId with low := ← j.asUInt64 } }
  | "id" => return { k with id := ← j.asUInt64 }
  | _ => return k

def ofJson (j : Json) : Decoded Key := Json.asStructure layout ⟨⟨0, 0⟩, 0⟩ takeMember j

end Key

namespace Report

def toJson (r : Report) : Json := Json.ofMembers [
  Json.member? "traceIdHigh" (if r.traceId.high = 0 then none else some (Json.ofId r.traceId.high)),
  Json.member "traceId" (Json.ofId r.traceId.low),
  Json.member "id" (Json.ofId r.id),
  Json.member? "parentId" (r.parentId.map Json.ofId),
  Json.member? "name" (r.name.map .string),
  Json.member? "timestamp" (r.timestamp.map Json.ofUInt64),
  Json.member? "duration" (r.duration.map Json.ofUInt64),
  Json.member "annotations" (.array (r.events.map Event.toJson)),
  Json.member "binaryAnnotations" (.array (r.tags.map Tag.toJson)),
  Json.member? "debug" (if r.debug then some (.bool true) else none)]

def layout : Json.Layout where
  names := ["traceIdHigh", "traceId", "id", "parentId", "name", "timestamp", "duration",
    "annotations", "binaryAnnotations", "debug"]
  required := ["traceId", "id"]
  least := 3

def takeMember (r : Report) (name : String) (j : Json) : Decoded Report :=
  match name with
  | "traceIdHigh" => return { r with traceId := { r.traceId with high := ← j.asId } }
  | "traceId" => return { r with traceId := { r.traceId with low := ← j.asId } }
  | "id" => return { r with id := ← j.asId }
  | "parentId" => return { r with parentId := ← Json.nullable Json.asId j }
  | "name" => return { r with name := ← Json.nullable Json.asString j }
  | "timestamp" => return { r with timestamp := ← Json.nullable Json.asUInt64 j }
  | "duration" => return { r with duration := ← Json.nullable Json.asUInt64 j }
  | "annotations" => return { r with events := ← Json.asList Event.ofJson j }
  | "binaryAnnotations" => return { r with tags := ← Json.asList Tag.ofJson j }
  | "debug" => return { r with debug := ← j.asBool }
  | _ => return r

def ofJson (j : Json) : Decoded Report := Json.asStructure layout blank takeMember j

end Report

end TraceArchive
