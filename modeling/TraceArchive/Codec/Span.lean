import TraceArchive.Codec.Report
import TraceArchive.Span

set_option autoImplicit false

/-!
Spans in JSON. What is absent, empty or false is not written.
-/

namespace TraceArchive

namespace Span

def Kind.toJson : Kind → Json
  | .client => .string "CLIENT"
  | .server => .string "SERVER"

def Kind.ofJson (j : Json) : Decoded Kind := do
  let name ← j.asName
  if name = "CLIENT" then .ok .client
  else if name = "SERVER" then .ok .server
  else .error .shape

def toJson (s : Span) : Json := Json.ofMembers [
  Json.member? "traceIdHigh" (if s.traceId.high = 0 then none else some (Json.ofId s.traceId.high)),
  Json.member "traceId" (Json.ofId s.traceId.low),
  Json.member "id" (Json.ofId s.id),
  Json.member? "parentId" (s.parentId.map Json.ofId),
  Json.member? "kind" (s.kind.map Kind.toJson),
  Json.member? "name" (s.name.map .string),
  Json.member? "timestamp" (s.timestamp.map Json.ofUInt64),
  Json.member? "duration" (s.duration.map Json.ofUInt64),
  Json.member? "localEndpoint" (s.localEndpoint.map Endpoint.toJson),
  Json.member? "remoteEndpoint" (s.remoteEndpoint.map Endpoint.toJson),
  Json.member? "annotations"
    (if s.events.isEmpty then none else some (.array (s.events.map Event.toJson))),
  Json.member? "tags" (if s.tags.isEmpty then none else some (Json.ofTexts s.tags)),
  Json.member? "debug" (if s.debug then some (.bool true) else none),
  Json.member? "shared" (if s.shared then some (.bool true) else none)]

def layout : Json.Layout where
  names := ["traceIdHigh", "traceId", "id", "parentId", "kind", "name", "timestamp", "duration",
    "localEndpoint", "remoteEndpoint", "annotations", "tags", "debug", "shared"]
  required := ["traceId", "id"]
  least := 3

def takeMember (s : Span) (name : String) (j : Json) : Decoded Span :=
  match name with
  | "traceIdHigh" => return { s with traceId := { s.traceId with high := ← j.asId } }
  | "traceId" => return { s with traceId := { s.traceId with low := ← j.asId } }
  | "id" => return { s with id := ← j.asId }
  | "parentId" => return { s with parentId := ← Json.nullable Json.asId j }
  | "kind" => return { s with kind := ← Json.nullable Kind.ofJson j }
  | "name" => return { s with name := ← Json.nullable Json.asString j }
  | "timestamp" => return { s with timestamp := ← Json.nullable Json.asUInt64 j }
  | "duration" => return { s with duration := ← Json.nullable Json.asUInt64 j }
  | "localEndpoint" => return { s with localEndpoint := ← Json.nullable Endpoint.ofJson j }
  | "remoteEndpoint" => return { s with remoteEndpoint := ← Json.nullable Endpoint.ofJson j }
  | "annotations" => return { s with events := ← Json.asList Event.ofJson j }
  | "tags" => return { s with tags := ← j.asTexts }
  | "debug" => return { s with debug := ← j.asBool }
  | "shared" => return { s with shared := ← j.asBool }
  | _ => return s

def ofJson (j : Json) : Decoded Span := Json.asStructure layout blank takeMember j

end Span

end TraceArchive
