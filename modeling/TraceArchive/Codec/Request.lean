import TraceArchive.Codec.Basic
import TraceArchive.Request

set_option autoImplicit false

/-!
Requests in JSON. Absent values are written as null; reading does not ask whether a request makes
sense.
-/

namespace TraceArchive.Request

def members (q : Request) : List (String × Json) := [
  ("serviceName", Json.ofOption .string q.service),
  ("spanName", Json.ofOption .string q.spanName),
  ("annotations", .array (q.terms.toList.map .string)),
  ("tags", Json.ofTexts q.tags),
  ("minDuration", Json.ofOption Json.ofUInt64 q.minDuration),
  ("maxDuration", Json.ofOption Json.ofUInt64 q.maxDuration),
  ("endTs", Json.ofUInt64 q.endTs),
  ("lookback", Json.ofUInt64 q.lookback),
  ("limit", Json.ofUInt64 q.limit)]

def toJson (q : Request) : Json := .object q.members

def layout : Json.Layout where
  names := ["serviceName", "spanName", "annotations", "tags", "minDuration", "maxDuration",
    "endTs", "lookback", "limit"]
  required := ["annotations", "tags", "endTs", "lookback", "limit"]
  least := 9

def takeMember (q : Request) (name : String) (j : Json) : Decoded Request :=
  match name with
  | "serviceName" => return { q with service := ← Json.nullable Json.asString j }
  | "spanName" => return { q with spanName := ← Json.nullable Json.asString j }
  | "annotations" => return { q with terms := .ofList (← Json.asList Json.asString j) }
  | "tags" => return { q with tags := ← j.asTexts }
  | "minDuration" => return { q with minDuration := ← Json.nullable Json.asUInt64 j }
  | "maxDuration" => return { q with maxDuration := ← Json.nullable Json.asUInt64 j }
  | "endTs" => return { q with endTs := ← j.asUInt64 }
  | "lookback" => return { q with lookback := ← j.asUInt64 }
  | "limit" => return { q with limit := ← j.asUInt64 }
  | _ => return q

def ofJson (j : Json) : Decoded Request :=
  Json.asStructure layout { endTs := 0, lookback := 0, limit := 0 } takeMember j

end TraceArchive.Request
