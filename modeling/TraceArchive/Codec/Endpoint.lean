import TraceArchive.Codec.Basic
import TraceArchive.Endpoint

set_option autoImplicit false

/-!
Endpoints in JSON. The service is always written, all else only where it is known.
-/

namespace TraceArchive

def Address.V4.ofJson (j : Json) : Decoded Address.V4 := do
  Json.required (Address.V4.ofString? (← j.asString))

def Address.V6.ofJson (j : Json) : Decoded Address.V6 := do
  Json.required (Address.V6.ofString? (← j.asString))

namespace Endpoint

def toJson (e : Endpoint) : Json := Json.ofMembers [
  Json.member "serviceName" (.string e.service),
  Json.member? "ipv4" (e.ipv4.map fun a => .string a.toString),
  Json.member? "ipv6" (e.ipv6.map fun a => .string a.toString),
  Json.member? "port" (e.port.map Json.ofUInt16)]

def layout : Json.Layout where
  names := ["serviceName", "ipv4", "ipv6", "port"]
  required := []
  least := 0

def takeMember (e : Endpoint) (name : String) (j : Json) : Decoded Endpoint :=
  match name with
  | "serviceName" => return { e with service := ← j.asString }
  | "ipv4" => return { e with ipv4 := ← Json.nullable Address.V4.ofJson j }
  | "ipv6" => return { e with ipv6 := ← Json.nullable Address.V6.ofJson j }
  | "port" => return { e with port := ← Json.nullable Json.asUInt16 j }
  | _ => return e

def ofJson (j : Json) : Decoded Endpoint := Json.asStructure layout { service := "" } takeMember j

end Endpoint

end TraceArchive
