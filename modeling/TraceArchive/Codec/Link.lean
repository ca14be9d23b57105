import TraceArchive.Codec.Basic
import TraceArchive.Link

set_option autoImplicit false

/-!
Links in JSON.
-/

namespace TraceArchive.Link

def toJson (l : Link) : Json := Json.ofMembers [
  Json.member "parent" (.string l.parent),
  Json.member "child" (.string l.child),
  Json.member "callCount" (Json.ofUInt64 l.callCount)]

def layout : Json.Layout where
  names := ["parent", "child", "callCount"]
  required := ["parent", "child", "callCount"]
  least := 3

def takeMember (l : Link) (name : String) (j : Json) : Decoded Link :=
  match name with
  | "parent" => return { l with parent := ← j.asString }
  | "child" => return { l with child := ← j.asString }
  | "callCount" => return { l with callCount := ← j.asUInt64 }
  | _ => return l

def ofJson (j : Json) : Decoded Link := Json.asStructure layout ⟨"", "", 0⟩ takeMember j

end TraceArchive.Link
