import TraceArchive.Text.Hex
import TraceArchive.Text.Quoted

set_option autoImplicit false

/-!
Identifiers and their hexadecimal texts. A span id has 64 bits, a trace id 128; the high half of
a trace id is zero where hosts use 64-bit trace ids, and is not written then.
-/

namespace TraceArchive

open Text

/-- Why a text is no identifier. -/
inductive IdError where
  | length (text : String)
  | notHex (text : String)
  deriving DecidableEq

def IdError.message : IdError → String
  | .length text => quoted text ++ " should be 1 to 16 hex characters"
  | .notHex text => quoted text ++ " is not hex"

def isHex (text : String) : Bool := text.toList.all Hex.isDigit

namespace Id

/-- Sixteen lowercase digits. -/
def toHex (id : UInt64) : String := String.ofList (Hex.digits 16 id.toNat)

/-- One to sixteen digits; the length, in bytes of UTF-8, is checked first. -/
def ofHex (text : String) : Except IdError UInt64 :=
  if text.utf8ByteSize = 0 ∨ 16 < text.utf8ByteSize then .error (.length text)
  else if isHex text then .ok (UInt64.ofNat (Hex.value text.toList))
  else .error (.notHex text)

end Id

structure TraceId where
  high : UInt64 := 0
  low : UInt64
  deriving DecidableEq

namespace TraceId

instance : Ord TraceId := ⟨compareLex (compareOn high) (compareOn low)⟩

instance : Std.TransOrd TraceId :=
  inferInstanceAs (Std.TransCmp (compareLex (compareOn high) (compareOn low)))

instance : Std.LawfulEqOrd TraceId where
  eq_of_compare {a b} h := by
    obtain ⟨h₁, h₂⟩ := compareLex_eq_eq.1 h
    have : a.high = b.high := Std.LawfulEqCmp.eq_of_compare h₁
    have : a.low = b.low := Std.LawfulEqCmp.eq_of_compare h₂
    cases a; cases b; simp_all

/-- Thirty-two digits, or sixteen when the high half is zero. -/
def toHex (id : TraceId) : String :=
  if id.high ≠ 0 then Id.toHex id.high ++ Id.toHex id.low else Id.toHex id.low

/-- Up to thirty-two digits; what stands before the last sixteen is the high half. -/
def ofHex (text : String) : Except IdError TraceId :=
  let cs := text.toList
  if !isHex text then .error (.notHex text)
  else if 17 ≤ cs.length ∧ cs.length ≤ 32 then .ok {
    high := UInt64.ofNat (Hex.value (cs.take (cs.length - 16)))
    low := UInt64.ofNat (Hex.value (cs.drop (cs.length - 16))) }
  else (Id.ofHex text).map fun low => { low }

end TraceId

/-- What identifies a stored span. -/
structure Key where
  traceId : TraceId
  id : UInt64
  deriving DecidableEq

namespace Key

instance : Ord Key := ⟨compareLex (compareOn traceId) (compareOn id)⟩

instance : Std.TransOrd Key :=
  inferInstanceAs (Std.TransCmp (compareLex (compareOn traceId) (compareOn id)))

instance : Std.LawfulEqOrd Key where
  eq_of_compare {a b} h := by
    obtain ⟨h₁, h₂⟩ := compareLex_eq_eq.1 h
    have : a.traceId = b.traceId := Std.LawfulEqCmp.eq_of_compare h₁
    have : a.id = b.id := Std.LawfulEqCmp.eq_of_compare h₂
    cases a; cases b; simp_all

def text (key : Key) : String := key.traceId.toHex ++ "/" ++ Id.toHex key.id

end Key

end TraceArchive
