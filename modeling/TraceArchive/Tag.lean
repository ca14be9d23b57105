import TraceArchive.Endpoint

set_option autoImplicit false

/-!
Tags: texts under a key, and flags that mark the address of the other side of a call.
-/

namespace TraceArchive

inductive TagValue where
  | flag (value : Bool)
  | text (value : String)
  deriving DecidableEq

namespace TagValue

def text? : TagValue → Option String
  | .flag _ => none
  | .text s => some s

def flag? : TagValue → Option Bool
  | .flag b => some b
  | .text _ => none

/-- Flags come before texts. -/
instance : Ord TagValue := ⟨compareLex (compareOn text?) (compareOn flag?)⟩

instance : Std.TransOrd TagValue :=
  inferInstanceAs (Std.TransCmp (compareLex (compareOn text?) (compareOn flag?)))

instance : Std.LawfulEqOrd TagValue where
  eq_of_compare {a b} h := by
    obtain ⟨h₁, h₂⟩ := compareLex_eq_eq.1 h
    have : a.text? = b.text? := Std.LawfulEqCmp.eq_of_compare h₁
    have : a.flag? = b.flag? := Std.LawfulEqCmp.eq_of_compare h₂
    cases a <;> cases b <;> simp_all [text?, flag?]

end TagValue

structure Tag where
  key : String
  value : TagValue
  endpoint : Option Endpoint := none
  deriving DecidableEq

namespace Tag

instance : Ord Tag :=
  ⟨compareLex (compareOn key) (compareLex (compareOn value) (compareOn endpoint))⟩

instance : Std.TransOrd Tag :=
  inferInstanceAs (Std.TransCmp (compareLex (compareOn key)
    (compareLex (compareOn value) (compareOn endpoint))))

instance : Std.LawfulEqOrd Tag where
  eq_of_compare {a b} h := by
    obtain ⟨h₁, h⟩ := compareLex_eq_eq.1 h
    obtain ⟨h₂, h₃⟩ := compareLex_eq_eq.1 h
    have : a.key = b.key := Std.LawfulEqCmp.eq_of_compare h₁
    have : a.value = b.value := Std.LawfulEqCmp.eq_of_compare h₂
    have : a.endpoint = b.endpoint := Std.LawfulEqCmp.eq_of_compare h₃
    cases a; cases b; simp_all

/-- The key of the flag that marks a caller's address. -/
def clientAddress : String := "ca"

/-- The key of the flag that marks a callee's address. -/
def serverAddress : String := "sa"

/-- The key that names the component of local work; an empty name only tells the host. -/
def localComponent : String := "lc"

def ofText (key value : String) (endpoint : Option Endpoint) : Tag :=
  { key, value := .text value, endpoint }

def address (key : String) (endpoint : Endpoint) : Tag :=
  { key, value := .flag true, endpoint := some endpoint }

def text? (t : Tag) : Option String := t.value.text?

def isFlag (t : Tag) : Bool := t.value.flag?.isSome

end Tag

end TraceArchive
