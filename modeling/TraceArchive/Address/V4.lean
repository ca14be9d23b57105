import TraceArchive.Text.Split

set_option autoImplicit false

/-!
Version 4 internet addresses in dotted decimal notation.
-/

namespace TraceArchive.Address

structure V4 where
  octets : Vector UInt8 4
  deriving DecidableEq

namespace V4

instance : Ord V4 := ⟨compareOn octets⟩

instance : Std.TransOrd V4 := inferInstanceAs (Std.TransCmp (compareOn octets))

instance : Std.LawfulEqOrd V4 where
  eq_of_compare {a b} h := by
    have : compare a.octets b.octets = .eq := h
    have : a.octets = b.octets := Std.LawfulEqCmp.eq_of_compare this
    cases a; cases b; simp_all

/-- A decimal number below 256 without leading zeros. -/
def octet? (cs : List Char) : Option UInt8 :=
  if cs ≠ [] ∧ cs.length ≤ 3 ∧ cs.all Char.isDigit ∧ (cs.head? = some '0' → cs.length = 1) then
    let n := cs.foldl (fun n c => 10 * n + (c.toNat - 48)) 0
    if n < 256 then some (UInt8.ofNat n) else none
  else none

def ofChars? (cs : List Char) : Option V4 :=
  match (Text.splitChar '.' cs).mapM octet? with
  | some [a, b, c, d] => some ⟨#v[a, b, c, d]⟩
  | _ => none

def ofString? (s : String) : Option V4 := ofChars? s.toList

def toString (a : V4) : String :=
  String.intercalate "." (a.octets.toList.map fun o => o.toNat.repr)

end V4

end TraceArchive.Address
