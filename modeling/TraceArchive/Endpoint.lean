import TraceArchive.Address.V6
import TraceArchive.Text.Lowercase

set_option autoImplicit false

/-!
The network context of a host: the service it belongs to and where it was reached. Data is
grouped by the service alone; clocks belong to addresses.
-/

namespace TraceArchive

structure Endpoint where
  service : String
  ipv4 : Option Address.V4 := none
  ipv6 : Option Address.V6 := none
  port : Option UInt16 := none
  deriving DecidableEq

namespace Endpoint

instance : Ord Endpoint :=
  ⟨compareLex (compareOn service)
    (compareLex (compareOn ipv4) (compareLex (compareOn ipv6) (compareOn port)))⟩

instance : Std.TransOrd Endpoint :=
  inferInstanceAs (Std.TransCmp (compareLex (compareOn service)
    (compareLex (compareOn ipv4) (compareLex (compareOn ipv6) (compareOn port)))))

instance : Std.LawfulEqOrd Endpoint where
  eq_of_compare {a b} h := by
    obtain ⟨h₁, h⟩ := compareLex_eq_eq.1 h
    obtain ⟨h₂, h⟩ := compareLex_eq_eq.1 h
    obtain ⟨h₃, h₄⟩ := compareLex_eq_eq.1 h
    have : a.service = b.service := Std.LawfulEqCmp.eq_of_compare h₁
    have : a.ipv4 = b.ipv4 := Std.LawfulEqCmp.eq_of_compare h₂
    have : a.ipv6 = b.ipv6 := Std.LawfulEqCmp.eq_of_compare h₃
    have : a.port = b.port := Std.LawfulEqCmp.eq_of_compare h₄
    cases a; cases b; simp_all

/-- The endpoint of a service, whose name is written in lowercase. -/
def named (service : String) : Endpoint := { service := Text.lowercase service }

def sameService (a b : Endpoint) : Bool := a.service = b.service

/-- Two endpoints with a common address are on one host. -/
def sameHost (a b : Endpoint) : Bool :=
  (a.ipv6.isSome && a.ipv6 = b.ipv6) || (a.ipv4.isSome && a.ipv4 = b.ipv4)

/-- The name of the service, unless it is empty. -/
def service? (e : Endpoint) : Option String := if e.service = "" then none else some e.service

end Endpoint

end TraceArchive
