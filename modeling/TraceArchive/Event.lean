import TraceArchive.Endpoint

set_option autoImplicit false

/-!
Timestamped events. Four of them mark the sides of a remote call: a client sends and receives, a
server receives and sends.
-/

namespace TraceArchive

inductive CoreEvent where
  | clientSend
  | serverReceive
  | serverSend
  | clientReceive
  deriving DecidableEq

namespace CoreEvent

def name : CoreEvent → String
  | .clientSend => "cs"
  | .serverReceive => "sr"
  | .serverSend => "ss"
  | .clientReceive => "cr"

def ofName? (name : String) : Option CoreEvent :=
  if name = "cs" then some .clientSend
  else if name = "sr" then some .serverReceive
  else if name = "ss" then some .serverSend
  else if name = "cr" then some .clientReceive
  else none

theorem ofName?_eq_some_iff {name : String} {c : CoreEvent} :
    ofName? name = some c ↔ name = c.name := by
  constructor
  · intro h
    unfold ofName? at h
    repeat' split at h
    all_goals simp_all
    all_goals subst h; rfl
  · rintro rfl
    cases c <;> rfl

end CoreEvent

structure Event where
  /-- Microseconds since the epoch. -/
  timestamp : UInt64
  value : String
  endpoint : Option Endpoint := none
  deriving DecidableEq

namespace Event

instance : Ord Event :=
  ⟨compareLex (compareOn timestamp) (compareLex (compareOn value) (compareOn endpoint))⟩

instance : Std.TransOrd Event :=
  inferInstanceAs (Std.TransCmp (compareLex (compareOn timestamp)
    (compareLex (compareOn value) (compareOn endpoint))))

instance : Std.LawfulEqOrd Event where
  eq_of_compare {a b} h := by
    obtain ⟨h₁, h⟩ := compareLex_eq_eq.1 h
    obtain ⟨h₂, h₃⟩ := compareLex_eq_eq.1 h
    have : a.timestamp = b.timestamp := Std.LawfulEqCmp.eq_of_compare h₁
    have : a.value = b.value := Std.LawfulEqCmp.eq_of_compare h₂
    have : a.endpoint = b.endpoint := Std.LawfulEqCmp.eq_of_compare h₃
    cases a; cases b; simp_all

def isCore (e : Event) : Bool := (CoreEvent.ofName? e.value).isSome

/-- The core event that an event stands for; it counts only on a known host. -/
def core? (e : Event) : Option CoreEvent :=
  if e.endpoint.isSome then CoreEvent.ofName? e.value else none

end Event

end TraceArchive
