import TraceArchive.Text.Blank
import TraceArchive.Text.Lowercase

set_option autoImplicit false

/-!
Names of spans and services. Hosts spell them as they like; they are stored and searched in
lowercase.
-/

namespace TraceArchive

/-- Names are in lowercase; an empty name is none. -/
def spanName? (name : String) : Option String :=
  if name = "" then none else some (Text.lowercase name)

/-- A name without blanks around it and in lowercase; a blank name is none. -/
def cleanse (name : String) : Option String :=
  if Text.trim name = "" then none else some (Text.lowercase (Text.trim name))

theorem spanName?_ne_empty {name s : String} (h : spanName? name = some s) : s ≠ "" := by
  simp only [spanName?] at h
  split at h
  · cases h
  · next hn => exact fun e => hn (Text.lowercase_eq_empty_iff.1 ((Option.some.inj h).trans e))

theorem cleanse_ne_empty {name s : String} (h : cleanse name = some s) : s ≠ "" := by
  simp only [cleanse] at h
  split at h
  · cases h
  · next hn => exact fun e => hn (Text.lowercase_eq_empty_iff.1 ((Option.some.inj h).trans e))

end TraceArchive
