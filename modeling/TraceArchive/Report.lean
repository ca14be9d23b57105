import TraceArchive.Event
import TraceArchive.Id
import TraceArchive.Name
import TraceArchive.Sorted.Set
import TraceArchive.Tag

set_option autoImplicit false

/-!
Reports of one span by the hosts that took part in it. Core events tell which side of a call a
host was on, so one report may hold both sides. Reports of the same span are merged, and the
merged report is what the archive stores.
-/

namespace TraceArchive

structure Report where
  traceId : TraceId
  id : UInt64
  parentId : Option UInt64 := none
  name : Option String := none
  /-- Microseconds since the epoch. -/
  timestamp : Option UInt64 := none
  /-- Microseconds. -/
  duration : Option UInt64 := none
  events : List Event := []
  tags : List Tag := []
  /-- Set where sampling was forced. -/
  debug : Bool := false
  deriving DecidableEq

/-- Time does not start at zero: a zero timestamp is none. -/
def timestamp? (t : Option UInt64) : Option UInt64 := t.filter (· ≠ 0)

/-- What happened took time: at least a microsecond. -/
def duration? (d : Option UInt64) : Option UInt64 := d.map (max 1)

/-- The last instant that a timestamp can tell. -/
def lastInstant : UInt64 := 0xFFFFFFFFFFFFFFFF

/-- Addition that stops at the last instant. -/
def addTime (t d : UInt64) : UInt64 :=
  if t.toNat + d.toNat ≤ lastInstant.toNat then t + d else lastInstant

/-- The time from one instant to a later one, zero if it is earlier. -/
def timeBetween (start finish : UInt64) : UInt64 := if start ≤ finish then finish - start else 0

theorem toNat_timeBetween (start finish : UInt64) :
    (timeBetween start finish).toNat = finish.toNat - start.toNat := by
  unfold timeBetween
  split
  · next h => exact UInt64.toNat_sub_of_le finish start h
  · next h =>
    rw [UInt64.le_iff_toNat_le] at h
    rw [UInt64.toNat_zero]
    omega

namespace Report

def blank : Report := { traceId := ⟨0, 0⟩, id := 0 }

instance : Inhabited Report := ⟨blank⟩

def withName (r : Report) (name : String) : Report := { r with name := spanName? name }

def withTimestamp (r : Report) (t : Option UInt64) : Report := { r with timestamp := timestamp? t }

def withDuration (r : Report) (d : Option UInt64) : Report := { r with duration := duration? d }

def addEvent (r : Report) (e : Event) : Report := { r with events := r.events ++ [e] }

def addTag (r : Report) (t : Tag) : Report := { r with tags := r.tags ++ [t] }

/-- With events and tags in ascending order and each of them once. -/
def tidy (r : Report) : Report :=
  { r with events := Ascending.ofList r.events, tags := Ascending.ofList r.tags }

/-- Tidy, and with a name, a timestamp and a duration as they are set on reports. -/
structure Normal (r : Report) : Prop where
  events : Ascending r.events
  tags : Ascending r.tags
  name : ∀ name, r.name = some name → name ≠ "" ∧ Text.lowercase name = name
  timestamp : r.timestamp ≠ some 0
  duration : r.duration ≠ some 0

@[simp] theorem mem_events_tidy {r : Report} {e : Event} : e ∈ r.tidy.events ↔ e ∈ r.events :=
  Ascending.mem_ofList

@[simp] theorem mem_tags_tidy {r : Report} {t : Tag} : t ∈ r.tidy.tags ↔ t ∈ r.tags :=
  Ascending.mem_ofList

def key (r : Report) : Key := ⟨r.traceId, r.id⟩

def endpoints (r : Report) : List Endpoint :=
  r.events.filterMap (·.endpoint) ++ r.tags.filterMap (·.endpoint)

/-- The services of all endpoints, trimmed and in lowercase; an empty name is no service. -/
def services (r : Report) : SortedSet String :=
  SortedSet.ofList
    ((r.endpoints.map fun e => Text.lowercase (Text.trim e.service)).filter (· ≠ ""))

end Report

end TraceArchive
