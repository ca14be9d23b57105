import TraceArchive.Predicate
import TraceArchive.Sorted.Map

set_option autoImplicit false

/-!
Requests for traces: what a trace must carry, the window of time it must touch, and how many
traces are wanted.
-/

namespace TraceArchive

structure Request where
  service : Option String := none
  spanName : Option String := none
  /-- Values of events or keys of text tags. -/
  terms : SortedSet String := .empty
  tags : SortedMap String String := .empty
  /-- Microseconds. -/
  minDuration : Option UInt64 := none
  maxDuration : Option UInt64 := none
  /-- The end of the window, in milliseconds since the epoch. -/
  endTs : UInt64
  /-- The width of the window, in milliseconds. -/
  lookback : UInt64
  limit : UInt64
  deriving DecidableEq

/-- Multiplication that stops at the last instant. -/
def toMicros (millis : UInt64) : UInt64 :=
  if millis.toNat * 1000 ≤ lastInstant.toNat then millis * 1000 else lastInstant

theorem toNat_toMicros (millis : UInt64) :
    (toMicros millis).toNat = min (millis.toNat * 1000) lastInstant.toNat := by
  have hlast : lastInstant.toNat = 0xFFFFFFFFFFFFFFFF := rfl
  have hthousand : (1000 : UInt64).toNat = 1000 := rfl
  unfold toMicros
  split
  · rw [UInt64.toNat_mul, hthousand]
    omega
  · omega

def Report.inService (r : Report) (service : Option String) : Bool :=
  service.all fun s => s ∈ r.services.toList

namespace Request

/-- The window in microseconds, both ends included. -/
def window (q : Request) : UInt64 × UInt64 :=
  (toMicros (timeBetween q.lookback q.endTs), toMicros q.endTs)

def hasDurationBounds (q : Request) : Bool := q.minDuration.isSome || q.maxDuration.isSome

def durationInBounds (q : Request) (d : UInt64) : Bool :=
  atLeast q.minDuration d && atMost q.maxDuration d

/-- Whether a trace carries what is asked for. Terms and tags may be on any of its reports; the
name and the duration must be those of a report of the service. The window is not looked at. -/
def test (q : Request) (trace : List Report) : Bool :=
  (q.service.isNone || trace.any (·.inService q.service))
    && q.spanName.all (fun name => trace.any fun r => r.name == some name && r.inService q.service)
    && q.terms.toList.all (fun term => trace.any fun r => r.hasEvent term || r.hasTagKey term)
    && q.tags.entries.all (fun t => trace.any fun r => r.hasTag t.1 t.2)
    && (!q.hasDurationBounds || trace.any fun r =>
      r.inService q.service && r.duration.any q.durationInBounds)

end Request

end TraceArchive
