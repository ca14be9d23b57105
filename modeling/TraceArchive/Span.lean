import TraceArchive.Report
import TraceArchive.Sorted.Map

set_option autoImplicit false

/-!
Spans: one side of an operation on one host. The kind tells the side of a remote call, timestamp
and duration tell its time, so no core events are needed.
-/

namespace TraceArchive

inductive Span.Kind where
  | client
  | server
  deriving DecidableEq

structure Span where
  traceId : TraceId
  id : UInt64
  parentId : Option UInt64 := none
  kind : Option Span.Kind := none
  name : Option String := none
  /-- Microseconds since the epoch. -/
  timestamp : Option UInt64 := none
  /-- Microseconds. -/
  duration : Option UInt64 := none
  localEndpoint : Option Endpoint := none
  remoteEndpoint : Option Endpoint := none
  events : List Event := []
  tags : SortedMap String String := .empty
  debug : Bool := false
  /-- Set on the server side of a call that goes by the id of the client's span. -/
  shared : Bool := false
  deriving DecidableEq

namespace Span

def blank : Span := { traceId := ⟨0, 0⟩, id := 0 }

instance : Inhabited Span := ⟨blank⟩

def withName (s : Span) (name : String) : Span := { s with name := spanName? name }

def withTimestamp (s : Span) (t : Option UInt64) : Span := { s with timestamp := timestamp? t }

def withDuration (s : Span) (d : Option UInt64) : Span := { s with duration := duration? d }

/-- The host of an event is the local endpoint, so the event itself needs none. -/
def addEvent (s : Span) (timestamp : UInt64) (value : String) : Span :=
  { s with events := s.events ++ [{ timestamp, value }] }

def putTag (s : Span) (key value : String) : Span := { s with tags := s.tags.insert key value }

/-- With events in ascending order and each of them once. -/
def tidy (s : Span) : Span := { s with events := Ascending.ofList s.events }

def localService? (s : Span) : Option String := s.localEndpoint.bind (·.service?)

def remoteService? (s : Span) : Option String := s.remoteEndpoint.bind (·.service?)

end Span

end TraceArchive
