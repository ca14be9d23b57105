import TraceArchive.Span

set_option autoImplicit false

/-!
The report that a host would have sent for a span. The kind becomes core events on the local
endpoint, the remote endpoint an address flag.
-/

namespace TraceArchive.Span

def startTime (s : Span) : UInt64 := s.timestamp.getD 0

def elapsed (s : Span) : UInt64 := s.duration.getD 0

/-- The core events of a span's kind: its start if the start is known, its end if there is a
duration. -/
def kindTime? (s : Span) (core : CoreEvent) : Option UInt64 :=
  match core, s.kind with
  | .clientSend, some .client | .serverReceive, some .server =>
    if s.startTime ≠ 0 then some s.startTime else none
  | .clientReceive, some .client | .serverSend, some .server =>
    if s.elapsed ≠ 0 then some (addTime s.startTime s.elapsed) else none
  | _, _ => none

/-- An event with the host of the span. -/
def bound (s : Span) (e : Event) : Event := { e with endpoint := s.localEndpoint.or e.endpoint }

/-- A core event that the span carries itself counts before those of its kind, the last one of
several. -/
def coreEvent? (s : Span) (core : CoreEvent) : Option Event :=
  match (s.events.filter fun e => e.value == core.name).getLast? with
  | some e => some (s.bound e)
  | none => (s.kindTime? core).map fun t =>
      { timestamp := t, value := core.name, endpoint := s.localEndpoint }

def coreEvents (s : Span) : List Event :=
  [.clientSend, .serverReceive, .serverSend, .clientReceive].filterMap s.coreEvent?

def otherEvents (s : Span) : List Event :=
  (s.events.filter fun e => !e.isCore).map s.bound

def textTags (s : Span) : List Tag :=
  s.tags.entries.map fun e => Tag.ofText e.1 e.2 s.localEndpoint

/-- A span with both ends but without any core event is told by two address flags. -/
def isAddressOnly (s : Span) : Bool :=
  s.coreEvents.isEmpty && s.localEndpoint.isSome && s.remoteEndpoint.isSome

/-- The flag for the remote endpoint: the callee's address for a client, the caller's for a
server. The start of a call among the span's own events counts before the kind. -/
def remoteFlag? (s : Span) : Option String :=
  if s.isAddressOnly then some Tag.serverAddress
  else match (s.events.filterMap startFlag).getLast? with
    | some flag => some flag
    | none => s.kind.map fun
      | .client => Tag.serverAddress
      | .server => Tag.clientAddress
where
  startFlag (e : Event) : Option String :=
    match CoreEvent.ofName? e.value with
    | some .clientSend => some Tag.serverAddress
    | some .serverReceive => some Tag.clientAddress
    | _ => none

/-- The address flags, the one for the local endpoint first. -/
def addressTags (s : Span) : List Tag :=
  (if s.isAddressOnly then s.localEndpoint.toList.map (Tag.address Tag.clientAddress) else [])
    ++ match s.remoteFlag?, s.remoteEndpoint with
      | some flag, some remote => [Tag.address flag remote]
      | _, _ => []

/-- An empty local component, where nothing else tells the host. -/
def hostTag (s : Span) : List Tag :=
  match s.localEndpoint with
  | some e =>
    if s.otherEvents.isEmpty && s.textTags.isEmpty && s.coreEvents.isEmpty && !s.isAddressOnly then
      [Tag.ofText Tag.localComponent "" (some e)]
    else []
  | none => []

/-- The server's side of a shared span leaves the time to the client. -/
def ownsTime (s : Span) : Bool := !(s.shared && (s.coreEvent? .serverReceive).isSome)

def toReport (s : Span) : Report :=
  Report.tidy {
    traceId := s.traceId
    id := s.id
    parentId := s.parentId
    name := s.name.bind spanName?
    timestamp := if s.ownsTime then timestamp? (some s.startTime) else none
    duration := if s.ownsTime && s.startTime != 0 && s.elapsed != 0 then some s.elapsed else none
    events := s.otherEvents ++ s.coreEvents
    tags := s.textTags ++ s.addressTags ++ s.hostTag
    debug := s.debug }

end TraceArchive.Span
