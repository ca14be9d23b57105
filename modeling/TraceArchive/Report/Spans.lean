import TraceArchive.Span

set_option autoImplicit false

/-!
The spans of a report, one for each service that took part. Every event and every text tag has a
home: the first span of the service of its endpoint, or the first span of all where it has none.
The core events become the kinds and the times of the spans, address flags their remote
endpoints.
-/

namespace TraceArchive.Report

/-- When and where a core event happened. -/
structure Moment where
  timestamp : UInt64
  endpoint : Endpoint
  deriving DecidableEq

def momentOf? (core : CoreEvent) (e : Event) : Option Moment :=
  if e.core? = some core then e.endpoint.map fun endpoint => ⟨e.timestamp, endpoint⟩ else none

/-- Of several core events of one name the last one counts. -/
def moment? (r : Report) (core : CoreEvent) : Option Moment :=
  (r.events.filterMap (momentOf? core)).getLast?

/-- What the core events tell about a call. -/
inductive Call where
  /-- Both sides of the call are in the report. -/
  | shared (send receive : Moment) (reply done : Option Moment)
  /-- One side of the call from its start to its end. -/
  | oneSided (start finish : Moment)
  | incomplete

def call (r : Report) : Call :=
  match r.moment? .clientSend, r.moment? .serverReceive, r.moment? .serverSend,
    r.moment? .clientReceive with
  | some cs, some sr, ss, cr => .shared cs sr ss cr
  | some cs, none, _, some cr => .oneSided cs cr
  | none, some sr, some ss, _ => .oneSided sr ss
  | _, _, _, _ => .incomplete

/-- The endpoint of the last flag under a key, if that flag has one. -/
def flagged? (r : Report) (key : String) : Option Endpoint :=
  (r.tags.filter fun t => t.isFlag && t.key == key).getLast?.bind (·.endpoint)

/-- The two ends of a call that only address flags tell of. -/
def addressOnly? (r : Report) : Option (Endpoint × Endpoint) :=
  match r.moment? .clientSend, r.moment? .serverReceive, r.flagged? Tag.clientAddress,
    r.flagged? Tag.serverAddress with
  | none, none, some ca, some sa => some (ca, sa)
  | _, _, _, _ => none

/-- The first endpoint of every service. -/
def onePerService : List Endpoint → List Endpoint
  | [] => []
  | e :: es => e :: (onePerService es).filter fun f => !e.sameService f

theorem mem_onePerService {e : Endpoint} {es : List Endpoint} (h : e ∈ onePerService es) :
    e ∈ es := by
  induction es with
  | nil => simp [onePerService] at h
  | cons f es ih =>
    simp only [onePerService, List.mem_cons, List.mem_filter] at h
    rcases h with rfl | ⟨h, -⟩
    · simp
    · exact List.mem_cons_of_mem _ (ih h)

/-- The hosts that events tell of. -/
def eventHosts (r : Report) : List Endpoint := onePerService (r.events.filterMap (·.endpoint))

/-- All hosts, those that events tell of first. -/
def hosts (r : Report) : List Endpoint :=
  onePerService (r.events.filterMap (·.endpoint)
    ++ (r.tags.filter fun t => !t.isFlag).filterMap (·.endpoint)
    ++ r.addressOnly?.toList.map Prod.fst)

/-- A place for what the hosts of one service reported; only the home of a report without any
endpoint has none. The first home also takes what has no endpoint. -/
structure Home where
  endpoint : Option Endpoint
  first : Bool

def Home.holds (h : Home) : Option Endpoint → Bool
  | none => h.first
  | some e => h.endpoint.any (·.sameService e)

def Home.ofHosts : List Endpoint → List Home
  | [] => [⟨none, true⟩]
  | e :: es => ⟨some e, true⟩ :: es.map fun f => ⟨some f, false⟩

def homes (r : Report) : List Home := Home.ofHosts r.hosts

/-- Which side of a call a span shows, and when. -/
structure Side where
  kind : Option Span.Kind := none
  timestamp : Option UInt64 := none
  duration : Option UInt64 := none
  shared : Bool := false

def sideOf : CoreEvent → Span.Kind
  | .clientSend | .clientReceive => .client
  | .serverReceive | .serverSend => .server

/-- The kind that the last core event of a home tells. -/
def kindAt (r : Report) (h : Home) : Option Span.Kind :=
  ((r.events.filter fun e => h.holds e.endpoint).filterMap (·.core?)).getLast?.map sideOf

/-- The report's own time, if it is complete, or else that of the core events. -/
def timed (r : Report) (side : Side) (start : Moment) (finish : Option Moment) : Side :=
  match r.timestamp, r.duration with
  | some t, some d => { side with timestamp := some t, duration := some d }
  | _, _ => { side with
      timestamp := some start.timestamp
      duration := finish.map fun m => timeBetween start.timestamp m.timestamp }

/-- The server's side of a call has the times of its own core events. -/
def serverSide (kind : Option Span.Kind) (receive : Moment) (reply : Option Moment) : Side where
  kind
  timestamp := some receive.timestamp
  duration := reply.map fun m => timeBetween receive.timestamp m.timestamp
  shared := true

/-- The ends of a call without its start; they stay events. -/
def loose (r : Report) : List (CoreEvent × Moment) :=
  match r.call with
  | .incomplete => [.serverSend, .clientReceive].filterMap fun core =>
      (r.moment? core).map fun m => (core, m)
  | _ => []

def looseAt (r : Report) (h : Home) : List (CoreEvent × Moment) :=
  r.loose.filter fun m => h.holds (some m.2.endpoint)

/-- Where a call is incomplete, its start is the time of the home's side; the first home has the
report's own time before that. -/
def incompleteSide (r : Report) (h : Home) : Side :=
  let kind := r.kindAt h
  let start := match kind with
    | some .client => r.moment? .clientSend
    | some .server => r.moment? .serverReceive
    | none => none
  let side : Side := {
    kind := if (r.looseAt h).isEmpty then kind else none
    timestamp := start.map (·.timestamp) }
  if h.first && r.timestamp.isSome then
    { side with timestamp := r.timestamp, duration := r.duration }
  else side

def sideAt (r : Report) (h : Home) : Side :=
  let plain : Side := { kind := r.kindAt h }
  match r.call with
  | .shared send receive reply done =>
    if h.holds (some send.endpoint) then
      let kind := if send.endpoint.sameService receive.endpoint then some .client else plain.kind
      r.timed { plain with kind } send done
    else if h.holds (some receive.endpoint) then serverSide plain.kind receive reply
    else plain
  | .oneSided start finish =>
    if h.holds (some start.endpoint) then r.timed plain start (some finish) else plain
  | .incomplete => r.incompleteSide h

/-- The other end of a call, from the address flags. A flag for the service of the home itself
tells nothing. -/
def remoteAt (r : Report) (h : Home) : Option Endpoint :=
  match r.addressOnly? with
  | some (ca, sa) => if h.holds (some ca) then some sa else none
  | none =>
    (other .serverReceive Tag.clientAddress).or (other .clientSend Tag.serverAddress)
where
  other (core : CoreEvent) (flag : String) : Option Endpoint :=
    match r.moment? core, r.flagged? flag with
    | some m, some e =>
      if h.holds (some m.endpoint) && !e.sameService m.endpoint then some e else none
    | _, _ => none

/-- The events of a home that are no core events, without their endpoints. -/
def eventsAt (r : Report) (h : Home) : List Event :=
  (r.events.filter fun e => e.core?.isNone && h.holds e.endpoint).map (fun e =>
    { timestamp := e.timestamp, value := e.value })
    ++ (r.looseAt h).map fun m => { timestamp := m.2.timestamp, value := m.1.name }

/-- The text tags of a home. An empty local component only tells the host. -/
def tagsAt (r : Report) (h : Home) : List (String × String) :=
  r.tags.filterMap fun t =>
    match t.text? with
    | some text =>
      if h.holds t.endpoint && !(t.key == Tag.localComponent && text == "") then
        some (t.key, text)
      else none
    | none => none

def toSpan (r : Report) (endpoint : Option Endpoint) (side : Side) : Span where
  traceId := r.traceId
  id := r.id
  parentId := r.parentId
  kind := side.kind
  name := r.name.bind spanName?
  timestamp := timestamp? side.timestamp
  duration := duration? side.duration
  localEndpoint := endpoint
  debug := r.debug
  shared := side.shared

def spanAt (r : Report) (h : Home) : Span :=
  Span.tidy { r.toSpan h.endpoint (r.sideAt h) with
    remoteEndpoint := r.remoteAt h
    events := r.eventsAt h
    tags := SortedMap.ofList (r.tagsAt h) }

/-- The server's side of a call that a service made to itself: the home of the service is the
client's span, so the server has a span of its own. -/
def loopback? (r : Report) : Option Span :=
  match r.call with
  | .shared send receive reply _ =>
    if send.endpoint.sameService receive.endpoint then
      some (r.toSpan (some receive.endpoint) (serverSide (some .server) receive reply))
    else none
  | _ => none

/-- The spans of the hosts that events tell of, the server's side of a loopback, and the spans
of the other hosts. There is always at least one span. -/
def toSpans (r : Report) : List Span :=
  let spans := r.homes.map r.spanAt
  let n := r.eventHosts.length
  spans.take n ++ r.loopback?.toList ++ spans.drop n

end TraceArchive.Report
