import TraceArchive.Request.Draft
import TraceArchive.Store
import TraceArchive.Trace.Linker
import TraceArchive.Trace.Skew

set_option autoImplicit false

/-!
Search. The spans that match a request tell which traces are candidates. The candidates are
loaded as a whole, the most recent ones come first, and those within the limit that carry all
that is asked for are the result.
-/

namespace TraceArchive

namespace Request

/-- What one span must have for its trace to be a candidate. Where only a service is given, the
span has one of the names that are recorded for it. -/
def predicate (q : Request) (recorded : List String) : Predicate :=
  let name := match q.spanName, q.service with
    | some name, _ => Predicate.equal .name (.text name)
    | none, some _ => .any (recorded.map fun name => .equal .name (.text name))
    | none, none => .always
  let inWindow := name.and (.between .timestamp (some q.window.1) (some q.window.2))
  let lasting :=
    if q.hasDurationBounds then inWindow.and (.between .duration q.minDuration q.maxDuration)
    else inWindow
  let withTerms :=
    q.terms.toList.foldl
      (fun p term => p.and ((Predicate.anyEvent term).or (.anyTagKey term))) lasting
  q.tags.entries.foldl (fun p t => p.and (.anyTag t.1 t.2)) withTerms

end Request

namespace TraceId

/-- The predicate that the spans of a trace satisfy. -/
def predicate (strict : Bool) (id : TraceId) : Predicate :=
  let low := Predicate.equal .traceId (.number id.low)
  if strict then (Predicate.equal .traceIdHigh (.number id.high)).and low else low

/-- The columns that tell what trace a span belongs to. -/
def columns : List Column := [.traceIdHigh, .traceId]

def ofRow? (strict : Bool) : Row → Option TraceId
  | [high, some (.number low)] =>
    some { high := if strict then (high.bind (·.number?)).getD 0 else 0, low }
  | _ => none

end TraceId

namespace Trace

def candidates (strict : Bool) (rows : List Row) : SortedSet TraceId :=
  SortedSet.ofList (rows.filterMap (TraceId.ofRow? strict))

/-- The predicate that the spans of all candidates satisfy. -/
def anyOf (strict : Bool) (ids : SortedSet TraceId) : Predicate :=
  .any (ids.toList.map (TraceId.predicate strict))

/-- By the latest timestamp and then by key. -/
def byRecency (a b : TraceId × Trace) : Ordering :=
  compareLex (compareOn fun t => t.2.latest) (compareOn Prod.fst) a b

instance : Std.TransCmp byRecency :=
  inferInstanceAs (Std.TransCmp (compareLex (compareOn fun t : TraceId × Trace => t.2.latest)
    (compareOn Prod.fst)))

/-- The most recent traces first. -/
def rank (traces : List (TraceId × Trace)) : List (TraceId × Trace) :=
  traces.mergeSort fun a b => (byRecency b a).isLE

/-- The traces within the limit that carry what is asked for, the most recent ones first. -/
def select (strict : Bool) (q : Request) (rs : List Report) : List Trace :=
  (((rank (group strict rs)).take q.limit.toNat).map Prod.snd).filter q.test

end Trace

namespace Session

/-- The span names recorded for the service of a request that gives nothing but a service. -/
def recordedNames (q : Request) : Session (Option (List String)) :=
  match q.spanName, q.service with
  | none, some service => do return some (← spanNamesOf service)
  | _, _ => pure none

def getTraces (strict : Bool) (q : Request) : Session (List Trace) := do
  let recorded ← recordedNames q
  if recorded = some [] then return []
  let ids := Trace.candidates strict
    (← findRows (q.predicate (recorded.getD [])) TraceId.columns)
  if ids.isEmpty then return []
  return Trace.select strict q (← findReports (Trace.anyOf strict ids))

/-- A trace as it is stored, in the order of the storage. -/
def getRawTrace (strict : Bool) (id : TraceId) : Session (Option Trace) := do
  let found ← findReports (id.predicate strict)
  return if found.isEmpty then none else some found

/-- A trace with one report for each span and with corrected clocks. -/
def getTrace (strict : Bool) (id : TraceId) : Session (Diagnosed (Option Trace)) := do
  match ← getRawTrace strict id with
  | none => return ⟨none, []⟩
  | some found =>
    let corrected := (Trace.mergeById (Trace.sortByTime found)).correctSkew
    return ⟨some corrected.value, corrected.diagnostics⟩

def getServiceNames : Session (List String) := allServices

def getSpanNames (service : String) : Session (List String) :=
  match cleanse service with
  | none => pure []
  | some service => spanNamesOf service

/-- A draft asks for all traces in a window. -/
def allTraces (endTs : UInt64) (lookback : Option UInt64) : Request.Draft where
  endTs := some endTs
  lookback := some (lookback.getD endTs)
  limit := some 0xFFFFFFFFFFFFFFFF

/-- The calls between services in the traces of a window, which reaches back to the beginning
unless it is told how far. -/
def getDependencies (strict : Bool) (endTs : UInt64) (lookback : Option UInt64) :
    Session (Diagnosed (List Link)) := do
  match (allTraces endTs lookback).request endTs with
  | .error e => throw (.failure (.argument e.message))
  | .ok q =>
    let counted := CallCounts.addTraces .empty (← getTraces strict q)
    return ⟨counted.value.links, counted.diagnostics⟩

end Session

end TraceArchive
