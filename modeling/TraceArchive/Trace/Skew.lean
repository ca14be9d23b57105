import TraceArchive.Trace
import TraceArchive.Tree.Assembly

set_option autoImplicit false

/-!
Clock skew. Where a client and a server disagree about the time, the server's events may lie
outside the client's. If all four core events of a call are known, the server's clock is set so
that the time on the wire is the same in both directions; the local work below the server moves
with it. Timestamps are taken as signed numbers here. Their differences are not cut off, so a skew
is only as meant where these are signed 64-bit numbers too.
-/

namespace TraceArchive

/-- How far the clock of a host is ahead, in microseconds. -/
structure Skew where
  endpoint : Endpoint
  offset : Int
  deriving DecidableEq

/-- The signed number with the same 64 bits. -/
def signed (t : UInt64) : Int := Int.bmod t.toNat UInt64.size

/-- Sets a timestamp back by an offset. The distance is at most the largest signed number, and
the result stays within the timestamps. -/
def setBack (t : UInt64) (offset : Int) : UInt64 :=
  let moved := (t.toNat : Int) + min (-offset) Int64.maxValue.toInt
  if moved < 0 then 0
  else if moved ≤ lastInstant.toNat then UInt64.ofNat moved.toNat
  else lastInstant

namespace Report

def eventNamed? (r : Report) (core : CoreEvent) : Option Event :=
  r.events.find? (·.value == core.name)

/-- The skew of a call: half of what the client waited longer than the server worked is the time
of the way to the server. There is none on one host, nor where the server worked longer than the
client waited. -/
def skew? (r : Report) : Option Skew := do
  let cs ← r.eventNamed? .clientSend
  let cr ← r.eventNamed? .clientReceive
  let sr ← r.eventNamed? .serverReceive
  let ss ← r.eventNamed? .serverSend
  let server ← sr.endpoint.or ss.endpoint
  let client ← cs.endpoint.or cr.endpoint
  if server.sameHost client then none
  else
    let waited := signed cr.timestamp - signed cs.timestamp
    let worked := signed ss.timestamp - signed sr.timestamp
    if waited < worked then none
    else
      let offset := signed sr.timestamp - (waited - worked) / 2 - signed cs.timestamp
      if offset = 0 then none else some { endpoint := server, offset }

def onHost (skew : Skew) (e : Option Endpoint) : Bool := e.any skew.endpoint.sameHost

/-- Sets back the events of the skewed host, and the start of the span with them if it is the
time of one of them. A span without such events moves if its local component is on that host. -/
def adjust (r : Report) (skew : Skew) : Report :=
  let moved := r.events.filter fun e => onHost skew e.endpoint
  if !moved.isEmpty then
    tidy { r with
      events := r.events.map fun e =>
        if onHost skew e.endpoint then { e with timestamp := setBack e.timestamp skew.offset }
        else e
      timestamp :=
        if moved.any (some ·.timestamp == r.timestamp) then
          r.timestamp.map (setBack · skew.offset)
        else r.timestamp }
  else if r.tags.any fun t => t.key == Tag.localComponent && onHost skew t.endpoint then
    match r.timestamp with
    | some t => (r.withTimestamp (some (setBack t skew.offset))).tidy
    | none => r
  else r

/-- Whether all that a report tells happened at one endpoint. -/
def isLocal (r : Report) : Bool :=
  match r.events.map (·.endpoint) ++ r.tags.map (·.endpoint) with
  | [] => true
  | e :: es => es.all (· == e)

/-- Corrects a report below one whose host has a skew, and tells the skew for those below it. A
skew of its own counts before the one from above, which only goes on through local work. -/
def correct (above : Option Skew) (r : Report) : Report × Option Skew :=
  let r := match above with
    | some skew => r.adjust skew
    | none => r
  match r.skew? with
  | some own => (r.adjust own, some own)
  | none => (r, if r.isLocal then above else none)

end Report

namespace Trace

/-- The spans of a trace as they were put into the tree, and what was wrong with them. -/
structure Placed where
  assembly : Assembly Report
  root : Option UInt64 := none
  diagnostics : List Diagnostic := []

/-- A second span without a parent is not put into the tree. -/
def place (p : Placed) (r : Report) : Placed :=
  match r.parentId, p.root with
  | none, some root =>
    { p with diagnostics := p.diagnostics ++ [.redundantRoot p.assembly.trace root r.id] }
  | parentId, _ =>
    let root := if parentId.isNone then some r.id else p.root
    match p.assembly.add { parentId, id := r.id, value := r } with
    | .ok assembly => { p with assembly, root }
    | .error d => { p with root, diagnostics := p.diagnostics ++ [d] }

/-- Corrects the reports of some nodes, parents before their children. -/
def correctNodes (tree : Tree Report) (skews : List (Nat × Skew)) : List Nat → List Report
  | [] => []
  | i :: is =>
    match tree.get? i with
    | some { value := some r, parent, .. } =>
      let corrected := r.correct (parent.bind (skews.lookup ·))
      let skews := match corrected.2 with
        | some skew => (i, skew) :: skews
        | none => skews
      corrected.1 :: correctNodes tree skews is
    | _ => correctNodes tree skews is

/-- Corrects the clocks of a trace, whose reports then come in breadth-first order. A trace that
does not fit into one tree with a root stays as it is. -/
def correctSkew (trace : Trace) : Diagnosed Trace :=
  match trace with
  | [] => ⟨[], []⟩
  | first :: _ =>
    let id := first.traceId.toHex
    let placed := trace.foldl place { assembly := { trace := id } }
    if !placed.diagnostics.isEmpty then
      ⟨trace, placed.diagnostics ++ [.unfitForCorrection id]⟩
    else
      let built := placed.assembly.build
      if built.value.isPartial then ⟨trace, built.diagnostics ++ [.rootlessForCorrection id]⟩
      else
        ⟨correctNodes built.value [] (built.value.walk built.value.size), built.diagnostics⟩

end Trace

end TraceArchive
