import TraceArchive.Link
import TraceArchive.Report.Spans
import TraceArchive.Trace.Grouping
import TraceArchive.Tree.Assembly

set_option autoImplicit false

/-!
Linking services. Each call in a trace adds to the edge from the calling service to the called
one. A server that does not know its caller is called by the nearest server above it.
-/

namespace TraceArchive

structure Edge where
  parent : String
  child : String
  deriving DecidableEq

namespace Edge

instance : Ord Edge := ⟨compareLex (compareOn parent) (compareOn child)⟩

instance : Std.TransOrd Edge :=
  inferInstanceAs (Std.TransCmp (compareLex (compareOn parent) (compareOn child)))

instance : Std.LawfulEqOrd Edge where
  eq_of_compare {a b} h := by
    obtain ⟨h₁, h₂⟩ := compareLex_eq_eq.1 h
    have : a.parent = b.parent := Std.LawfulEqCmp.eq_of_compare h₁
    have : a.child = b.child := Std.LawfulEqCmp.eq_of_compare h₂
    cases a; cases b; simp_all

end Edge

/-- The part that a span takes in a call: its side, its service and the service of its peer. -/
structure Role where
  id : UInt64
  kind : Option Span.Kind := none
  service : Option String := none
  peer : Option String := none
  deriving DecidableEq

/-- The server's side of a shared span counts before the client's, and a client that reported
counts before one that is only known by its address. -/
def Report.role (r : Report) : Role :=
  let spans := r.toSpans
  let client := spans.find? (·.kind == some .client)
  match spans.find? (·.kind == some .server), client with
  | some server, client => {
      id := r.id
      kind := some .server
      service := server.localService?
      peer := (client.bind (·.localService?)).or server.remoteService? }
  | none, some client => {
      id := r.id
      kind := some .client
      service := client.localService?
      peer := client.remoteService? }
  | none, none => { id := r.id }

namespace Trace

def roles (trace : Trace) : List (Assembly.Entry Role) :=
  (mergeById trace).map fun r => { parentId := r.parentId, id := r.id, value := r.role }

def roleAt? (tree : Tree Role) (i : Nat) : Option Role := (tree.get? i).bind (·.value)

/-- The service of the nearest server above a node, if it has one. -/
def serverAbove? (tree : Tree Role) (i : Nat) : Option String :=
  ((tree.ancestors tree.size i).filterMap (roleAt? tree)).find? (·.kind == some .server)
    |>.bind (·.service)

/-- The edge that a node adds to, or why it adds to none. -/
def edgeAt (tree : Tree Role) (i : Nat) (role : Role) : Except Diagnostic Edge :=
  match role.kind with
  | none => .error (.noCall role.id)
  | some .client => edge role.service role.peer
  | some .server =>
    if role.peer.isNone ∧ i = 0 then .error (.unknownPeer role.id)
    else edge (role.peer.or (serverAbove? tree i)) role.service
where
  edge : Option String → Option String → Except Diagnostic Edge
    | some parent, some child => .ok { parent, child }
    | _, _ => .error (.unknownService role.id)

/-- The edges that the calls of a trace add to, one for each call. -/
def edges (trace : Trace) : Diagnosed (List Edge) :=
  match trace with
  | [] => ⟨[], []⟩
  | first :: _ =>
    let built := Assembly.ofList first.traceId.toHex (roles trace)
    let tree := built.value
    let found := (tree.walk tree.size).filterMap fun i => (roleAt? tree i).map (edgeAt tree i)
    ⟨found.filterMap fun | .ok e => some e | .error _ => none,
      built.diagnostics ++ found.filterMap fun | .ok _ => none | .error d => some d⟩

end Trace

/-- How often each edge was called. The counts are not cut off here: a counter of 64 bits tells the
same below `2 ^ 64`, and so does a link. -/
abbrev CallCounts := SortedMap Edge Nat

namespace CallCounts

def count (counts : CallCounts) (e : Edge) : Nat := (counts.get? e).getD 0

def add (counts : CallCounts) (e : Edge) : CallCounts := counts.insert e (counts.count e + 1)

def addTrace (counts : CallCounts) (trace : Trace) : Diagnosed CallCounts :=
  let found := trace.edges
  ⟨found.value.foldl add counts, found.diagnostics⟩

def addTraces (counts : CallCounts) (traces : List Trace) : Diagnosed CallCounts :=
  traces.foldl (fun acc trace =>
    let next := acc.value.addTrace trace
    ⟨next.value, acc.diagnostics ++ next.diagnostics⟩) ⟨counts, []⟩

/-- The edges in ascending order, with their counts. -/
def links (counts : CallCounts) : List Link :=
  counts.entries.map fun e => {
    parent := e.1.parent
    child := e.1.child
    callCount := UInt64.ofNat e.2 }

end CallCounts

end TraceArchive
