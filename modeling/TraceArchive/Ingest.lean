import TraceArchive.Report.Merge
import TraceArchive.Store
import TraceArchive.Trace

set_option autoImplicit false

/-!
Ingest. A report of a span that is stored already is merged with what is stored. The names of the
span and of its ancestors are recorded for their services, so that a parent that was stored
before it had a name is found too.
-/

namespace TraceArchive

namespace Report

/-- The services of a report under which its name is recorded. -/
def indexServices (r : Report) : List String := r.services.toList.filterMap cleanse

def indexName? (r : Report) : Option String := r.name.bind cleanse

end Report

namespace Session

def recordName (service name : String) : Session Unit := do
  unless ← hasSpanName service name do
    putSpanName service name

def recordNames (r : Report) : Session Unit :=
  match r.indexName? with
  | none => pure ()
  | some name => r.indexServices.forM (recordName · name)

/-- Records the names of the stored ancestors that are met by following parents. The walk ends at
an id that is not stored or was met before. -/
def recordAncestors (traceId : TraceId) : (limit : Nat) → (met : List UInt64) →
    (next : Option UInt64) → Session Unit
  | 0, _, _ => pure ()
  | _, _, none => pure ()
  | limit + 1, met, some id =>
    if id ∈ met then pure ()
    else do
      match ← getReport ⟨traceId, id⟩ with
      | none => pure ()
      | some ancestor =>
        recordNames ancestor
        recordAncestors traceId limit (id :: met) ancestor.parentId

/-- Records the names of a report and of its ancestors. A walk meets a stored span at most once,
and one id that is not stored at its end. -/
def index (r : Report) : Session Unit := do
  recordNames r
  recordAncestors r.traceId ((← get).spans.size + 1) [r.id] r.parentId

def acceptReport (r : Report) : Session Unit := do
  let r := r.withTiming
  match ← putReportIfAbsent r.key r with
  | some stored => putReport r.key (stored.merge r)
  | none => pure ()
  index r

/-- Stores reports in the order they came. -/
def accept (rs : List Report) : Session Unit := rs.forM acceptReport

end Session

end TraceArchive
