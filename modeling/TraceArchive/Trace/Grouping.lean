import TraceArchive.Report.Merge
import TraceArchive.Sorted.Map
import TraceArchive.Trace

set_option autoImplicit false

/-!
Reports grouped into traces, and the reports of one span merged into one. Traces are told apart
by all 128 bits of their ids where ids are strict, otherwise by the low half alone, so that hosts
with 64-bit and with 128-bit ids take part in one trace.
-/

namespace TraceArchive

/-- What tells a trace from others. -/
def Report.traceKey (strict : Bool) (r : Report) : TraceId :=
  if strict then r.traceId else { low := r.traceId.low }

namespace Trace

def gather (strict : Bool) (rs : List Report) : SortedMap TraceId (List Report) :=
  rs.foldl (fun groups r => groups.modify (r.traceKey strict) fun g => g.getD [] ++ [r]) .empty

/-- The traces of some reports in the order of their keys, each in the order of time. -/
def group (strict : Bool) (rs : List Report) : List (TraceId × Trace) :=
  (gather strict rs).entries.map fun g => (g.1, sortByTime g.2)

/-- The first high half that is set. -/
def highHalf (rs : List Report) : UInt64 :=
  ((rs.map (·.traceId.high)).find? (· ≠ 0)).getD 0

/-- A report without a high half takes the one that other reports of its trace have. -/
def fillHigh (high : UInt64) (r : Report) : Report :=
  if r.traceId.high = 0 ∧ high ≠ 0 then
    ({ r with traceId := { r.traceId with high } } : Report).tidy
  else r

/-- Merges a report into the one of its span, if there is one. -/
def absorb (r : Report) : List Report → List Report
  | [] => [r]
  | s :: rs => if s.id = r.id then s.merge r :: rs else s :: absorb r rs

/-- One report for each span, in the order of time. -/
def mergeById (rs : List Report) : Trace :=
  sortByTime ((rs.map (fillHigh (highHalf rs))).foldl (fun merged r => absorb r merged) [])

end Trace

end TraceArchive
