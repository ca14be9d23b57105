import TraceArchive.Report

set_option autoImplicit false

/-!
Traces: the reports of the spans of one request on its way through the services, in the order of
their times.
-/

namespace TraceArchive

abbrev Trace := List Report

/-- By timestamp, name and id; what is absent comes first. -/
def Report.byTime (a b : Report) : Ordering :=
  compareLex (compareOn timestamp) (compareLex (compareOn name) (compareOn id)) a b

instance : Std.TransCmp Report.byTime :=
  inferInstanceAs (Std.TransCmp (compareLex (compareOn Report.timestamp)
    (compareLex (compareOn Report.name) (compareOn Report.id))))

theorem Report.isLE_byTime_total (a b : Report) :
    ((a.byTime b).isLE || (b.byTime a).isLE) = true := by
  cases h : a.byTime b with
  | lt => rfl
  | eq => rfl
  | gt => simp [Std.OrientedCmp.gt_iff_lt.1 h]

namespace Trace

/-- Reports that compare equal keep their order. -/
def sortByTime (trace : Trace) : Trace := trace.mergeSort fun a b => (a.byTime b).isLE

theorem sortByTime_perm (trace : Trace) : (sortByTime trace).Perm trace :=
  List.mergeSort_perm ..

theorem sortByTime_pairwise (trace : Trace) :
    (sortByTime trace).Pairwise fun a b => (a.byTime b).isLE = true :=
  @List.pairwise_mergeSort Report (fun a b => (a.byTime b).isLE)
    (fun _ _ _ hab hbc => Std.TransCmp.isLE_trans hab hbc) Report.isLE_byTime_total trace

/-- The latest timestamp of a trace, which tells how recent the trace is. -/
def latest (trace : Trace) : Option UInt64 := (trace.filterMap (·.timestamp)).max?

end Trace

/-- A report without a timestamp takes the time from its first to its last event, if there are at
least two. The result is tidy. -/
def Report.withTiming (r : Report) : Report :=
  let times := r.events.map (·.timestamp)
  match r.timestamp, times.min?, times.max? with
  | none, some first, some last =>
    if 2 ≤ times.length then
      ((r.withTimestamp (some first)).withDuration (some (last - first))).tidy
    else r.tidy
  | _, _, _ => r.tidy

end TraceArchive
