import TraceArchive.Report

set_option autoImplicit false

/-!
Merging two reports of one span. All events and tags are kept, gaps are filled, and the time of
the merged report covers the times of both.
-/

namespace TraceArchive.Report

/-- The name of a span that its host did not know. -/
def unknownName : String := "unknown"

/-- The earlier name, unless there is none or it is unknown and the later report knows one. -/
def mergeName (a b : Option String) : Option String :=
  if (a = none ∨ a = some unknownName) ∧ b ≠ none then b else a

/-- When a report ends; without a duration it ends where it starts. -/
def finish (start : UInt64) (duration : Option UInt64) : UInt64 := addTime start (duration.getD 0)

/-- Of two starts the merged time runs from the earlier one to the later end; with one start the
longer duration counts. -/
def mergeTime (a b : Option UInt64 × Option UInt64) : Option UInt64 × Option UInt64 :=
  match a.1, b.1 with
  | some s, some t =>
    if s ≠ t then
      (some (min s t), some (max (finish s a.2) (finish t b.2) - min s t))
    else (some s, longer a.2 b.2)
  | s, t => (s.or t, longer a.2 b.2)
where
  longer (d e : Option UInt64) : Option UInt64 :=
    match d, e with
    | some d, some e => some (max d e)
    | d, e => d.or e

def merge (a b : Report) : Report :=
  let time := mergeTime (a.timestamp, a.duration) (b.timestamp, b.duration)
  tidy {
    traceId := { a.traceId with
      high := if a.traceId.high = 0 then b.traceId.high else a.traceId.high }
    id := a.id
    parentId := a.parentId.or b.parentId
    name := mergeName a.name b.name
    timestamp := time.1
    duration := time.2
    events := a.events ++ b.events
    tags := a.tags ++ b.tags
    debug := a.debug || b.debug }

theorem mem_events_merge {a b : Report} {e : Event} :
    e ∈ (a.merge b).events ↔ e ∈ a.events ∨ e ∈ b.events := by
  simp [merge]

theorem mem_tags_merge {a b : Report} {t : Tag} :
    t ∈ (a.merge b).tags ↔ t ∈ a.tags ∨ t ∈ b.tags := by
  simp [merge]

end TraceArchive.Report
