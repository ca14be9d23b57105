import TraceArchive.Proofs.Ingest.Coverage
import TraceArchive.Proofs.Ingest.Failing

set_option autoImplicit false

/-!
Recording the names of a report on any store. The parents of the report are looked up one after the
other as far as to an id that is not stored or was met before, each id once, whatever circles are
stored. What is listed afterwards is what was listed before and what the report and the spans that
were found tell.
-/

namespace TraceArchive

/-- A service is on an endpoint of the report, and the report has a name; service and name are
meant as they are cleansed. -/
def Report.NamesFor (r : Report) (service name : String) : Prop :=
  (∃ e, ((∃ x ∈ r.events, x.endpoint = some e) ∨ ∃ t ∈ r.tags, t.endpoint = some e)
      ∧ cleanse e.service = some service)
    ∧ ∃ spelled, r.name = some spelled ∧ cleanse spelled = some name

theorem Report.mem_indexEntries_iff_namesFor {r : Report} {service name : String} :
    (service, name) ∈ r.indexEntries ↔ r.NamesFor service name := by
  rw [mem_indexEntries, mem_indexServices, mem_services, indexName?, Option.bind_eq_some_iff,
    NamesFor, and_comm]
  simp only [mem_endpoints]

namespace SpanMap

/-- The parent of the span that is stored under an id. -/
def parentOf? (m : SpanMap) (traceId : TraceId) (id : UInt64) : Option UInt64 :=
  (m.get? ⟨traceId, id⟩).bind (·.parentId)

/-- The ids that are looked up for the ancestors of a report, in this order. -/
def lookedUp (m : SpanMap) (r : Report) : List UInt64 :=
  followNew (m.parentOf? r.traceId) (m.size + 1) [r.id] r.parentId

variable {m : SpanMap} {traceId : TraceId} {id : UInt64} {stored : Report}

theorem parentOf?_of_stored (h : m.get? ⟨traceId, id⟩ = some stored) :
    m.parentOf? traceId id = stored.parentId := by
  rw [parentOf?, h, Option.bind_some]

theorem parentOf?_of_not_stored (h : m.get? ⟨traceId, id⟩ = none) :
    m.parentOf? traceId id = none := by
  rw [parentOf?, h, Option.bind_none]

theorem climb_eq (limit : Nat) (met : List UInt64) (next : Option UInt64) :
    m.climb traceId limit met next
      = (followNew (m.parentOf? traceId) limit met next).filterMap
          fun id => m.get? ⟨traceId, id⟩ := by
  induction limit generalizing met next with
  | zero => rfl
  | succ limit ih =>
    cases next with
    | none => rfl
    | some id =>
      rw [climb, followNew]
      split
      · rfl
      · cases hstored : m.get? ⟨traceId, id⟩ with
        | none => simp [parentOf?_of_not_stored hstored, hstored]
        | some stored =>
          simp only [List.filterMap_cons, hstored, parentOf?_of_stored hstored, ih]

theorem ancestors_eq (m : SpanMap) (r : Report) :
    m.ancestors r = (m.lookedUp r).filterMap fun id => m.get? ⟨r.traceId, id⟩ :=
  climb_eq _ _ _

/-- The walk is bounded by the number of stored spans, but that is not where it stops. -/
theorem metOnce_lookedUp (m : SpanMap) (r : Report) :
    MetOnce (m.parentOf? r.traceId) [r.id] r.parentId (m.lookedUp r) := by
  -- Only the ids of stored spans have parents.
  apply metOnce_followNew ((m.traces.values.flatMap (·.entries)).map (·.1.id))
  · intro id hid
    obtain ⟨parent, hparent⟩ := Option.isSome_iff_exists.1 hid
    obtain ⟨stored, hstored, -⟩ := Option.bind_eq_some_iff.1 hparent
    exact List.mem_map.2 ⟨_, mem_entries_of_get? hstored, rfl⟩
  · apply Nat.lt_succ_of_le
    apply Nat.le_trans (List.length_filter_le _ _)
    rw [List.length_map]
    exact Nat.le_refl m.size

/-- Two spans, each the parent of the other one. -/
def circle : SpanMap :=
  ofReports [
    { traceId := ⟨0, 9⟩
      id := 1
      parentId := some 2
      name := some "get"
      events := [{ timestamp := 5, value := "sr", endpoint := some { service := "Web " } }] },
    { traceId := ⟨0, 9⟩
      id := 2
      parentId := some 1
      name := some "query"
      tags := [.ofText "path" "/" (some { service := "db" })] }]

/-- A circle above a report is gone round once, and left before it comes back to a report on it. -/
example : circle.lookedUp { traceId := ⟨0, 9⟩, id := 3, parentId := some 1 } = [1, 2]
    ∧ circle.lookedUp { traceId := ⟨0, 9⟩, id := 1, parentId := some 2 } = [2]
    ∧ circle.lookedUp { traceId := ⟨0, 9⟩, id := 1, parentId := some 1 } = []
    ∧ circle.lookedUp { traceId := ⟨1, 9⟩, id := 3, parentId := some 1 } = [1] := by
  decide +kernel

end SpanMap

namespace Session

theorem leaves_getReport (k : Key) (s : Store) :
    (getReport k).Leaves s (fun found s' => found = s.spans.get? k ∧ s'.spans = s.spans)
      fun s' => s'.spans = s.spans := by
  apply (keepsSpans_call _ s).bind
  intro _ s' hs'
  refine ⟨?_, hs'⟩
  show s'.spans.get? k = s.spans.get? k
  rw [hs']

/-- Looks up one span, and records its names if it is stored. -/
def recordStored (k : Key) : Session Unit := do
  match ← getReport k with
  | none => pure ()
  | some stored => recordNames stored

/-- The walk looks up one id after the other, and halts where one of the look-ups or of the
recordings halts. -/
theorem run_recordAncestors (traceId : TraceId) (limit : Nat) (met : List UInt64)
    (next : Option UInt64) (s : Store) :
    (recordAncestors traceId limit met next).run s
      = ((followNew (s.spans.parentOf? traceId) limit met next).forM
          fun id => recordStored ⟨traceId, id⟩).run s := by
  induction limit generalizing met next s with
  | zero => rfl
  | succ limit ih =>
    cases next with
    | none => rfl
    | some id =>
      rw [recordAncestors, followNew]
      split
      · rfl
      · rw [List.forM, recordStored, bind_assoc]
        apply Leaves.run_bind_congr
        apply (leaves_getReport ⟨traceId, id⟩ s).mono _ fun _ h => h
        rintro found s' ⟨rfl, hs'⟩
        cases hstored : s.spans.get? ⟨traceId, id⟩ with
        | none =>
          rw [SpanMap.parentOf?_of_not_stored hstored, followNew_none]
          rfl
        | some stored =>
          apply Leaves.run_bind_congr
          apply (keepsSpans_recordNames stored s').mono _ fun _ h => h
          intro _ s'' hs''
          rw [SpanMap.parentOf?_of_stored hstored, ih, hs'', hs']

theorem run_index (r : Report) (s : Store) :
    (index r).run s = (do
      recordNames r
      (s.spans.lookedUp r).forM fun id => recordStored ⟨r.traceId, id⟩ : Session Unit).run s := by
  apply Leaves.run_bind_congr
  apply (keepsSpans_recordNames r s).mono _ fun _ h => h
  intro _ s' hs'
  rw [run_bind]
  show (recordAncestors r.traceId (s'.spans.size + 1) [r.id] r.parentId).run s' = _
  rw [run_recordAncestors, hs']
  rfl

/-- Whatever is stored, recording a report follows the parents from it to the only place where an id
is not stored or comes again, and no further. It is the same as to look up these ids once each, one
after the other. If nothing fails it comes to its end, and what is listed then and was not listed
before is exactly what the report and the stored spans of these ids tell. -/
theorem index_lookedUp (spans : SpanMap) (services : ServiceIndex) (a : Arrangement Predicate)
    (r : Report) :
    (∀ ids, MetOnce (spans.parentOf? r.traceId) [r.id] r.parentId ids ↔ ids = spans.lookedUp r)
      ∧ (spans.lookedUp r).length ≤ spans.size + 1
      ∧ (∀ outages, (index r).run ⟨spans, services, a, outages⟩ = (do
          recordNames r
          (spans.lookedUp r).forM fun id => recordStored ⟨r.traceId, id⟩ : Session Unit).run
            ⟨spans, services, a, outages⟩)
      ∧ ∃ listed, (index r).run ⟨spans, services, a, []⟩ = (.ok (), ⟨spans, listed, a, []⟩)
        ∧ ∀ service name, name ∈ listed.get service ↔ name ∈ services.get service
          ∨ r.NamesFor service name
          ∨ ∃ id ∈ spans.lookedUp r, ∃ stored, spans.get? ⟨r.traceId, id⟩ = some stored
            ∧ stored.NamesFor service name := by
  have hwalk := spans.metOnce_lookedUp r
  refine ⟨?_, length_followNew_le _, fun outages => run_index r _, _, yields_index r rfl, ?_⟩
  · intro ids
    constructor
    · exact fun h => hwalk.unique h
    · rintro rfl
      exact hwalk
  · intro service name
    rw [ServiceIndex.mem_get_recordAll, SpanMap.indexEntries, List.flatMap_cons, List.mem_append,
      SpanMap.ancestors_eq, List.mem_flatMap]
    simp only [List.mem_filterMap, Report.mem_indexEntries_iff_namesFor]
    refine or_congr_right (or_congr_right ⟨?_, ?_⟩)
    · rintro ⟨stored, ⟨id, hid, hstored⟩, hentry⟩
      exact ⟨id, hid, stored, hstored, hentry⟩
    · rintro ⟨id, hid, stored, hstored, hentry⟩
      exact ⟨stored, ⟨id, hid, hstored⟩, hentry⟩

/-- A span below two spans that are each the parent of the other one. -/
def belowCircle : Report where
  traceId := ⟨0, 9⟩
  id := 3
  parentId := some 1
  name := some "render"
  events := [{ timestamp := 6, value := "cs", endpoint := some { service := "app" } }]

/-- Both spans on the circle are looked up once, and recorded with the span below it. -/
theorem index_lookedUp_circle :
    SpanMap.circle.lookedUp belowCircle = [1, 2]
      ∧ ∃ listed, (index belowCircle).run { spans := SpanMap.circle }
          = (.ok (), { spans := SpanMap.circle, services := listed })
        ∧ listed.services.entries.map (fun e => (e.1, e.2.toList))
          = [("app", ["render"]), ("db", ["query"]), ("web", ["get"])] := by
  obtain ⟨-, -, -, listed, hrun, -⟩ :=
    index_lookedUp SpanMap.circle .empty .asFound belowCircle
  refine ⟨by decide +kernel, listed, hrun, ?_⟩
  obtain rfl : ((index belowCircle).run { spans := SpanMap.circle }).2.services = listed :=
    congrArg (·.2.services) hrun
  decide +kernel

end Session

end TraceArchive
