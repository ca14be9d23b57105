import TraceArchive.Proofs.Ingest.Coverage
import TraceArchive.Proofs.SpanMap.Repeating

set_option autoImplicit false

/-!
A batch that is accepted once more. What is stored stays as it is. The names that are listed do not
always: they are recorded from the reports as they came in, so the first time a report may be
recorded before its stored ancestors are complete. Afterwards nothing is left to be recorded.
-/

namespace TraceArchive

namespace Session

variable {s : Store} {rs new again : List Report}

/-- Reports that are merged into the store already only have their names recorded. -/
theorem ingestAll_of_stored (h : ∀ r ∈ again, s.spans.upsert r.withTiming = s.spans) :
    s.ingestAll again
      = { s with services := s.services.recordAll (again.flatMap s.spans.indexEntries) } := by
  induction again generalizing s with
  | nil => rfl
  | cons r again ih =>
    have hr : s.ingest r
        = { s with services := s.services.recordAll (s.spans.indexEntries r) } := by
      simp only [Store.ingest, h r (by simp), SpanMap.indexEntries_withTiming]
    rw [Store.ingestAll, List.foldl_cons, ← Store.ingestAll, hr, List.flatMap_cons,
      ServiceIndex.recordAll_append]
    exact ih fun x hx => h x (List.mem_cons_of_mem _ hx)

theorem Accepted.upsert_again (h : Accepted s (rs ++ new)) (hroom : Report.ClockHasRoom new)
    {r : Report} (hr : r ∈ new) : s.spans.upsert r.withTiming = s.spans := by
  rw [h.spans, ← SpanMap.ofReports_concat]
  exact SpanMap.ofReports_append_again hroom (by simpa using hr)

theorem Accepted.ingestAll_again (h : Accepted s (rs ++ new)) (hroom : Report.ClockHasRoom new) :
    s.ingestAll new
      = { s with services := s.services.recordAll (new.flatMap s.spans.indexEntries) } :=
  ingestAll_of_stored fun _ hr => h.upsert_again hroom hr

theorem Accepted.ingestAll_thrice (h : Accepted s (rs ++ new)) (hroom : Report.ClockHasRoom new) :
    (s.ingestAll new).ingestAll new = s.ingestAll new := by
  rw [h.ingestAll_again hroom]
  apply Eq.trans (ingestAll_of_stored _)
  · rw [ServiceIndex.recordAll_again]
  · exact fun r hr => h.upsert_again hroom hr

/-- A batch that is accepted twice. What is stored is what was stored the first time, and what is
listed, too, if and only if every stored ancestor of a report of the batch was listed then with all
that it tells. A third time changes nothing at all. -/
theorem accept_twice (a : Arrangement Predicate) (batches : List (List Report))
    (b : List Report) (hroom : Report.ClockHasRoom b) :
    ∃ s once twice : Store, (batches.forM accept).run { arrangement := a } = (.ok (), s)
      ∧ (accept b).run s = (.ok (), once) ∧ (accept b).run once = (.ok (), twice)
      ∧ twice.spans = once.spans
      ∧ (twice.services = once.services
          ↔ ∀ r ∈ b, ∀ ancestor, once.spans.Ancestor r ancestor → once.services.Lists ancestor)
      ∧ (accept b).run twice = (.ok (), twice) := by
  obtain ⟨s, hrun, hs⟩ := (accepted_empty a).acceptAll batches
  have honce : Accepted (s.ingestAll b) ([] ++ batches.flatten ++ b) := hs.ingestAll b
  have htwice := honce.ingestAll_again hroom
  refine ⟨s, s.ingestAll b, (s.ingestAll b).ingestAll b, hrun, yields_accept b hs.sound,
    yields_accept b honce.sound, ?_, ?_, ?_⟩
  · rw [htwice]
  · rw [htwice, ServiceIndex.recordAll_eq_self_iff]
    constructor
    · intro h r hr ancestor hancestor e he
      apply h e
      exact List.mem_flatMap.2 ⟨r, hr, SpanMap.mem_indexEntries.2 (.inr ⟨ancestor, hancestor, he⟩)⟩
    · intro h e he
      obtain ⟨r, hr, he⟩ := List.mem_flatMap.1 he
      rcases SpanMap.mem_indexEntries.1 he with he | ⟨ancestor, hancestor, he⟩
      · exact lists_of_mem hr e he
      · exact h r hr ancestor hancestor e he
  · have hrun' := yields_accept b (honce.ingestAll b).sound
    rwa [honce.ingestAll_thrice hroom] at hrun'

/-- A call from a host to a span whose name comes in last. -/
def lateName : List Report :=
  [{ traceId := ⟨0, 1⟩
     id := 2
     parentId := some 1
     name := some "query"
     timestamp := some 10
     events := [{ timestamp := 10, value := "cs", endpoint := some { service := "db" } }] },
    hostOnly, nameOnly]

theorem accept_twice_lateName :
    Report.ClockHasRoom lateName
      ∧ ∃ s once twice : Store, ([].forM accept).run {} = (.ok (), s)
        ∧ (accept lateName).run s = (.ok (), once) ∧ (accept lateName).run once = (.ok (), twice)
        ∧ twice.spans = once.spans
        ∧ (twice.services = once.services ↔ ∀ r ∈ lateName, ∀ ancestor,
            once.spans.Ancestor r ancestor → once.services.Lists ancestor)
        ∧ (accept lateName).run twice = (.ok (), twice) := by
  have hroom : Report.ClockHasRoom lateName := by decide +kernel
  exact ⟨hroom, accept_twice .asFound [] lateName hroom⟩

/-- A batch that lists one more service when it is accepted a second time: its first report is
then recorded after the name of its parent has come in. -/
theorem names_accept_lateName :
    Report.ClockHasRoom lateName
      ∧ ∃ once twice : Store, (accept lateName).run {} = (.ok (), once)
        ∧ (accept lateName).run once = (.ok (), twice)
        ∧ (getServiceNames.run once).1 = .ok ["db"]
        ∧ (getServiceNames.run twice).1 = .ok ["db", "web"]
        ∧ ((getSpanNames "web").run once).1 = .ok []
        ∧ ((getSpanNames "web").run twice).1 = .ok ["get"] := by
  have hempty : Store.Sound {} := rfl
  refine ⟨by decide +kernel, _, _, yields_accept lateName hempty,
    yields_accept lateName (hempty.ingestAll lateName), ?_, ?_, ?_, ?_⟩ <;> decide +kernel

end Session

end TraceArchive
