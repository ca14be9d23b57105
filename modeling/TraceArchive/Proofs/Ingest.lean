import TraceArchive.Proofs.Ingest.Effect

set_option autoImplicit false

/-!
Ingest. After any reports were accepted, there is one stored report for each key among theirs, and
it is what the reports of this key merge to. Recording names does not touch what is stored.
-/

namespace TraceArchive

namespace Session

/-- The store does not fail, and some reports were stored in it one after the other. -/
structure Accepted (s : Store) (rs : List Report) : Prop where
  sound : s.Sound
  spans : s.spans = .ofReports rs

theorem accepted_empty (a : Arrangement Predicate) : Accepted { arrangement := a } [] :=
  ⟨rfl, rfl⟩

theorem Accepted.holds {s : Store} {rs : List Report} (h : Accepted s rs) : s.spans.Holds rs := by
  rw [h.spans]
  exact SpanMap.holds_ofReports rs

theorem Accepted.merges {s : Store} {rs : List Report} (h : Accepted s rs) (k : Key) :
    s.spans.Merges rs k := by
  rw [h.spans]
  exact SpanMap.merges_ofReports rs k

theorem Accepted.ingest {s : Store} {rs : List Report} (h : Accepted s rs) (r : Report) :
    Accepted (s.ingest r) (rs ++ [r]) := by
  refine ⟨h.sound, ?_⟩
  rw [SpanMap.ofReports_concat, ← h.spans]
  rfl

theorem Accepted.ingestAll {s : Store} {rs : List Report} (h : Accepted s rs)
    (new : List Report) : Accepted (s.ingestAll new) (rs ++ new) := by
  induction new generalizing s rs with
  | nil => rwa [List.append_nil]
  | cons r new ih =>
    rw [List.append_cons]
    exact ih (h.ingest r)

/-- Any batches are accepted by a storage that does not fail. -/
theorem Accepted.acceptAll {s : Store} {rs : List Report} (h : Accepted s rs)
    (batches : List (List Report)) :
    ∃ s', (batches.forM Session.accept).Yields s () s' ∧ Accepted s' (rs ++ batches.flatten) :=
  ⟨_, yields_acceptAll batches h.sound, h.ingestAll batches.flatten⟩

/-- A stored report is the merge of exactly the reports of its key. Neither the reports of other
keys nor the cuts between batches have a part in it. -/
theorem merges_accept (a : Arrangement Predicate) (batches : List (List Report)) :
    ∃ s : Store, (batches.forM accept).run { arrangement := a } = (.ok (), s)
      ∧ (∀ k, s.spans.Merges batches.flatten k)
      ∧ ∀ (a' : Arrangement Predicate) (batches' : List (List Report)) (s' : Store) (k : Key),
        (batches'.forM accept).run { arrangement := a' } = (.ok (), s') →
        batches'.flatten.filter (·.key = k) = batches.flatten.filter (·.key = k) →
        s'.spans.get? k = s.spans.get? k := by
  obtain ⟨s, hrun, hs⟩ := (accepted_empty a).acceptAll batches
  rw [List.nil_append] at hs
  refine ⟨s, hrun, ?_, ?_⟩
  · intro k
    rw [hs.spans]
    exact SpanMap.merges_ofReports batches.flatten k
  · intro a' batches' s' k hrun' hown
    obtain ⟨s'', hrun'', hs''⟩ := (accepted_empty a').acceptAll batches'
    obtain rfl : s' = s'' := congrArg Prod.snd (hrun'.symm.trans hrun'')
    rw [List.nil_append] at hs''
    rw [hs.spans, hs''.spans, SpanMap.get?_ofReports, SpanMap.get?_ofReports, SpanMap.ownReports,
      SpanMap.ownReports, hown]

end Session

end TraceArchive
