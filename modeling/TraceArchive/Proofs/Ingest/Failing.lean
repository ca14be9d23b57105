import TraceArchive.Proofs.Ingest
import TraceArchive.Proofs.Ingest.Recording
import TraceArchive.Proofs.SpanMap.Repeating

set_option autoImplicit false

/-!
Ingest into a storage that fails. Wherever the storage fails, the first reports of the batch are
stored by then and the others are not. Accepting the batch again brings what is stored to the same
state as if nothing had failed.
-/

namespace TraceArchive

namespace Session

variable {α : Type}

/-- The session leaves what is stored as it is, whether it comes to its end or not. -/
def KeepsSpans (session : Session α) : Prop :=
  ∀ s, session.Leaves s (fun _ s' => s'.spans = s.spans) fun s' => s'.spans = s.spans

theorem keepsSpans_of_maintains {session : Session α}
    (h : ∀ spans, session.Maintains (·.spans = spans) fun _ => True) : session.KeepsSpans :=
  fun s => (h s.spans s rfl).mono (fun _ _ hkept => hkept.2) fun _ hkept => hkept

/-- Whatever is recorded, it is not stored. -/
theorem admits_keeping (spans : SpanMap) : Admits (·.spans = spans) fun _ _ => True where
  outages _ _ hs := hs
  put _ _ _ _ hs := hs
  stored _ _ _ _ _ _ _ _ := trivial

theorem keepsSpans_call (op : Operation) : (call op).KeepsSpans :=
  keepsSpans_of_maintains fun spans => maintains_call op (admits_keeping spans).outages

theorem keepsSpans_recordNames (r : Report) : (recordNames r).KeepsSpans :=
  keepsSpans_of_maintains fun spans => (admits_keeping spans).recordNames fun _ _ _ => trivial

theorem keepsSpans_index (r : Report) : (index r).KeepsSpans :=
  keepsSpans_of_maintains fun spans => (admits_keeping spans).index fun _ _ _ => trivial

theorem leaves_putReportIfAbsent (k : Key) (r : Report) (s : Store) :
    (putReportIfAbsent k r).Leaves s
      (fun taken s' => taken = s.spans.get? k ∧ s'.spans = s.spans.putIfAbsent k r)
      fun s' => s'.spans = s.spans := by
  apply (keepsSpans_call _ s).bind
  intro _ s' hs'
  show s'.spans.get? k = _ ∧ s'.spans.putIfAbsent k r = _
  rw [hs']
  exact ⟨rfl, rfl⟩

theorem leaves_putReport (k : Key) (r : Report) (s : Store) :
    (putReport k r).Leaves s (fun _ s' => s'.spans = s.spans.put k r)
      fun s' => s'.spans = s.spans := by
  apply (keepsSpans_call _ s).bind
  intro _ s' hs'
  show s'.spans.put k r = _
  rw [hs']

/-- A report is stored as a whole, or nothing of it is. -/
theorem leaves_acceptReport (r : Report) (s : Store) :
    (acceptReport r).Leaves s (fun _ s' => s'.spans = s.spans.upsert r.withTiming)
      fun s' => s'.spans = s.spans ∨ s'.spans = s.spans.upsert r.withTiming := by
  have hindex : ∀ s', s'.spans = s.spans.upsert r.withTiming →
      (index r.withTiming).Leaves s' (fun _ s' => s'.spans = s.spans.upsert r.withTiming)
        fun s' => s'.spans = s.spans ∨ s'.spans = s.spans.upsert r.withTiming := by
    intro s' hs'
    rw [← hs']
    exact (keepsSpans_index r.withTiming s').mono (fun _ _ h => h) fun _ h => .inr h
  apply ((leaves_putReportIfAbsent r.withTiming.key r.withTiming s).mono (fun _ _ h => h)
    fun _ h => .inl h).bind
  rintro taken s' ⟨rfl, hs'⟩
  rw [SpanMap.upsert] at hindex ⊢
  cases hstored : s.spans.get? r.withTiming.key with
  | none =>
    rw [hstored] at hindex
    apply hindex s'
    rw [hs', SpanMap.putIfAbsent, hstored]
    rfl
  | some stored =>
    rw [hstored] at hindex
    rw [SpanMap.putIfAbsent, hstored] at hs'
    have hput := leaves_putReport r.withTiming.key (stored.merge r.withTiming) s'
    rw [show s'.spans = s.spans from hs'] at hput
    exact (hput.mono (fun _ _ h => h) fun _ h => .inl h).bind fun _ => hindex

/-- Wherever a batch halts, its first reports are stored and nothing of the others is. -/
theorem leaves_accept (rs : List Report) (s : Store) :
    (accept rs).Leaves s (fun _ s' => s'.spans = (s.ingestAll rs).spans)
      fun s' => ∃ k, s'.spans = (s.ingestAll (rs.take k)).spans := by
  simp only [Store.spans_ingestAll]
  induction rs generalizing s with
  | nil => exact rfl
  | cons r rs ih =>
    have hfirst : (acceptReport r).Leaves s (fun _ s' => s'.spans = s.spans.upsert r.withTiming)
        fun s' => ∃ k, s'.spans
          = ((r :: rs).take k).foldl (fun m r => m.upsert r.withTiming) s.spans := by
      apply (leaves_acceptReport r s).mono fun _ _ h => h
      rintro s' (hs' | hs')
      · exact ⟨0, hs'⟩
      · exact ⟨1, hs'⟩
    apply hfirst.bind
    intro _ s' hs'
    apply (ih s').mono
    · intro _ s'' h
      rw [h, hs']
      rfl
    · rintro s'' ⟨k, h⟩
      refine ⟨k + 1, ?_⟩
      rw [h, hs']
      rfl

theorem exists_take_of_accept {b : List Report} {answer : Except Halt Unit} {s s' : Store}
    (h : (accept b).run s = (answer, s')) : ∃ k, s'.spans = (s.ingestAll (b.take k)).spans := by
  have hleaves := leaves_accept b s
  rw [Leaves, h] at hleaves
  cases answer with
  | error halt => exact hleaves
  | ok _ => exact ⟨b.length, by rw [List.take_length]; exact hleaves⟩

/-- A batch that is accepted after some first reports of it were. What is stored is the same as
if the batch had been accepted once. Whatever fails while a batch is accepted leaves such first
reports behind, so to accept it again is enough. Only the times that the batch itself tells need
room; what was stored before may tell any. -/
theorem accept_retry (a : Arrangement Predicate) (batches : List (List Report))
    (b : List Report) (hroom : Report.ClockHasRoom b) :
    ∃ s once : Store, (batches.forM accept).run { arrangement := a } = (.ok (), s)
      ∧ (accept b).run s = (.ok (), once)
      ∧ (∀ k, ∃ part retried : Store, (accept (b.take k)).run s = (.ok (), part)
          ∧ (accept b).run part = (.ok (), retried) ∧ retried.spans = once.spans)
      ∧ ∀ outages answer left, (accept b).run { s with outages } = (answer, left) →
          ∃ (k : Nat) (part retried : Store), (accept (b.take k)).run s = (.ok (), part)
            ∧ left.spans = part.spans
            ∧ (accept b).run { left with outages := [] } = (.ok (), retried)
            ∧ retried.spans = once.spans := by
  obtain ⟨s, hrun, hs⟩ := (accepted_empty a).acceptAll batches
  have hretry : ∀ k, SpanMap.ofReports ([] ++ batches.flatten ++ b.take k ++ b)
      = (s.ingestAll b).spans := by
    intro k
    rw [(hs.ingestAll b).spans]
    exact SpanMap.ofReports_append_take hroom k
  refine ⟨s, s.ingestAll b, hrun, yields_accept b hs.sound, ?_, ?_⟩
  · intro k
    have hpart := hs.ingestAll (b.take k)
    refine ⟨_, _, yields_accept (b.take k) hs.sound, yields_accept b hpart.sound, ?_⟩
    rw [(hpart.ingestAll b).spans, hretry]
  · intro outages answer left hleft
    obtain ⟨k, hk⟩ := exists_take_of_accept hleft
    have hpart := hs.ingestAll (b.take k)
    have hspans : left.spans = (s.ingestAll (b.take k)).spans := by
      rw [hk, Store.spans_ingestAll, Store.spans_ingestAll]
    have hleft : Accepted { left with outages := [] } ([] ++ batches.flatten ++ b.take k) :=
      ⟨rfl, hspans.trans hpart.spans⟩
    refine ⟨k, _, _, yields_accept (b.take k) hs.sound, hspans,
      yields_accept b hleft.sound, ?_⟩
    rw [(hleft.ingestAll b).spans, hretry]

/-- Reports of one span. Each of them tells another part of its time. -/
def splitTime : List Report := [
  { traceId := ⟨0, 1⟩, id := 1, timestamp := some 6 },
  { traceId := ⟨0, 1⟩, id := 1, duration := some 3 },
  { traceId := ⟨0, 1⟩, id := 1, timestamp := some 5 }]

theorem accept_retry_splitTime :
    Report.ClockHasRoom splitTime
      ∧ ∃ s once : Store, ([].forM accept).run {} = (.ok (), s)
        ∧ (accept splitTime).run s = (.ok (), once)
        ∧ (∀ k, ∃ part retried : Store, (accept (splitTime.take k)).run s = (.ok (), part)
            ∧ (accept splitTime).run part = (.ok (), retried) ∧ retried.spans = once.spans)
        ∧ ∀ outages answer left, (accept splitTime).run { s with outages } = (answer, left) →
            ∃ (k : Nat) (part retried : Store),
              (accept (splitTime.take k)).run s = (.ok (), part) ∧ left.spans = part.spans
              ∧ (accept splitTime).run { left with outages := [] } = (.ok (), retried)
              ∧ retried.spans = once.spans := by
  have hroom : Report.ClockHasRoom splitTime := by decide +kernel
  exact ⟨hroom, accept_retry .asFound [] splitTime hroom⟩

end Session

end TraceArchive
