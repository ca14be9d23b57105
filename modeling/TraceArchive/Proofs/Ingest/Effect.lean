import TraceArchive.Ingest
import TraceArchive.Proofs.ServiceIndex
import TraceArchive.Proofs.Session
import TraceArchive.Proofs.SpanMap.Ancestry
import TraceArchive.Proofs.SpanMap.Merging

set_option autoImplicit false

/-!
What ingest does to a store that does not fail. A report is merged into what is stored; then its
own name, as it was reported, and the names of its stored ancestors are recorded.
-/

namespace TraceArchive

/-- The services of a report, each with the name under which the report is found. -/
def Report.indexEntries (r : Report) : List (String × String) :=
  match r.indexName? with
  | none => []
  | some name => r.indexServices.map fun service => (service, name)

theorem Report.mem_indexEntries {r : Report} {service name : String} :
    (service, name) ∈ r.indexEntries ↔ r.indexName? = some name ∧ service ∈ r.indexServices := by
  unfold indexEntries
  cases r.indexName? with
  | none => simp
  | some name => simp [and_comm, eq_comm]

theorem Report.services_withTiming (r : Report) : r.withTiming.services = r.services := by
  apply SortedSet.ext_mem
  intro service
  simp [services, SortedSet.mem_ofList, endpoints]

theorem Report.indexEntries_withTiming (r : Report) :
    r.withTiming.indexEntries = r.indexEntries := by
  rw [indexEntries, indexName?, indexServices, name_withTiming, services_withTiming]
  rfl

/-- What is recorded for a report over what is stored. -/
def SpanMap.indexEntries (m : SpanMap) (r : Report) : List (String × String) :=
  (r :: m.ancestors r).flatMap Report.indexEntries

theorem SpanMap.mem_indexEntries {m : SpanMap} {r : Report} {e : String × String} :
    e ∈ m.indexEntries r
      ↔ e ∈ r.indexEntries ∨ ∃ ancestor, m.Ancestor r ancestor ∧ e ∈ ancestor.indexEntries := by
  rw [indexEntries, List.flatMap_cons, List.mem_append, List.mem_flatMap]
  simp only [mem_ancestors_iff]

theorem SpanMap.ancestors_withTiming (m : SpanMap) (r : Report) :
    m.ancestors r.withTiming = m.ancestors r := by
  obtain ⟨t, d, h⟩ := r.withTiming_eq
  rw [h]
  rfl

/-- Recording does not look at the times of a report. -/
@[simp] theorem SpanMap.indexEntries_withTiming (m : SpanMap) (r : Report) :
    m.indexEntries r.withTiming = m.indexEntries r := by
  rw [indexEntries, List.flatMap_cons, Report.indexEntries_withTiming, ancestors_withTiming]
  rfl

/-- All names that a report tells for its services are listed. -/
def ServiceIndex.Lists (x : ServiceIndex) (r : Report) : Prop :=
  ∀ e ∈ r.indexEntries, e.2 ∈ x.get e.1

instance (x : ServiceIndex) (r : Report) : Decidable (x.Lists r) :=
  inferInstanceAs (Decidable (∀ e ∈ r.indexEntries, e.2 ∈ (x.get e.1).toList))

/-- The store after one more report. -/
def Store.ingest (s : Store) (r : Report) : Store :=
  let spans := s.spans.upsert r.withTiming
  { s with spans, services := s.services.recordAll (spans.indexEntries r.withTiming) }

/-- The store after more reports. -/
def Store.ingestAll (s : Store) (rs : List Report) : Store := rs.foldl Store.ingest s

theorem Store.ingestAll_append (s : Store) (rs more : List Report) :
    s.ingestAll (rs ++ more) = (s.ingestAll rs).ingestAll more :=
  List.foldl_append

/-- What is stored does not depend on what is recorded. -/
theorem Store.spans_ingestAll (s : Store) (rs : List Report) :
    (s.ingestAll rs).spans = rs.foldl (fun m r => m.upsert r.withTiming) s.spans := by
  induction rs generalizing s with
  | nil => rfl
  | cons r rs ih => exact ih (s.ingest r)

theorem Store.Sound.ingestAll {s : Store} (hs : s.Sound) (rs : List Report) :
    (s.ingestAll rs).Sound := by
  induction rs generalizing s with
  | nil => exact hs
  | cons r rs ih => exact ih (s := s.ingest r) hs

/-- What is listed after reports came in was listed before or was recorded for one of them, over
what was stored when this one had come in. -/
theorem Store.mem_services_ingestAll {s : Store} {rs : List Report} {service name : String} :
    name ∈ (s.ingestAll rs).services.get service ↔ name ∈ s.services.get service
      ∨ ∃ before r, before ++ [r] <+: rs
        ∧ (service, name) ∈ (s.ingestAll (before ++ [r])).spans.indexEntries r := by
  induction rs using List.reverseRecOn with
  | nil => simp [ingestAll]
  | append_singleton rs r ih =>
    have hrecord : (s.ingestAll (rs ++ [r])).services = (s.ingestAll rs).services.recordAll
        ((s.ingestAll (rs ++ [r])).spans.indexEntries r) := by
      rw [ingestAll_append, ← SpanMap.indexEntries_withTiming]
      rfl
    rw [hrecord, ServiceIndex.mem_get_recordAll, ih, or_assoc]
    apply or_congr_right
    constructor
    · rintro (⟨before, x, hprefix, hmem⟩ | hmem)
      · exact ⟨before, x, hprefix.trans (List.prefix_append rs [r]), hmem⟩
      · exact ⟨rs, r, List.prefix_rfl, hmem⟩
    · rintro ⟨before, x, hprefix, hmem⟩
      rcases List.prefix_concat_iff.1 hprefix with heq | hprefix
      · obtain ⟨rfl, hx⟩ := List.append_inj' heq rfl
        obtain rfl := List.singleton_inj.1 hx
        exact .inr hmem
      · exact .inl ⟨before, x, hprefix, hmem⟩

namespace Session

theorem yields_recordName (service name : String) {s : Store} (hs : s.Sound) :
    (recordName service name).Yields s () { s with services := s.services.put service name } := by
  apply (yields_hasSpanName service name hs).bind
  cases h : s.services.contains service name with
  | true =>
    rw [ServiceIndex.put_eq_self (ServiceIndex.contains_iff.1 h)]
    exact yields_pure () s
  | false => exact yields_putSpanName service name hs

theorem yields_recordNames (r : Report) {s : Store} (hs : s.Sound) :
    (recordNames r).Yields s ()
      { s with services := s.services.recordAll r.indexEntries } := by
  have all : ∀ (name : String) (services : List String) {s : Store}, s.Sound →
      (services.forM (recordName · name)).Yields s ()
        { s with
          services := s.services.recordAll (services.map fun service => (service, name)) } := by
    intro name services
    induction services with
    | nil => exact fun {s} _ => yields_pure () s
    | cons service services ih => exact fun hs => (yields_recordName service name hs).bind (ih hs)
  unfold recordNames Report.indexEntries
  cases r.indexName? with
  | none => exact yields_pure () s
  | some name => exact all name r.indexServices hs

theorem yields_recordAncestors (traceId : TraceId) (limit : Nat) (met : List UInt64)
    (next : Option UInt64) {s : Store} (hs : s.Sound) :
    (recordAncestors traceId limit met next).Yields s () { s with
      services := s.services.recordAll
        ((s.spans.climb traceId limit met next).flatMap Report.indexEntries) } := by
  induction limit generalizing met next s with
  | zero => exact yields_pure () s
  | succ limit ih =>
    cases next with
    | none => exact yields_pure () s
    | some id =>
      rw [recordAncestors, SpanMap.climb]
      split
      · exact yields_pure () s
      · apply (yields_getReport _ hs).bind
        cases s.spans.get? ⟨traceId, id⟩ with
        | none => exact yields_pure () s
        | some ancestor =>
          rw [List.flatMap_cons, ServiceIndex.recordAll_append]
          exact (yields_recordNames ancestor hs).bind (ih _ _ hs)

theorem yields_index (r : Report) {s : Store} (hs : s.Sound) :
    (index r).Yields s ()
      { s with services := s.services.recordAll (s.spans.indexEntries r) } := by
  rw [SpanMap.indexEntries, List.flatMap_cons, ServiceIndex.recordAll_append]
  apply (yields_recordNames r hs).bind
  exact Yields.bind (x := get) rfl (yields_recordAncestors _ _ _ _ hs)

theorem yields_acceptReport (r : Report) {s : Store} (hs : s.Sound) :
    (acceptReport r).Yields s () (s.ingest r) := by
  have hindex : (index r.withTiming).Yields { s with spans := s.spans.upsert r.withTiming } ()
      (s.ingest r) := yields_index r.withTiming hs
  apply (yields_putReportIfAbsent r.withTiming.key r.withTiming hs).bind
  rw [SpanMap.upsert] at hindex
  cases hstored : s.spans.get? r.withTiming.key with
  | some stored =>
    rw [hstored] at hindex
    have hkeep : s.spans.putIfAbsent r.withTiming.key r.withTiming = s.spans := by
      simp [SpanMap.putIfAbsent, hstored]
    rw [hkeep]
    exact (yields_putReport _ _ hs).bind hindex
  | none =>
    rw [hstored] at hindex
    have hnew : s.spans.putIfAbsent r.withTiming.key r.withTiming
        = s.spans.put r.withTiming.key r.withTiming := by
      simp [SpanMap.putIfAbsent, hstored]
    rw [hnew]
    exact hindex

theorem yields_accept (rs : List Report) {s : Store} (hs : s.Sound) :
    (accept rs).Yields s () (s.ingestAll rs) := by
  induction rs generalizing s with
  | nil => exact yields_pure () s
  | cons r rs ih => exact (yields_acceptReport r hs).bind (ih hs)

/-- The cuts between batches have no effect. -/
theorem yields_acceptAll (batches : List (List Report)) {s : Store} (hs : s.Sound) :
    (batches.forM accept).Yields s () (s.ingestAll batches.flatten) := by
  induction batches generalizing s with
  | nil => exact yields_pure () s
  | cons batch batches ih =>
    rw [List.flatten_cons, Store.ingestAll_append]
    exact (yields_accept batch hs).bind (ih (hs.ingestAll batch))

end Session

end TraceArchive
