import TraceArchive.Proofs.Ingest
import TraceArchive.Search

set_option autoImplicit false

/-!
What the service index lists. Names are recorded from the reports as they come in, together with
those of the ancestors that are stored by then, so the name of a stored span is listed under a
service if one report tells both, or if the span is met from below after it was completed.
-/

namespace TraceArchive

/-- The services of a report are cleansed as they are, so all of them are indexed. -/
theorem Report.mem_indexServices {r : Report} {service : String} :
    service ∈ r.indexServices ↔ service ∈ r.services := by
  have hcleanse : ∀ s ∈ r.services.toList, cleanse s = some s := by
    intro s hs
    obtain ⟨e, -, he⟩ := mem_services.1 hs
    exact cleanse_of_cleanse he
  rw [indexServices, List.filterMap_congr hcleanse]
  exact iff_of_eq (congrArg (service ∈ ·) List.filterMap_some)

/-- The services of a stored span are those that its reports tell. -/
theorem SpanMap.exists_report_of_mem_indexServices {rs : List Report} {k : Key} {stored : Report}
    (hstored : (ofReports rs).get? k = some stored) {service : String}
    (hservice : service ∈ stored.indexServices) :
    ∃ r ∈ rs, r.key = k ∧ service ∈ r.indexServices := by
  simp only [Report.mem_indexServices] at hservice ⊢
  exact ((merges_ofReports rs k).mem_services hstored).1 hservice

/-- One of some reports that came in one after the other tells a name for a service, or one of its
ancestors as it was stored by then does. -/
def Recorded (rs : List Report) (e : String × String) : Prop :=
  ∃ before r, before ++ [r] <+: rs ∧ (e ∈ r.indexEntries
    ∨ ∃ ancestor, (SpanMap.ofReports (before ++ [r])).Ancestor r ancestor
      ∧ e ∈ ancestor.indexEntries)

namespace Session

variable {rs : List Report}

theorem mem_services_iff (a : Arrangement Predicate) {service name : String} :
    name ∈ (Store.ingestAll { arrangement := a } rs).services.get service
      ↔ Recorded rs (service, name) := by
  have hspans : ∀ rs, (Store.ingestAll { arrangement := a } rs).spans = .ofReports rs :=
    fun rs => ((accepted_empty a).ingestAll rs).spans
  have hnone : name ∉ ServiceIndex.empty.get service := by
    rw [ServiceIndex.get_empty]
    exact List.not_mem_nil
  rw [Store.mem_services_ingestAll, or_iff_right hnone]
  simp only [hspans, SpanMap.mem_indexEntries]
  rfl

/-- The names that a report tells for its own services are listed once it has come in. -/
theorem lists_of_mem {s : Store} {r : Report} (hr : r ∈ rs) :
    (s.ingestAll rs).services.Lists r := by
  rintro ⟨service, name⟩ he
  obtain ⟨before, after, rfl⟩ := List.append_of_mem hr
  rw [Store.mem_services_ingestAll]
  refine .inr ⟨before, r, ⟨after, by simp⟩, ?_⟩
  exact SpanMap.mem_indexEntries.2 (.inl he)

/-- Exactly the names that were recorded are listed, among them all that the reports told. So a
stored span is listed if its reports agree with it on its name as far as they tell a service. -/
theorem accept_lists (a : Arrangement Predicate) (batches : List (List Report)) :
    ∃ s : Store, (batches.forM accept).run { arrangement := a } = (.ok (), s)
      ∧ (∀ service name, name ∈ s.services.get service
          ↔ Recorded batches.flatten (service, name))
      ∧ (∀ r ∈ batches.flatten, s.services.Lists r)
      ∧ ∀ k stored, s.spans.get? k = some stored →
          (∀ r ∈ batches.flatten, r.key = k → r.indexServices ≠ [] →
            r.indexName? = stored.indexName?) →
          s.services.Lists stored := by
  refine ⟨_, yields_acceptAll batches rfl, fun _ _ => mem_services_iff a, ?_, ?_⟩
  · exact fun _ hr => lists_of_mem hr
  · rintro k stored hstored hagree ⟨service, name⟩ he
    rw [((accepted_empty a).ingestAll batches.flatten).spans, List.nil_append] at hstored
    obtain ⟨hname, hservice⟩ := Report.mem_indexEntries.1 he
    obtain ⟨r, hr, hk, hservice⟩ := SpanMap.exists_report_of_mem_indexServices hstored hservice
    have hagrees := hagree r hr hk (List.ne_nil_of_mem hservice)
    exact lists_of_mem hr (service, name)
      (Report.mem_indexEntries.2 ⟨hagrees.trans hname, hservice⟩)

/-- A report from a host that does not know the name of the span. -/
def hostOnly : Report where
  traceId := ⟨0, 1⟩
  id := 1
  timestamp := some 10
  events := [{ timestamp := 10, value := "sr", endpoint := some { service := "web" } }]

/-- A report of the same span that tells no host. -/
def nameOnly : Report where
  traceId := ⟨0, 1⟩
  id := 1
  name := some "get"
  timestamp := some 10

/-- A stored span with a name and a service that is not listed, since no report told both. -/
theorem not_lists_nameOnly :
    ∃ (s : Store) (stored : Report), (accept [hostOnly, nameOnly]).run {} = (.ok (), s)
      ∧ s.spans.get? hostOnly.key = some stored ∧ stored.indexEntries = [("web", "get")]
      ∧ ¬ s.services.Lists stored ∧ getServiceNames.run s = (.ok [], s)
      ∧ (getTraces true { endTs := 10, lookback := 10, limit := 10, service := some "web" }).run s
        = (.ok [], s) :=
  ⟨_, hostOnly.merge nameOnly, Prod.ext (by decide +kernel) rfl, by decide +kernel,
    by decide +kernel, by decide +kernel, Prod.ext (by decide +kernel) rfl,
    Prod.ext (by decide +kernel) rfl⟩

end Session

end TraceArchive
