import TraceArchive.Proofs.Span.Sides

set_option autoImplicit false

/-!
Which core events the report of a span tells: those that the span carries itself, and those of its
kind, the start where the span has a timestamp and the end where it has a duration.
-/

namespace TraceArchive

theorem CoreEvent.eq_of_name_eq {core core' : CoreEvent} (h : core.name = core'.name) :
    core = core' :=
  Option.some.inj ((ofName?_eq_some_iff.2 rfl).symm.trans (ofName?_eq_some_iff.2 h))

namespace Span

variable {s : Span} {core : CoreEvent}

/-- The report of the span has an event with the name of a core event. -/
def Tells (s : Span) (core : CoreEvent) : Prop := ∃ e ∈ s.toReport.events, e.value = core.name

theorem value_of_coreEvent? {e : Event} (h : s.coreEvent? core = some e) : e.value = core.name := by
  unfold coreEvent? at h
  split at h
  · next f hf =>
    have hmem := List.mem_filter.1 (List.mem_of_getLast? hf)
    rw [← Option.some.inj h]
    exact beq_iff_eq.1 hmem.2
  · obtain ⟨t, -, rfl⟩ := Option.map_eq_some_iff.1 h
    rfl

theorem isSome_coreEvent?_iff : (s.coreEvent? core).isSome
    ↔ (∃ e ∈ s.events, e.value = core.name) ∨ (s.kindTime? core).isSome := by
  have hown : (∃ e ∈ s.events, e.value = core.name)
      ↔ (s.events.filter fun e => e.value == core.name) ≠ [] := by
    simp [List.filter_eq_nil_iff]
  rw [hown]
  unfold coreEvent?
  split
  · next e he => simp [List.ne_nil_of_mem (List.mem_of_getLast? he)]
  · next he => simp [List.getLast?_eq_none_iff.1 he]

theorem tells_iff : s.Tells core
    ↔ (∃ e ∈ s.events, e.value = core.name) ∨ (s.kindTime? core).isSome := by
  rw [← isSome_coreEvent?_iff]
  constructor
  · rintro ⟨e, he, hv⟩
    rcases mem_events_toReport.1 he with he | he
    · obtain ⟨f, hf, rfl⟩ := List.mem_map.1 he
      have hcore := (List.mem_filter.1 hf).2
      have hname : CoreEvent.ofName? f.value = some core := CoreEvent.ofName?_eq_some_iff.2 hv
      simp [Event.isCore, hname] at hcore
    · obtain ⟨core', -, he⟩ := List.mem_filterMap.1 he
      rw [CoreEvent.eq_of_name_eq (hv.symm.trans (value_of_coreEvent? he)), he]
      rfl
  · intro h
    obtain ⟨e, he⟩ := Option.isSome_iff_exists.1 h
    refine ⟨e, mem_events_toReport.2 (.inr ?_), value_of_coreEvent? he⟩
    exact List.mem_filterMap.2 ⟨core, by cases core <;> simp, he⟩

/-- Merged reports of spans tell what any of the spans tells. -/
theorem exists_event_merged_iff {spans : List Span} {merged : Report}
    (h : Report.mergeAll? (spans.map toReport) = some merged) :
    (∃ e ∈ merged.events, e.value = core.name) ↔ ∃ s ∈ spans, s.Tells core := by
  simp only [Report.mem_events_mergeAll? h, List.mem_map, Tells]
  constructor
  · rintro ⟨e, ⟨_, ⟨s, hs, rfl⟩, he⟩, hv⟩
    exact ⟨s, hs, e, he, hv⟩
  · rintro ⟨s, hs, e, he, hv⟩
    exact ⟨e, ⟨_, ⟨s, hs, rfl⟩, he⟩, hv⟩

variable {k : Kind} (hs : s.Normal)

include hs

theorem isSome_kindTime?_start :
    (s.kindTime? k.start).isSome ↔ s.kind = some k ∧ s.timestamp.isSome := by
  have hstart := startTime_ne_zero_iff hs
  cases k <;> rcases hk : s.kind with _ | _ | _ <;> simp_all [kindTime?, Kind.start]

theorem isSome_kindTime?_finish :
    (s.kindTime? k.finish).isSome ↔ s.kind = some k ∧ s.duration.isSome := by
  have helapsed := elapsed_ne_zero_iff hs
  cases k <;> rcases hk : s.kind with _ | _ | _ <;> simp_all [kindTime?, Kind.finish]

end Span

end TraceArchive
