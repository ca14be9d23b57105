import TraceArchive.Proofs.Report.Hosts
import TraceArchive.Proofs.Span.Building
import TraceArchive.Span.Report

set_option autoImplicit false

/-!
What the report of a span holds. All of it is on the local endpoint, the other end of a call apart:
the events and the tags of the span, the core events of its kind, and flags for the two ends.
-/

namespace TraceArchive.Span

/-- What a report can tell of a span. The kind is told by core events on the local endpoint, the
start first; the other end by the address flag that belongs to the kind. -/
structure Reportable (s : Span) : Prop where
  unshared : s.shared = false
  coreless : ∀ e ∈ s.events, e.value ∉ ["cs", "sr", "ss", "cr"]
  component : s.tags.get? "lc" ≠ some ""
  timed : s.duration.isSome → s.timestamp.isSome
  sided : s.kind.isSome → s.timestamp.isSome ∧ s.localEndpoint.isSome
  homed : s.remoteEndpoint.isSome → s.localEndpoint.isSome
  apart : s.kind.isSome → ∀ l ∈ s.localEndpoint, ∀ r ∈ s.remoteEndpoint, r.service ≠ l.service

/-- The flag for the other end of a call. -/
def Kind.remoteFlag : Kind → String
  | .client => Tag.serverAddress
  | .server => Tag.clientAddress

/-- The core event by which a report tells the kind. -/
def kindEvent (s : Span) (core : CoreEvent) (t : UInt64) : Event :=
  { timestamp := t, value := core.name, endpoint := s.localEndpoint }

theorem core?_kindEvent {s : Span} {core core' : CoreEvent} {t : UInt64} :
    (s.kindEvent core' t).core? = some core ↔ s.localEndpoint.isSome ∧ core' = core := by
  have : CoreEvent.ofName? core'.name = some core' := CoreEvent.ofName?_eq_some_iff.2 rfl
  simp [Event.core?, kindEvent, this]

/-- No event of the span has the name of a core event, so all core events of its report come from
its kind. -/
def CoreFree (s : Span) : Prop := ∀ e ∈ s.events, CoreEvent.ofName? e.value = none

theorem Reportable.coreFree {s : Span} (h : s.Reportable) : s.CoreFree := by
  intro e he
  rw [Option.eq_none_iff_forall_ne_some]
  intro c hc
  have hname := CoreEvent.ofName?_eq_some_iff.1 hc
  apply h.coreless e he
  rw [hname]
  cases c <;> simp [CoreEvent.name]

theorem mem_events_toReport {s : Span} {e : Event} :
    e ∈ s.toReport.events ↔ e ∈ s.otherEvents ∨ e ∈ s.coreEvents := by
  rw [← List.mem_append]
  exact Report.mem_events_tidy

section

variable {s : Span} (hs : s.Normal) (h : s.CoreFree)

include hs in
theorem startTime_ne_zero_iff : s.startTime ≠ 0 ↔ s.timestamp.isSome := by
  have := hs.timestamp
  cases ht : s.timestamp <;> simp_all [startTime]

include hs in
theorem elapsed_ne_zero_iff : s.elapsed ≠ 0 ↔ s.duration.isSome := by
  have := hs.duration
  cases hd : s.duration <;> simp_all [elapsed]

include hs in
theorem timestamp_toReport (hown : s.ownsTime = true) : s.toReport.timestamp = s.timestamp := by
  have hstart := startTime_ne_zero_iff hs
  simp only [toReport, Report.tidy, hown]
  cases ht : s.timestamp <;> simp_all [startTime, timestamp?]

include hs in
theorem duration_toReport (hown : s.ownsTime = true)
    (htimed : s.duration.isSome → s.timestamp.isSome) : s.toReport.duration = s.duration := by
  have hstart := startTime_ne_zero_iff hs
  have helapsed := elapsed_ne_zero_iff hs
  simp only [toReport, Report.tidy, hown]
  cases hd : s.duration <;> simp_all [elapsed]

include h

theorem coreEvent?_eq (core : CoreEvent) :
    s.coreEvent? core = (s.kindTime? core).map (s.kindEvent core) := by
  have : (s.events.filter fun e => e.value == core.name) = [] := by
    apply List.filter_eq_nil_iff.2
    intro e he hv
    have := h e he
    rw [CoreEvent.ofName?_eq_some_iff.2 (beq_iff_eq.1 hv)] at this
    cases this
  simp only [coreEvent?, this, List.getLast?_nil]
  rfl

theorem mem_coreEvents {e : Event} :
    e ∈ s.coreEvents ↔ ∃ core t, s.kindTime? core = some t ∧ e = s.kindEvent core t := by
  simp only [coreEvents, List.mem_filterMap, coreEvent?_eq h, Option.map_eq_some_iff]
  constructor
  · rintro ⟨core, -, t, ht, rfl⟩
    exact ⟨core, t, ht, rfl⟩
  · rintro ⟨core, t, ht, rfl⟩
    exact ⟨core, by cases core <;> simp, t, ht, rfl⟩

include hs

omit h in
theorem bound_eq {e : Event} (he : e ∈ s.events) :
    s.bound e = { e with endpoint := s.localEndpoint } := by
  simp [bound, hs.hostless e he]

theorem mem_otherEvents {e : Event} :
    e ∈ s.otherEvents ↔ ∃ f ∈ s.events, e = { f with endpoint := s.localEndpoint } := by
  simp only [otherEvents, List.mem_map, List.mem_filter, Event.isCore]
  constructor
  · rintro ⟨f, ⟨hf, -⟩, rfl⟩
    exact ⟨f, hf, bound_eq hs hf⟩
  · rintro ⟨f, hf, rfl⟩
    exact ⟨f, ⟨hf, by simp [h f hf]⟩, bound_eq hs hf⟩

/-- The events of the report are those of the span and the core events of its kind. -/
theorem mem_events_toReport_iff {e : Event} :
    e ∈ s.toReport.events ↔ (∃ f ∈ s.events, e = { f with endpoint := s.localEndpoint })
      ∨ ∃ core t, s.kindTime? core = some t ∧ e = s.kindEvent core t := by
  rw [mem_events_toReport, mem_otherEvents hs h, mem_coreEvents h]

theorem endpoint_of_mem_events {e : Event} (he : e ∈ s.toReport.events) :
    e.endpoint = s.localEndpoint := by
  rcases (mem_events_toReport_iff hs h).1 he with ⟨f, -, rfl⟩ | ⟨core, t, -, rfl⟩ <;> rfl

omit hs in
theorem remoteFlag?_eq (hboth : s.isAddressOnly = false) :
    s.remoteFlag? = s.kind.map Kind.remoteFlag := by
  have : s.events.filterMap remoteFlag?.startFlag = [] := by
    apply List.filterMap_eq_nil_iff.2
    intro e he
    simp [remoteFlag?.startFlag, h e he]
  simp only [remoteFlag?, hboth, this, List.getLast?_nil, Bool.false_eq_true, if_false]
  congr

end

theorem Reportable.ownsTime {s : Span} (h : s.Reportable) : s.ownsTime = true := by
  simp [Span.ownsTime, h.unshared]

section

variable {s : Span} (hs : s.Normal) (h : s.Reportable)

include hs h

/-- The core event of a name happened exactly when the kind says so. -/
theorem moment?_toReport (core : CoreEvent) :
    s.toReport.moment? core
      = (s.kindTime? core).bind fun t => s.localEndpoint.map fun l => ⟨t, l⟩ := by
  apply getLast?_eq_of_mem_iff
  intro m
  simp only [List.mem_filterMap, Report.momentOf?, Option.bind_eq_some_iff]
  constructor
  · rintro ⟨e, he, hm⟩
    split at hm
    · next hcore =>
      rcases (mem_events_toReport_iff hs h.coreFree).1 he with ⟨f, hf, rfl⟩ | ⟨core', t, ht, rfl⟩
      · simp [Event.core?, h.coreFree f hf] at hcore
      · obtain ⟨-, rfl⟩ := core?_kindEvent.1 hcore
        exact ⟨t, ht, hm⟩
    · cases hm
  · rintro ⟨t, ht, hm⟩
    obtain ⟨l, hl, rfl⟩ := Option.map_eq_some_iff.1 hm
    have hmem := (mem_events_toReport_iff hs h.coreFree).2 (.inr ⟨core, t, ht, rfl⟩)
    refine ⟨s.kindEvent core t, hmem, ?_⟩
    rw [if_pos (core?_kindEvent.2 ⟨by simp [hl], rfl⟩)]
    simp [kindEvent, hl]

/-- The core events of a kind exist exactly for the kind of the span. -/
theorem kind_eq_some_iff {k : Kind} :
    s.kind = some k ↔ ∃ core t, s.kindTime? core = some t ∧ Report.sideOf core = k := by
  have hstart := startTime_ne_zero_iff hs
  constructor
  · intro hk
    have ht := hstart.2 (h.sided (by simp [hk])).1
    cases k with
    | client => exact ⟨.clientSend, s.startTime, by simp [kindTime?, hk, ht], rfl⟩
    | server => exact ⟨.serverReceive, s.startTime, by simp [kindTime?, hk, ht], rfl⟩
  · rintro ⟨core, t, ht, rfl⟩
    cases hk : s.kind with
    | none => cases core <;> simp [kindTime?, hk] at ht
    | some k => cases core <;> cases k <;> simp [kindTime?, hk, Report.sideOf] at ht ⊢

theorem isSome_localEndpoint_of_kindTime? {core : CoreEvent} {t : UInt64}
    (ht : s.kindTime? core = some t) : s.localEndpoint.isSome := by
  have hk := (kind_eq_some_iff hs h).2 ⟨core, t, ht, rfl⟩
  exact (h.sided (by rw [hk]; rfl)).2

theorem kindTime?_eq_none_iff : (∀ core, s.kindTime? core = none) ↔ s.kind = none := by
  rw [Option.eq_none_iff_forall_ne_some]
  simp only [Ne, kind_eq_some_iff hs h, Option.eq_none_iff_forall_ne_some]
  constructor
  · rintro hnone k ⟨core, t, ht, -⟩
    exact hnone core t ht
  · exact fun hnone core t ht => hnone (Report.sideOf core) ⟨core, t, ht, rfl⟩

theorem isAddressOnly_iff :
    s.isAddressOnly ↔ s.kind = none ∧ s.localEndpoint.isSome ∧ s.remoteEndpoint.isSome := by
  have : s.coreEvents.isEmpty ↔ s.kind = none := by
    rw [← kindTime?_eq_none_iff hs h, List.isEmpty_iff, List.eq_nil_iff_forall_not_mem]
    simp only [mem_coreEvents h.coreFree, Option.eq_none_iff_forall_ne_some]
    constructor
    · exact fun hnone core t ht => hnone _ ⟨core, t, ht, rfl⟩
    · rintro hnone e ⟨core, t, ht, -⟩
      exact hnone core t ht
  simp only [isAddressOnly, Bool.and_eq_true, this, and_assoc]

end

theorem mem_tags_toReport {s : Span} {t : Tag} :
    t ∈ s.toReport.tags ↔ t ∈ s.textTags ∨ t ∈ s.addressTags ∨ t ∈ s.hostTag := by
  rw [← or_assoc, ← List.mem_append, ← List.mem_append]
  exact Report.mem_tags_tidy

theorem mem_addressTags {s : Span} {t : Tag} :
    t ∈ s.addressTags ↔
      (s.isAddressOnly ∧ ∃ l, s.localEndpoint = some l ∧ t = Tag.address Tag.clientAddress l)
        ∨ ∃ flag r, s.remoteFlag? = some flag ∧ s.remoteEndpoint = some r
            ∧ t = Tag.address flag r := by
  rw [addressTags, List.mem_append]
  refine or_congr ?_ ?_
  · by_cases hboth : s.isAddressOnly = true
    · simp [hboth, eq_comm]
    · simp [hboth]
  · cases s.remoteFlag? <;> cases s.remoteEndpoint <;> simp

theorem isFlag_of_mem_addressTags {s : Span} {t : Tag} (ht : t ∈ s.addressTags) :
    t.isFlag = true := by
  rcases mem_addressTags.1 ht with ⟨-, l, -, rfl⟩ | ⟨flag, r, -, -, rfl⟩ <;> rfl

theorem eq_of_mem_hostTag {s : Span} {t : Tag} (ht : t ∈ s.hostTag) :
    t = Tag.ofText Tag.localComponent "" s.localEndpoint := by
  cases hl : s.localEndpoint with
  | none => simp [hostTag, hl] at ht
  | some l =>
    simp only [hostTag, hl] at ht
    split at ht
    · exact List.mem_singleton.1 ht
    · cases ht

/-- All tags but the address flags are texts on the local endpoint. -/
theorem text_of_mem_tags {s : Span} {t : Tag} (ht : t ∈ s.textTags ∨ t ∈ s.hostTag) :
    t.isFlag = false ∧ t.endpoint = s.localEndpoint := by
  rcases ht with ht | ht
  · obtain ⟨e, -, rfl⟩ := List.mem_map.1 ht
    exact ⟨rfl, rfl⟩
  · rw [eq_of_mem_hostTag ht]
    exact ⟨rfl, rfl⟩

/-- The endpoint that the address flag of a key marks. -/
def flagEnd? (s : Span) (key : String) : Option Endpoint :=
  if s.isAddressOnly ∧ key = Tag.clientAddress then s.localEndpoint
  else if s.remoteFlag? = some key then s.remoteEndpoint
  else none

theorem flagEnd?_of_isAddressOnly {s : Span} (hboth : s.isAddressOnly) :
    s.flagEnd? Tag.clientAddress = s.localEndpoint
      ∧ s.flagEnd? Tag.serverAddress = s.remoteEndpoint := by
  have hne : Tag.serverAddress ≠ Tag.clientAddress := by decide
  simp [flagEnd?, hboth, remoteFlag?, hne]

theorem flagEnd?_of_remote_eq_none {s : Span} (hr : s.remoteEndpoint = none) (key : String) :
    s.flagEnd? key = none := by
  have hboth : s.isAddressOnly = false := by simp [isAddressOnly, hr]
  simp [flagEnd?, hboth, hr]

theorem mem_flags_iff {s : Span} {t : Tag} {key : String} :
    t ∈ s.addressTags ∧ t.key = key ↔ (s.flagEnd? key).map (Tag.address key) = some t := by
  have hne : Tag.serverAddress ≠ Tag.clientAddress := by decide
  have hflag : s.isAddressOnly → s.remoteFlag? = some Tag.serverAddress := fun hboth => by
    simp [remoteFlag?, hboth]
  rw [mem_addressTags, flagEnd?]
  constructor
  · rintro ⟨⟨hboth, l, hl, rfl⟩ | ⟨flag, r, hr, hremote, rfl⟩, rfl⟩
    · simp [hboth, hl, Tag.address]
    · have : ¬ (s.isAddressOnly ∧ flag = Tag.clientAddress) := by
        rintro ⟨hboth, rfl⟩
        exact hne (Option.some.inj ((hflag hboth).symm.trans hr))
      simp [Tag.address, this, hr, hremote]
  · intro ht
    split at ht
    · next hboth =>
      obtain ⟨l, hl, rfl⟩ := Option.map_eq_some_iff.1 ht
      exact ⟨.inl ⟨hboth.1, l, hl, by rw [hboth.2]⟩, rfl⟩
    · split at ht
      · next hr =>
        obtain ⟨r, hremote, rfl⟩ := Option.map_eq_some_iff.1 ht
        exact ⟨.inr ⟨key, r, hr, hremote, rfl⟩, rfl⟩
      · cases ht

theorem flagged?_toReport {s : Span} (key : String) :
    s.toReport.flagged? key = s.flagEnd? key := by
  have : (s.toReport.tags.filter fun t => t.isFlag && t.key == key).getLast?
      = (s.flagEnd? key).map (Tag.address key) := by
    apply getLast?_eq_of_mem_iff
    intro t
    rw [← mem_flags_iff, List.mem_filter, mem_tags_toReport, Bool.and_eq_true, beq_iff_eq]
    constructor
    · rintro ⟨ht | ht | ht, hf, hk⟩
      · simp [(text_of_mem_tags (.inl ht)).1] at hf
      · exact ⟨ht, hk⟩
      · simp [(text_of_mem_tags (.inr ht)).1] at hf
    · rintro ⟨ht, hk⟩
      exact ⟨.inr (.inl ht), isFlag_of_mem_addressTags ht, hk⟩
  rw [Report.flagged?, this]
  cases s.flagEnd? key <;> rfl

end TraceArchive.Span
