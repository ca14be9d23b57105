import TraceArchive.Proofs.Report.Parts

set_option autoImplicit false

/-!
Reports of a call by one of its two sides. All of such a report is on one host, so it has a single
span, and the report of that span tells everything again.
-/

namespace TraceArchive.Report

/-- The report of one side of a call, from its start to its end, by the host of that side. Besides
what happened on the host there may be a flag for the other end. -/
structure OneSided (r : Report) (k : Span.Kind) (e : Endpoint) (start finish : UInt64) : Prop where
  normal : r.Normal
  events : ∀ x ∈ r.events, x.endpoint = some e
  texts : ∀ t ∈ r.texts, t.endpoint = some e
  started : r.occurrences k.start = [k.start.event ⟨start, e⟩]
  finished : r.occurrences k.finish = [k.finish.event ⟨finish, e⟩]
  side : ∀ core, sideOf core ≠ k → r.occurrences core = []
  ahead : start < finish
  timestamp : r.timestamp = some start
  duration : r.duration = some (finish - start)
  keys : (r.texts.map (·.key)).Nodup
  component : ∀ t ∈ r.texts, ¬(t.key = "lc" ∧ t.text? = some "")
  flags : r.flags = [] ∨ ∃ remote : Endpoint, remote.service ≠ e.service
    ∧ r.flags = [Tag.address k.remoteFlag remote]

/-- The moments of one side of a call. -/
def sideMoment? (k : Span.Kind) (start finish : Moment) (core : CoreEvent) : Option Moment :=
  if core = k.start then some start else if core = k.finish then some finish else none

theorem sideMoment?_eq_some_iff {k : Span.Kind} {start finish m : Moment} {core : CoreEvent} :
    sideMoment? k start finish core = some m
      ↔ (core = k.start ∧ m = start) ∨ (core = k.finish ∧ m = finish) := by
  cases k <;> cases core <;> simp [sideMoment?, Span.Kind.start, Span.Kind.finish, eq_comm]

namespace OneSided

variable {r : Report} {k : Span.Kind} {e : Endpoint} {start finish : UInt64}
  (h : r.OneSided k e start finish)

include h

theorem happened : r.Happened (sideMoment? k ⟨start, e⟩ ⟨finish, e⟩) := by
  intro core
  by_cases hcore : sideOf core = k
  · rcases Span.Kind.eq_start_or_finish hcore with rfl | rfl
    · rw [h.started, sideMoment?_eq_some_iff.2 (.inl ⟨rfl, rfl⟩)]
      rfl
    · rw [h.finished, sideMoment?_eq_some_iff.2 (.inr ⟨rfl, rfl⟩)]
      rfl
  · have : sideMoment? k ⟨start, e⟩ ⟨finish, e⟩ core = none := by
      rw [Option.eq_none_iff_forall_ne_some]
      intro m hm
      rcases sideMoment?_eq_some_iff.1 hm with ⟨rfl, -⟩ | ⟨rfl, -⟩ <;> simp at hcore
    rw [h.side core hcore, this]
    rfl

theorem call_eq : r.call = .oneSided ⟨start, e⟩ ⟨finish, e⟩ := by
  simp only [call, h.happened.moment?_eq]
  cases k <;> rfl

theorem call_ne : r.call ≠ .incomplete := by
  rw [h.call_eq]
  exact Call.noConfusion

theorem mem_reporters_iff {f : Endpoint} : f ∈ r.reporters ↔ some e = some f := by
  rw [Report.mem_reporters_iff]
  constructor
  · rintro (⟨x, hx, hf⟩ | ⟨t, ht, hf⟩)
    · rw [← hf, h.events x hx]
    · rw [← hf, h.texts t ht]
  · intro hf
    refine .inl ⟨k.start.event ⟨start, e⟩, ?_, hf⟩
    exact h.happened.mem_events_iff.2 (sideMoment?_eq_some_iff.2 (.inl ⟨rfl, rfl⟩))

theorem hosted : r.Hosted where
  normal := h.normal
  events x hx := by rw [h.events x hx, Option.isSome_some]
  texts t ht := by rw [h.texts t ht, Option.isSome_some]
  service a ha b hb _ :=
    Option.some.inj ((h.mem_reporters_iff.1 ha).symm.trans (h.mem_reporters_iff.1 hb))
  keys := by
    apply List.Nodup.of_map Prod.snd
    rw [List.map_map]
    exact h.keys
  component := h.component

/-- All that the report tells happened in one place. -/
theorem homes_eq : r.homes = [⟨some e, true⟩] := by
  rw [homes, hosts_eq h.call_ne, onePerService_eq_toList fun f => h.mem_reporters_iff,
    Home.ofHosts_toList]

theorem loopback?_eq : r.loopback? = none := by
  simp only [loopback?, h.call_eq]

theorem kindAt_eq : r.kindAt ⟨some e, true⟩ = some k := by
  apply h.happened.kindAt_eq
  intro k'
  constructor
  · rintro ⟨core, m, hm, -, rfl⟩
    rcases sideMoment?_eq_some_iff.1 hm with ⟨rfl, -⟩ | ⟨rfl, -⟩ <;> simp
  · intro hk
    obtain rfl := Option.some.inj hk
    refine ⟨k.start, ⟨start, e⟩, ?_, Home.holds_self _, k.sideOf_start⟩
    exact sideMoment?_eq_some_iff.2 (.inl ⟨rfl, rfl⟩)

theorem sideAt_eq : r.sideAt ⟨some e, true⟩ = .ofCall k start finish false := by
  simp only [sideAt, h.call_eq, h.kindAt_eq, Home.holds_self, if_true,
    timed_eq h.timestamp h.duration]
  rfl

theorem start_ne_zero : start ≠ 0 := by
  intro hzero
  apply h.normal.timestamp
  rw [h.timestamp, hzero]

theorem shows_spanAt : (r.spanAt ⟨some e, true⟩).Shows k e start finish :=
  h.hosted.shows_spanAt h.call_ne rfl (h.mem_reporters_iff.2 rfl) h.sideAt_eq h.start_ne_zero
    h.ahead

/-- The remote endpoint is the one that is flagged. -/
theorem address_mem_flags_iff {remote : Endpoint} : Tag.address k.remoteFlag remote ∈ r.flags
    ↔ r.remoteAt ⟨some e, true⟩ = some remote := by
  have hmoment : ∀ k' m', r.moment? k'.start = some m' ↔ k' = k ∧ m' = ⟨start, e⟩ := by
    intro k' m'
    rw [h.happened.moment?_eq, sideMoment?_eq_some_iff]
    cases k <;> cases k' <;> simp [Span.Kind.start, Span.Kind.finish]
  rcases h.flags with hflags | ⟨remote', hservice, hflags⟩
  · have : r.remoteAt ⟨some e, true⟩ ≠ some remote := by
      intro hremote
      obtain ⟨k', m, -, -, hflag⟩ := exists_start_of_remoteAt h.call_ne hremote
      simp [flagged?_eq, hflags] at hflag
    simp [hflags, this]
  · have hflag : r.flagged? k.remoteFlag = some remote' := by
      simp [flagged?_eq, hflags, Tag.address]
    have hremote := remoteAt_eq_some h.call_ne ((hmoment k _).2 ⟨rfl, rfl⟩)
      (Home.holds_self (some e)) hflag hservice fun k' m' hm' _ => ((hmoment k' m').1 hm').1
    simp [hflags, hremote, Tag.address, eq_comm]

theorem event_mem_iff {core : CoreEvent} {m : Moment} : core.event m ∈ r.events
    ↔ (core = k.start ∧ m = ⟨start, e⟩) ∨ (core = k.finish ∧ m = ⟨finish, e⟩) :=
  h.happened.mem_events_iff.trans sideMoment?_eq_some_iff

theorem time_spanAt : (r.spanAt ⟨some e, true⟩).toReport.time = r.time := by
  rw [h.shows_spanAt.time_toReport (congrArg Side.shared h.sideAt_eq), time, h.timestamp,
    h.duration]

theorem fragment_spanAt : (r.spanAt ⟨some e, true⟩).toReport.Fragment r := by
  have hmem := h.mem_reporters_iff.2 rfl
  apply h.hosted.fragment_of_shows h.call_ne rfl hmem h.shows_spanAt
  · exact h.event_mem_iff.2 (.inl ⟨rfl, rfl⟩)
  · exact h.event_mem_iff.2 (.inr ⟨rfl, rfl⟩)
  · intro remote hremote
    exact mem_tags_iff.2 (.inr (h.address_mem_flags_iff.2 hremote))
  · exact .inr h.time_spanAt

theorem mem_events_spanAt {x : Event} (hx : x ∈ r.events) :
    x ∈ (r.spanAt ⟨some e, true⟩).toReport.events := by
  rw [Span.mem_events_toReport]
  cases hcore : x.core? with
  | none =>
    left
    rw [h.hosted.mem_otherEvents_iff h.call_ne rfl (h.mem_reporters_iff.2 rfl)]
    exact ⟨hx, hcore, h.events x hx⟩
  | some core =>
    right
    obtain ⟨m, rfl⟩ := Event.core?_eq_some_iff.1 hcore
    rw [h.shows_spanAt.mem_coreEvents]
    rcases h.event_mem_iff.1 hx with ⟨rfl, rfl⟩ | ⟨rfl, rfl⟩
    · exact .inl rfl
    · exact .inr rfl

theorem mem_tags_spanAt {t : Tag} (ht : t ∈ r.tags) :
    t ∈ (r.spanAt ⟨some e, true⟩).toReport.tags := by
  rw [Span.mem_tags_toReport]
  rcases mem_tags_iff.1 ht with ht | ht
  · left
    rw [h.hosted.mem_textTags_iff rfl (h.mem_reporters_iff.2 rfl)]
    exact ⟨ht, h.texts t ht⟩
  · right
    left
    rcases h.flags with hflags | ⟨remote, -, hflags⟩
    · simp [hflags] at ht
    · obtain rfl := List.mem_singleton.1 (hflags ▸ ht)
      exact h.shows_spanAt.mem_addressTags.2 ⟨remote, h.address_mem_flags_iff.1 ht, rfl⟩

/-- The single span of the report of one side of a call loses nothing of the report. -/
theorem toReport_toSpans : ∃ s, r.toSpans = [s] ∧ s.toReport = r := by
  refine ⟨_, toSpans_eq_singleton h.homes_eq h.loopback?_eq, ?_⟩
  apply h.fragment_spanAt.eq h.normal h.time_spanAt
  · exact fun _ hx => h.mem_events_spanAt hx
  · exact fun _ ht => h.mem_tags_spanAt ht

end OneSided

/-- The server's side of a call from a browser. The work starts in the instant in which the call is
received. -/
def answeredCall : Report where
  traceId := ⟨0, 1⟩
  id := 1
  name := some "get"
  timestamp := some 100
  duration := some 20
  events := [
    { timestamp := 90, value := "accept", endpoint := some { service := "web" } },
    { timestamp := 100, value := "sr", endpoint := some { service := "web" } },
    { timestamp := 100, value := "start", endpoint := some { service := "web" } },
    { timestamp := 120, value := "ss", endpoint := some { service := "web" } }]
  tags := [
    Tag.address "ca" { service := "browser" },
    Tag.ofText "path" "/items" (some { service := "web" })]

theorem oneSided_answeredCall : answeredCall.OneSided .server { service := "web" } 100 120 where
  normal := {
    events := by decide
    tags := by decide
    name := by
      intro name h
      obtain rfl := Option.some.inj h
      decide
    timestamp := by decide
    duration := by decide }
  events := by decide
  texts := by decide
  started := by decide
  finished := by decide
  side core := by cases core <;> decide
  ahead := by decide
  timestamp := rfl
  duration := by decide
  keys := by decide
  component := by decide
  flags := .inr ⟨{ service := "browser" }, by decide, by decide⟩

theorem toReport_toSpans_answeredCall :
    answeredCall.OneSided .server { service := "web" } 100 120
      ∧ ∃ s, answeredCall.toSpans = [s] ∧ s.toReport = answeredCall :=
  ⟨oneSided_answeredCall, oneSided_answeredCall.toReport_toSpans⟩

end TraceArchive.Report
