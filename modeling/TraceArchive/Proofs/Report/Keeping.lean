import TraceArchive.Proofs.Report.Sides

set_option autoImplicit false

/-!
Which core events a report keeps when it is divided into spans and their reports are merged again.
A span has one kind, so of the core events on a service only those of one side can be told by it.
The side is that of the last core event, and it is shown where a call is known to start. The ends of
a call without its start stay events, but where one of them is on the service of a start, the start
is lost.
-/

namespace TraceArchive.Report

/-- Each core event is told at most once, on a known host and at a known time. -/
structure ToldOnce (r : Report) : Prop where
  normal : r.Normal
  once : ∀ core, (r.occurrences core).length ≤ 1
  placed : ∀ core, ∀ e ∈ r.occurrences core, e.endpoint.isSome ∧ e.timestamp ≠ 0

/-- When a core event is kept. Of an incomplete call the ends are, and a start with no end on its
service. Of any other call all are where a service called itself, and else those of a side that is
told last on the service of a start. -/
def Keeps (r : Report) (core : CoreEvent) : Prop :=
  match r.call with
  | .incomplete => ∀ k : Span.Kind, core = k.start → ∀ start ∈ r.moment? core,
      ∀ j : Span.Kind, ∀ finish ∈ r.moment? j.finish,
        finish.endpoint.service ≠ start.endpoint.service
  | _ => r.ownServer?.isSome ∨ ∃ k : Span.Kind, ∃ start ∈ r.moment? k.start,
      r.sideOn? start.endpoint.service = some (sideOf core)

theorem keeps_iff_of_call {r : Report} {core : CoreEvent} (hcall : r.call ≠ .incomplete) :
    r.Keeps core ↔ r.ownServer?.isSome ∨ ∃ k : Span.Kind, ∃ start ∈ r.moment? k.start,
      r.sideOn? start.endpoint.service = some (sideOf core) := by
  unfold Keeps
  split
  · contradiction
  · rfl

namespace ToldOnce

variable {r : Report} (h : r.ToldOnce)

include h

theorem happened : r.Happened r.moment? := by
  have hsome : ∀ core, ∃ m : Option Moment, r.occurrences core = m.toList.map core.event := by
    intro core
    have honce := h.once core
    have hplaced := h.placed core
    match hl : r.occurrences core with
    | [] => exact ⟨none, rfl⟩
    | [e] =>
      rw [hl] at hplaced
      obtain ⟨hhost, -⟩ := hplaced e (List.mem_singleton_self e)
      obtain ⟨endpoint, hend⟩ := Option.isSome_iff_exists.1 hhost
      have hvalue : e.value = core.name := by
        have hmem : e ∈ r.occurrences core := hl ▸ List.mem_singleton_self e
        exact of_decide_eq_true (List.mem_filter.1 hmem).2
      refine ⟨some ⟨e.timestamp, endpoint⟩, ?_⟩
      cases e
      simp_all [CoreEvent.event]
    | e :: f :: l => simp [hl] at honce
  choose moments hmoments using hsome
  have hall : r.Happened moments := hmoments
  rwa [funext hall.moment?_eq]

theorem exists_iff {core : CoreEvent} :
    (∃ e ∈ r.events, e.value = core.name) ↔ ∃ m, r.moment? core = some m := by
  have hocc : (∃ e ∈ r.events, e.value = core.name) ↔ ∃ e, e ∈ r.occurrences core := by
    simp [occurrences]
  rw [hocc, h.happened core]
  cases r.moment? core <;> simp

theorem timestamp_ne_zero {core : CoreEvent} {m : Moment} (hm : r.moment? core = some m) :
    m.timestamp ≠ 0 := by
  have hmem : core.event m ∈ r.occurrences core := by
    rw [h.happened core, hm]
    exact List.mem_singleton_self _
  exact (h.placed core _ hmem).2

section

variable {home : Home} {core : CoreEvent}

/-- The span of a home has only the ends of an incomplete call for core events of its own. -/
theorem exists_event_spanAt_iff : (∃ e ∈ (r.spanAt home).events, e.value = core.name)
    ↔ ∃ m, (core, m) ∈ r.looseAt home := by
  have hmem : ∀ e, e ∈ (r.spanAt home).events ↔ e ∈ r.eventsAt home := fun _ =>
    Ascending.mem_ofList
  simp only [hmem, eventsAt, List.mem_append, List.mem_map, List.mem_filter]
  constructor
  · rintro ⟨e, ⟨y, ⟨hy, hcore⟩, rfl⟩ | ⟨⟨core', m⟩, hm, rfl⟩, hv⟩
    · have hplaced : y.endpoint.isSome :=
        (h.placed core y (List.mem_filter.2 ⟨hy, decide_eq_true hv⟩)).1
      obtain ⟨hcore, -⟩ := Bool.and_eq_true_iff.1 hcore
      have hnone := Event.ofName?_eq_none (Option.isNone_iff_eq_none.1 hcore) hplaced
      cases hnone.symm.trans (CoreEvent.ofName?_eq_some_iff.2 hv)
    · obtain rfl := CoreEvent.eq_of_name_eq hv
      exact ⟨m, hm⟩
  · rintro ⟨m, hm⟩
    exact ⟨_, .inr ⟨(core, m), hm, rfl⟩, rfl⟩

theorem tells_spanAt_iff : (r.spanAt home).Tells core
    ↔ (∃ m, (core, m) ∈ r.looseAt home) ∨ ((r.spanAt home).kindTime? core).isSome := by
  rw [Span.tells_iff, h.exists_event_spanAt_iff]

/-! Calls that are not incomplete. -/

/-- The home of a start shows the side that is told last on it, with the end of that side only if
the side that starts has an end. -/
theorem exists_kindTime?_of_start (hcall : r.call ≠ .incomplete) (hown : r.ownServer? = none)
    {k : Span.Kind} {start : Moment} (hstart : r.moment? k.start = some start)
    (hside : r.sideOn? start.endpoint.service = some (sideOf core))
    (hfinish : core = (sideOf core).finish → (r.moment? k.finish).isSome) :
    ∃ home ∈ r.homes, ((r.spanAt home).kindTime? core).isSome := by
  obtain ⟨home, hmem, hsole⟩ := exists_homeOf (endpoint_mem_told (event_mem_of_moment? hstart))
  obtain ⟨hkind, htime, hduration⟩ :=
    sideAt_of_start h.normal hcall hown hstart (h.timestamp_ne_zero hstart)
      ((hsole home hmem).2 rfl)
  refine ⟨home, hmem, ?_⟩
  rcases eq_start_or_finish core with hcore | hcore
  · rw [hcore, isSome_kindTime?_spanAt_start]
    exact ⟨hkind.trans hside, htime⟩
  · have hfinish := hfinish hcore
    rw [hcore, isSome_kindTime?_spanAt_finish]
    exact ⟨hkind.trans hside, hduration hfinish⟩

/-- Beside a side without an end, a side is told last on the service of its own start. -/
theorem sideOn?_of_start (hown : r.ownServer? = none) {k j : Span.Kind} (hkj : k ≠ j)
    {start other : Moment} (hstart : r.moment? k.start = some start)
    (hfinish : r.moment? k.finish = none) (hother : r.moment? j.start = some other) :
    r.sideOn? other.endpoint.service = some j := by
  obtain ⟨i, hi⟩ := exists_sideOn? (event_mem_of_moment? hother)
  obtain ⟨core, m, hm, hservice, hcore⟩ := exists_event_of_sideOn? hi
  have hm := h.happened.mem_events_iff.1 hm
  suffices hij : i = j by rw [hi, hij]
  by_contra hij
  obtain rfl : i = k := by cases i <;> cases j <;> cases k <;> simp_all
  rcases Span.Kind.eq_start_or_finish hcore with rfl | rfl
  · obtain rfl : m = start := Option.some.inj (hm.symm.trans hstart)
    exact service_ne_of_start hown hkj hstart hother hservice
  · cases hfinish.symm.trans hm

/-- Where the service did not call itself, the sides that are told last on the services of the
starts are kept. -/
theorem exists_tells_iff_of_call (hcall : r.call ≠ .incomplete) (hown : r.ownServer? = none)
    (hcore : (r.moment? core).isSome) : (∃ home ∈ r.homes, (r.spanAt home).Tells core)
      ↔ ∃ k : Span.Kind, ∃ start ∈ r.moment? k.start,
        r.sideOn? start.endpoint.service = some (sideOf core) := by
  simp only [h.tells_spanAt_iff, looseAt_eq_nil hcall, List.not_mem_nil, exists_false, false_or]
  constructor
  · rintro ⟨home, -, htells⟩
    have hshown : (r.sideAt home).kind = some (sideOf core)
        ∧ ((r.sideAt home).timestamp.isSome ∨ (r.sideAt home).duration.isSome) := by
      rcases eq_start_or_finish core with hcore | hcore
      · rw [hcore, isSome_kindTime?_spanAt_start] at htells
        obtain ⟨hkind, t, -, ht⟩ := htells
        exact ⟨hkind, .inl (ht ▸ rfl)⟩
      · rw [hcore, isSome_kindTime?_spanAt_finish] at htells
        exact ⟨htells.1, .inr htells.2⟩
    have hhome : ∃ k : Span.Kind, ∃ start ∈ r.moment? k.start,
        home.service? = some start.endpoint.service := by
      by_contra hnone
      obtain ⟨htimestamp, hduration⟩ :=
        sideAt_untimed hcall fun k start hstart he => hnone ⟨k, start, hstart, he⟩
      rw [htimestamp, hduration] at hshown
      rcases hshown.2 with hsome | hsome <;> cases hsome
    obtain ⟨k, start, hstart, hhome⟩ := hhome
    refine ⟨k, start, hstart, ?_⟩
    rw [← (sideAt_of_start h.normal hcall hown hstart (h.timestamp_ne_zero hstart) hhome).1]
    exact hshown.1
  · rintro ⟨k, start, hstart, hside⟩
    by_cases hfinish : core = (sideOf core).finish → (r.moment? k.finish).isSome
    · exact h.exists_kindTime?_of_start hcall hown hstart hside hfinish
    -- The side that starts there has no end, so the end is shown where its own side starts.
    obtain ⟨hend, hfinish⟩ := Classical.not_imp.1 hfinish
    have hk : k ≠ sideOf core := by
      intro hk
      rw [hk, ← hend] at hfinish
      exact hfinish hcore
    cases hother : r.moment? (sideOf core).start with
    | none => exact absurd (isSome_finish_of_start hcall hk (hstart ▸ rfl) hother) hfinish
    | some other =>
      apply h.exists_kindTime?_of_start hcall hown hother
      · exact h.sideOn?_of_start hown hk hstart (Option.not_isSome_iff_eq_none.1 hfinish) hother
      · exact fun _ => hend ▸ hcore

/-- Where a service called itself, its home shows the client and a span of its own the server. -/
theorem exists_tells_of_ownServer? (hown : r.ownServer?.isSome) (hcore : (r.moment? core).isSome) :
    ∃ s ∈ r.toSpans, s.Tells core := by
  obtain ⟨send, receive, hcs, hsr, hsame⟩ := exists_of_ownServer? hown
  have hcall : r.call
      = .shared send receive (r.moment? .serverSend) (r.moment? .clientReceive) := by
    simp only [call, hcs, hsr]
  cases hk : sideOf core with
  | client =>
    obtain ⟨home, hmem, hsole⟩ := exists_homeOf (endpoint_mem_told (event_mem_of_moment? hcs))
    have hholds : home.holds (some send.endpoint) = true :=
      Home.holds_some_iff.2 ((hsole home hmem).2 rfl)
    have hside : r.sideAt home
        = r.timed { kind := some .client } send (r.moment? .clientReceive) := by
      simp [sideAt, hcall, hholds, Endpoint.sameService, hsame]
    refine ⟨_, mem_toSpans_iff.2 (.inl ⟨home, hmem, rfl⟩), h.tells_spanAt_iff.2 (.inr ?_)⟩
    rcases Span.Kind.eq_start_or_finish hk with rfl | rfl
    · rw [isSome_kindTime?_spanAt_start, hside, kind_timed]
      exact ⟨rfl, timestamp_timed h.normal (h.timestamp_ne_zero hcs) ..⟩
    · rw [isSome_kindTime?_spanAt_finish, hside, kind_timed]
      exact ⟨rfl, isSome_duration_timed _ _ hcore⟩
  | server =>
    have hloop : r.loopback? = some (r.toSpan (some receive.endpoint)
        (serverSide (some .server) receive (r.moment? .serverSend))) := by
      simp [loopback?, hcall, Endpoint.sameService, hsame]
    refine ⟨_, mem_toSpans_iff.2 (.inr hloop), Span.tells_iff.2 (.inr ?_)⟩
    rcases Span.Kind.eq_start_or_finish hk with rfl | rfl
    · rw [Span.isSome_kindTime?_start (normal_toSpan r _ _)]
      have hne := h.timestamp_ne_zero hsr
      simp [toSpan, serverSide, timestamp?, Option.filter, hne]
    · have hcore : (r.moment? .serverSend).isSome := hcore
      rw [Span.isSome_kindTime?_finish (normal_toSpan r _ _)]
      simp [toSpan, serverSide, duration?, hcore]

/-! Incomplete calls. -/

/-- Of an incomplete call the start is shown on its service, unless a side ends there. -/
theorem isSome_kindTime?_start_iff (hcall : r.call = .incomplete) {k : Span.Kind} :
    ((r.spanAt home).kindTime? k.start).isSome ↔ r.looseAt home = []
      ∧ ∃ start ∈ r.moment? k.start, home.service? = some start.endpoint.service := by
  have hside : r.sideAt home = r.incompleteSide home := by simp only [sideAt, hcall]
  rw [isSome_kindTime?_spanAt_start, hside, kind_incompleteSide, Option.ite_none_right_eq_some,
    List.isEmpty_iff]
  constructor
  · rintro ⟨⟨hempty, hkind⟩, -⟩
    refine ⟨hempty, ?_⟩
    obtain ⟨core, m, hm, hholds, hcore⟩ := exists_event_of_kindAt hkind
    have hm := h.happened.mem_events_iff.1 hm
    have hhome := Home.holds_some_iff.1 hholds
    rcases Span.Kind.eq_start_or_finish hcore with rfl | rfl
    · exact ⟨m, hm, hhome⟩
    · exact absurd hhome ((looseAt_eq_nil_iff hcall).1 hempty k m hm)
  · rintro ⟨hempty, start, hstart, hhome⟩
    have hkind : r.kindAt home = some k := by
      obtain ⟨i, hi⟩ := exists_sideOn? (event_mem_of_moment? hstart)
      obtain ⟨core, m, hm, hservice, hcore⟩ := exists_event_of_sideOn? hi
      have hm := h.happened.mem_events_iff.1 hm
      rw [kindAt_eq_sideOn? hhome, hi]
      rcases Span.Kind.eq_start_or_finish hcore with rfl | rfl
      · by_contra hother
        have hnone := (eq_none_of_incomplete hcall hstart).2 i fun he => hother (he ▸ rfl)
        cases hnone.symm.trans hm
      · exact absurd (hservice ▸ hhome) ((looseAt_eq_nil_iff hcall).1 hempty i m hm)
    exact ⟨⟨hempty, hkind⟩,
      timestamp_incompleteSide h.normal hkind hstart (h.timestamp_ne_zero hstart)⟩

/-- Of an incomplete call all ends are kept, and a start with no end on its service. -/
theorem exists_tells_iff_of_incomplete (hcall : r.call = .incomplete)
    (hcore : (r.moment? core).isSome) : (∃ home ∈ r.homes, (r.spanAt home).Tells core)
      ↔ ∀ k : Span.Kind, core = k.start → ∀ start ∈ r.moment? core,
        ∀ j : Span.Kind, ∀ finish ∈ r.moment? j.finish,
          finish.endpoint.service ≠ start.endpoint.service := by
  simp only [h.tells_spanAt_iff]
  constructor
  · rintro ⟨home, -, ⟨m, hm⟩ | htells⟩ k rfl start hstart j finish hfinish hservice
    · obtain ⟨⟨k', hk'⟩, -⟩ := (mem_looseAt_iff hcall).1 hm
      cases k <;> cases k' <;> cases hk'
    · obtain ⟨hempty, m, hm, hhome⟩ := (h.isSome_kindTime?_start_iff hcall).1 htells
      obtain rfl : m = start := Option.some.inj (hm.symm.trans hstart)
      exact (looseAt_eq_nil_iff hcall).1 hempty j finish hfinish (hservice ▸ hhome)
  · intro hkeeps
    obtain ⟨m, hm⟩ := Option.isSome_iff_exists.1 hcore
    obtain ⟨home, hmem, hsole⟩ := exists_homeOf (endpoint_mem_told (event_mem_of_moment? hm))
    have hhome : home.service? = some m.endpoint.service := (hsole home hmem).2 rfl
    refine ⟨home, hmem, ?_⟩
    rcases eq_start_or_finish core with hstart | hfinish
    · right
      rw [hstart, h.isSome_kindTime?_start_iff hcall]
      refine ⟨(looseAt_eq_nil_iff hcall).2 fun j finish hfinish he => ?_, m, hstart ▸ hm, hhome⟩
      exact hkeeps _ hstart m hm j finish hfinish (Option.some.inj (he.symm.trans hhome))
    · exact .inl ⟨m, (mem_looseAt_iff hcall).2 ⟨⟨_, hfinish⟩, hm, hhome⟩⟩

end

/-- The reports of the spans, merged again, tell exactly the core events that are kept. -/
theorem tells_iff_keeps : ∃ merged,
    mergeAll? (r.toSpans.map Span.toReport) = some merged
      ∧ ∀ core : CoreEvent, (∃ e ∈ r.events, e.value = core.name) →
        ((∃ e ∈ merged.events, e.value = core.name) ↔ r.Keeps core) := by
  obtain ⟨first, hfirst⟩ : ∃ home, home ∈ r.homes :=
    List.exists_mem_of_length_pos (by rw [length_homes]; omega)
  obtain ⟨merged, hmerged⟩ := exists_mergeAll?_iff.2
    ⟨_, List.mem_map_of_mem (mem_toSpans_iff.2 (.inl ⟨first, hfirst, rfl⟩))⟩
  refine ⟨merged, hmerged, fun core hcore => ?_⟩
  have hcore : (r.moment? core).isSome := Option.isSome_iff_exists.2 (h.exists_iff.1 hcore)
  rw [Span.exists_event_merged_iff hmerged]
  by_cases hcall : r.call = .incomplete
  · have hown : r.ownServer? = none :=
      Option.not_isSome_iff_eq_none.1 fun hown => call_ne_of_ownServer? hown hcall
    rw [exists_tells_toSpans_iff hown, h.exists_tells_iff_of_incomplete hcall hcore]
    simp only [Keeps, hcall]
  rw [keeps_iff_of_call hcall]
  by_cases hown : r.ownServer?.isSome
  · exact iff_of_true (h.exists_tells_of_ownServer? hown hcore) (.inl hown)
  · have hnone := Option.not_isSome_iff_eq_none.1 hown
    rw [exists_tells_toSpans_iff hnone, h.exists_tells_iff_of_call hcall hnone hcore,
      or_iff_right hown]

end ToldOnce

/-- A client tells of its call from start to end, and of the server's reply in between. -/
def overheardReply : Report where
  traceId := ⟨0, 1⟩
  id := 1
  timestamp := some 10
  duration := some 10
  events := [
    { timestamp := 10, value := "cs", endpoint := some { service := "web" } },
    { timestamp := 15, value := "ss", endpoint := some { service := "web" } },
    { timestamp := 20, value := "cr", endpoint := some { service := "web" } }]

theorem toldOnce_overheardReply : overheardReply.ToldOnce where
  normal := {
    events := by decide
    tags := by decide
    name := nofun
    timestamp := by decide
    duration := by decide }
  once core := by cases core <;> decide +kernel
  placed core := by cases core <;> decide +kernel

theorem tells_iff_keeps_overheardReply : overheardReply.ToldOnce
    ∧ ∃ merged, mergeAll? (overheardReply.toSpans.map Span.toReport) = some merged
      ∧ (∃ e ∈ merged.events, e.value = "cs") ∧ (∃ e ∈ merged.events, e.value = "cr")
      ∧ ¬ ∃ e ∈ merged.events, e.value = "ss" := by
  obtain ⟨merged, hmerged, hkept⟩ := toldOnce_overheardReply.tells_iff_keeps
  have hstart : overheardReply.moment? .clientSend = some ⟨10, { service := "web" }⟩ := by
    decide +kernel
  have hnone : overheardReply.moment? .serverReceive = none := by decide +kernel
  have hcall : overheardReply.call ≠ .incomplete := by
    have hend : overheardReply.moment? .clientReceive = some ⟨20, { service := "web" }⟩ := by
      decide +kernel
    simp only [call, hstart, hnone, hend, ne_eq, reduceCtorEq, not_false_eq_true]
  have hside : overheardReply.sideOn? "web" = some .client := by decide +kernel
  refine ⟨toldOnce_overheardReply, merged, hmerged, ?_, ?_, ?_⟩
  · exact (hkept .clientSend (by decide +kernel)).2
      ((keeps_iff_of_call hcall).2 (.inr ⟨.client, _, hstart, hside⟩))
  · exact (hkept .clientReceive (by decide +kernel)).2
      ((keeps_iff_of_call hcall).2 (.inr ⟨.client, _, hstart, hside⟩))
  · intro htold
    have hkeeps := (hkept .serverSend (by decide +kernel)).1 htold
    rcases (keeps_iff_of_call hcall).1 hkeeps with hown | ⟨k, start, hk, hlast⟩
    · exact absurd hown (by decide +kernel)
    · cases k with
      | client =>
        obtain rfl := Option.some.inj (hstart.symm.trans hk)
        cases hside.symm.trans hlast
      | server => cases hnone.symm.trans hk

/-- The server's reply is on the service of a client's span, which cannot tell it. -/
theorem not_core_events_kept : ¬ ∀ r : Report, r.ToldOnce →
    ∀ merged, mergeAll? (r.toSpans.map Span.toReport) = some merged →
      ∀ core : CoreEvent, (∃ e ∈ r.events, e.value = core.name) →
        ∃ e ∈ merged.events, e.value = core.name := by
  intro h
  have hmerged : ∃ merged, mergeAll? (overheardReply.toSpans.map Span.toReport) = some merged
      ∧ ¬ ∃ e ∈ merged.events, e.value = "ss" := by
    refine ⟨_, rfl, ?_⟩
    decide +kernel
  obtain ⟨merged, hmerged, hlost⟩ := hmerged
  exact hlost (h overheardReply toldOnce_overheardReply merged hmerged .serverSend
    (by decide +kernel))

end TraceArchive.Report
