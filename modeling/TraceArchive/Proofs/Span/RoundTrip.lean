import TraceArchive.Proofs.Sorted.Map
import TraceArchive.Proofs.Span.Report

set_option autoImplicit false

/-!
Reading the report of a span gives the span back, for spans of which a report can tell everything.
Such a report has one home. A span with a kind is told by the core events of its kind, one with two
ends but no kind by two address flags, and one with a local endpoint alone by an empty local
component.
-/

namespace TraceArchive.Span

section

variable {s : Span} (hs : s.Normal) (h : s.Reportable)

include hs h

theorem moment?_of_kind_eq_none (hk : s.kind = none) (core : CoreEvent) :
    s.toReport.moment? core = none := by
  rw [moment?_toReport hs h, (kindTime?_eq_none_iff hs h).2 hk core]
  rfl

theorem flagEnd?_of_kind {k : Kind} (hk : s.kind = some k) (key : String) :
    s.flagEnd? key = if k.remoteFlag = key then s.remoteEndpoint else none := by
  have hboth : s.isAddressOnly = false := by
    rw [Bool.eq_false_iff, Ne, isAddressOnly_iff hs h]
    simp [hk]
  simp [flagEnd?, hboth, remoteFlag?_eq h.coreFree hboth, hk]

/-- A kind starts with its first core event. -/
theorem start_of_kind {k : Kind} (hk : s.kind = some k) :
    ∃ t l, s.timestamp = some t ∧ s.localEndpoint = some l
      ∧ s.toReport.moment? .clientSend = (if k = .client then some ⟨t, l⟩ else none)
      ∧ s.toReport.moment? .serverReceive = (if k = .server then some ⟨t, l⟩ else none) := by
  obtain ⟨ht, hl⟩ := h.sided (by simp [hk])
  obtain ⟨t, ht⟩ := Option.isSome_iff_exists.1 ht
  obtain ⟨l, hl⟩ := Option.isSome_iff_exists.1 hl
  have hstart : s.startTime = t := by simp [startTime, ht]
  have hne : t ≠ 0 := fun e => hs.timestamp (by rw [ht, e])
  refine ⟨t, l, ht, hl, ?_, ?_⟩ <;> rw [moment?_toReport hs h, hl] <;>
    cases k <;> simp [kindTime?, hk, hstart, hne]

/-- Two address flags tell the ends of a call where no kind tells a side of it. -/
theorem addressOnly?_toReport {l r : Endpoint} :
    s.toReport.addressOnly? = some (l, r)
      ↔ s.kind = none ∧ s.localEndpoint = some l ∧ s.remoteEndpoint = some r := by
  cases hk : s.kind with
  | none =>
    simp only [Report.addressOnly?, moment?_of_kind_eq_none hs h hk, flagged?_toReport]
    cases hr : s.remoteEndpoint with
    | none => simp [flagEnd?_of_remote_eq_none hr]
    | some r' =>
      have hl := h.homed (by simp [hr])
      have := flagEnd?_of_isAddressOnly ((isAddressOnly_iff hs h).2 ⟨hk, hl, by simp [hr]⟩)
      obtain ⟨l', hl⟩ := Option.isSome_iff_exists.1 hl
      simp [this, hr, hl]
  | some k =>
    obtain ⟨t, l', -, -, hcs, hsr⟩ := start_of_kind hs h hk
    cases k <;> simp [Report.addressOnly?, hcs, hsr]

/-- Something in the report tells the local endpoint. -/
theorem exists_host {l : Endpoint} (hl : s.localEndpoint = some l) :
    (∃ e ∈ s.toReport.events, e.endpoint = some l)
      ∨ (∃ t ∈ s.toReport.tags, t.isFlag = false ∧ t.endpoint = some l)
      ∨ ∃ r, s.toReport.addressOnly? = some (l, r) := by
  have ofEvent : ∀ e, e ∈ s.otherEvents ∨ e ∈ s.coreEvents →
      ∃ e ∈ s.toReport.events, e.endpoint = some l := by
    intro e he
    have := mem_events_toReport.2 he
    exact ⟨e, this, (endpoint_of_mem_events hs h.coreFree this).trans hl⟩
  have ofTag : ∀ t, t ∈ s.textTags ∨ t ∈ s.hostTag →
      ∃ t ∈ s.toReport.tags, t.isFlag = false ∧ t.endpoint = some l := by
    intro t ht
    obtain ⟨hflag, hend⟩ := text_of_mem_tags ht
    exact ⟨t, mem_tags_toReport.2 (ht.imp_right .inr), hflag, hend.trans hl⟩
  cases hother : s.otherEvents with
  | cons e es => exact .inl (ofEvent e (.inl (by simp [hother])))
  | nil =>
  cases hcore : s.coreEvents with
  | cons e es => exact .inl (ofEvent e (.inr (by simp [hcore])))
  | nil =>
  cases htext : s.textTags with
  | cons t ts => exact .inr (.inl (ofTag t (.inl (by simp [htext]))))
  | nil =>
  by_cases hboth : s.isAddressOnly = true
  · obtain ⟨hk, -, hr⟩ := (isAddressOnly_iff hs h).1 hboth
    obtain ⟨r, hr⟩ := Option.isSome_iff_exists.1 hr
    exact .inr (.inr ⟨r, (addressOnly?_toReport hs h).2 ⟨hk, hl, hr⟩⟩)
  · refine .inr (.inl (ofTag (Tag.ofText Tag.localComponent "" (some l)) (.inr ?_)))
    simp [hostTag, hl, hother, hcore, htext, hboth]

theorem hosts_toReport : s.toReport.hosts = s.localEndpoint.toList := by
  apply Report.onePerService_eq_toList
  intro e
  simp only [List.mem_append, List.mem_filterMap, List.mem_filter, List.mem_map,
    Option.mem_toList, Bool.not_eq_true', or_assoc]
  constructor
  · rintro (⟨f, hf, he⟩ | ⟨t, ⟨ht, hflag⟩, he⟩ | ⟨⟨l, r⟩, hlr, rfl⟩)
    · rw [← endpoint_of_mem_events hs h.coreFree hf, he]
    · rw [← he]
      rcases mem_tags_toReport.1 ht with ht | ht | ht
      · exact (text_of_mem_tags (.inl ht)).2.symm
      · rw [isFlag_of_mem_addressTags ht] at hflag
        cases hflag
      · exact (text_of_mem_tags (.inr ht)).2.symm
    · exact ((addressOnly?_toReport hs h).1 hlr).2.1
  · intro hl
    rcases exists_host hs h hl with he | ⟨t, ht, hflag, he⟩ | ⟨r, hr⟩
    · exact .inl he
    · exact .inr (.inl ⟨t, ⟨ht, hflag⟩, he⟩)
    · exact .inr (.inr ⟨(e, r), hr, rfl⟩)

/-- The home of the span in its report. -/
theorem homes_toReport : s.toReport.homes = [⟨s.localEndpoint, true⟩] := by
  rw [Report.homes, hosts_toReport hs h, Report.Home.ofHosts_toList]

theorem loopback?_toReport : s.toReport.loopback? = none := by
  refine Report.loopback?_eq_none ?_
  cases hk : s.kind with
  | none => exact .inl (moment?_of_kind_eq_none hs h hk _)
  | some k =>
    obtain ⟨t, l, -, -, hcs, hsr⟩ := start_of_kind hs h hk
    cases k
    · exact .inr hsr
    · exact .inl hcs

theorem kindAt_toReport : s.toReport.kindAt ⟨s.localEndpoint, true⟩ = s.kind := by
  rw [Report.kindAt, ← List.getLast?_map]
  apply getLast?_eq_of_mem_iff
  intro k
  rw [kind_eq_some_iff hs h]
  simp only [List.mem_map, List.mem_filterMap, List.mem_filter]
  constructor
  · rintro ⟨core, ⟨e, ⟨he, -⟩, hcore⟩, hk⟩
    rcases (mem_events_toReport_iff hs h.coreFree).1 he with ⟨f, hf, rfl⟩ | ⟨core', t, ht, rfl⟩
    · simp [Event.core?, h.coreFree f hf] at hcore
    · obtain ⟨-, rfl⟩ := core?_kindEvent.1 hcore
      exact ⟨core', t, ht, hk⟩
  · rintro ⟨core, t, ht, hk⟩
    have hl := isSome_localEndpoint_of_kindTime? hs h ht
    refine ⟨core, ⟨s.kindEvent core t, ⟨?_, Report.Home.holds_self _⟩, ?_⟩, hk⟩
    · exact (mem_events_toReport_iff hs h.coreFree).2 (.inr ⟨core, t, ht, rfl⟩)
    · exact core?_kindEvent.2 ⟨hl, rfl⟩

/-- The call is told from start to end where there is a duration. -/
theorem call_of_kind {k : Kind} (hk : s.kind = some k) {t : UInt64} (ht : s.timestamp = some t)
    {l : Endpoint} (hl : s.localEndpoint = some l) :
    s.toReport.call = match s.duration with
      | none => .incomplete
      | some d => .oneSided ⟨t, l⟩ ⟨addTime t d, l⟩ := by
  have hstart : s.startTime = t := by simp [startTime, ht]
  have htime : t ≠ 0 := fun e => hs.timestamp (by rw [ht, e])
  have hd := hs.duration
  cases hdur : s.duration <;> cases k <;>
    simp_all [Report.call, moment?_toReport hs h, kindTime?, elapsed]

theorem call_of_kind_eq_none (hk : s.kind = none) : s.toReport.call = .incomplete := by
  simp only [Report.call, moment?_of_kind_eq_none hs h hk]

theorem loose_toReport : s.toReport.loose = [] := by
  cases hk : s.kind with
  | none =>
    simp [Report.loose, call_of_kind_eq_none hs h hk, moment?_of_kind_eq_none hs h hk]
  | some k =>
    obtain ⟨t, l, ht, hl, -, -⟩ := start_of_kind hs h hk
    cases hd : s.duration with
    | none =>
      have : s.elapsed = 0 := by simp [elapsed, hd]
      cases k <;> simp [Report.loose, call_of_kind hs h hk ht hl, hd, moment?_toReport hs h,
        kindTime?, hk, this]
    | some d => simp [Report.loose, call_of_kind hs h hk ht hl, hd]

theorem looseAt_toReport (home : Report.Home) : s.toReport.looseAt home = [] := by
  rw [Report.looseAt, loose_toReport hs h, List.filter_nil]

theorem sideAt_toReport :
    s.toReport.sideAt ⟨s.localEndpoint, true⟩
      = { kind := s.kind, timestamp := s.timestamp, duration := s.duration } := by
  have htime := timestamp_toReport hs h.ownsTime
  have hdur := duration_toReport hs h.ownsTime h.timed
  have incomplete (hcall : s.toReport.call = .incomplete)
      (hnone : s.timestamp = none → s.kind = none ∧ s.duration = none) :
      s.toReport.sideAt ⟨s.localEndpoint, true⟩
        = { kind := s.kind, timestamp := s.timestamp, duration := s.duration } := by
    simp only [Report.sideAt, hcall, Report.incompleteSide, kindAt_toReport hs h,
      looseAt_toReport hs h, htime, hdur]
    cases ht : s.timestamp with
    | none => simp [hnone ht]
    | some t => simp
  cases hk : s.kind with
  | none =>
    rw [← hk]
    refine incomplete (call_of_kind_eq_none hs h hk) fun ht => ⟨hk, ?_⟩
    have := h.timed
    cases hd : s.duration <;> simp_all
  | some k =>
    obtain ⟨t, l, ht, hl, -, -⟩ := start_of_kind hs h hk
    have hcall := call_of_kind hs h hk ht hl
    cases hd : s.duration with
    | none =>
      rw [hd] at hcall
      rw [← hk, ← hd]
      exact incomplete hcall fun e => by simp [ht] at e
    | some d =>
      rw [hd] at hcall
      have holds : (⟨s.localEndpoint, true⟩ : Report.Home).holds (some l) = true := by
        rw [← hl]
        exact Report.Home.holds_self _
      simp only [Report.sideAt, hcall, holds, Report.timed, htime, hdur, ht, hd, hk,
        kindAt_toReport hs h, if_true]

theorem remoteAt_toReport :
    s.toReport.remoteAt ⟨s.localEndpoint, true⟩ = s.remoteEndpoint := by
  cases hk : s.kind with
  | none =>
    have hnone := moment?_of_kind_eq_none hs h hk
    cases hr : s.remoteEndpoint with
    | none =>
      have : s.toReport.addressOnly? = none := by
        rw [Option.eq_none_iff_forall_ne_some]
        rintro ⟨l, r⟩ hlr
        rw [addressOnly?_toReport hs h, hr] at hlr
        cases hlr.2.2
      simp [Report.remoteAt, this, Report.remoteAt.other, hnone]
    | some r =>
      obtain ⟨l, hl⟩ := Option.isSome_iff_exists.1 (h.homed (by simp [hr]))
      have := (addressOnly?_toReport hs h).2 ⟨hk, hl, hr⟩
      simp [Report.remoteAt, this, hl, Report.Home.holds_self]
  | some k =>
    obtain ⟨t, l, -, hl, hcs, hsr⟩ := start_of_kind hs h hk
    have honly : s.toReport.addressOnly? = none := by
      rw [Option.eq_none_iff_forall_ne_some]
      rintro ⟨l, r⟩ hlr
      rw [addressOnly?_toReport hs h, hk] at hlr
      cases hlr.1
    have hflag := flagEnd?_of_kind hs h hk
    have hne : ∀ r, s.remoteEndpoint = some r → r.sameService l = false := by
      intro r hr
      simpa [Endpoint.sameService] using h.apart (by simp [hk]) l hl r hr
    cases k <;> cases hr : s.remoteEndpoint <;>
      simp_all [Report.remoteAt, Report.remoteAt.other, flagged?_toReport, Report.Home.holds_self,
        Kind.remoteFlag]

theorem mem_eventsAt_toReport {e : Event} :
    e ∈ s.toReport.eventsAt ⟨s.localEndpoint, true⟩ ↔ e ∈ s.events := by
  simp only [Report.eventsAt, looseAt_toReport hs h, List.map_nil, List.append_nil, List.mem_map,
    List.mem_filter]
  constructor
  · rintro ⟨f, ⟨hf, hcore⟩, rfl⟩
    rcases (mem_events_toReport_iff hs h.coreFree).1 hf with ⟨g, hg, rfl⟩ | ⟨core, t, ht, rfl⟩
    · rw [show ({ timestamp := g.timestamp, value := g.value } : Event) = g by
        rw [← hs.hostless g hg]]
      exact hg
    · have hl := isSome_localEndpoint_of_kindTime? hs h ht
      simp [core?_kindEvent.2 ⟨hl, rfl⟩] at hcore
  · intro he
    refine ⟨{ e with endpoint := s.localEndpoint }, ⟨?_, ?_⟩, ?_⟩
    · exact (mem_events_toReport_iff hs h.coreFree).2 (.inl ⟨e, he, rfl⟩)
    · simp [Event.core?, h.coreFree e he, Report.Home.holds_self]
    · rw [← hs.hostless e he]

omit hs in
theorem mem_tagsAt_toReport {e : String × String} :
    e ∈ s.toReport.tagsAt ⟨s.localEndpoint, true⟩ ↔ e ∈ s.tags.entries := by
  obtain ⟨key, value⟩ := e
  rw [Report.mem_tagsAt]
  constructor
  · rintro ⟨t, ht, rfl, hvalue, -, hlocal⟩
    rcases mem_tags_toReport.1 ht with ht | ht | ht
    · obtain ⟨⟨k, v⟩, hentry, rfl⟩ := List.mem_map.1 ht
      obtain rfl := Option.some.inj hvalue
      exact hentry
    · rcases mem_addressTags.1 ht with ⟨-, l, -, rfl⟩ | ⟨flag, r, -, -, rfl⟩ <;> cases hvalue
    · obtain rfl := eq_of_mem_hostTag ht
      obtain rfl := Option.some.inj hvalue
      exact absurd ⟨rfl, rfl⟩ hlocal
  · intro hentry
    refine ⟨Tag.ofText key value s.localEndpoint, ?_, rfl, rfl, Report.Home.holds_self _, ?_⟩
    · exact mem_tags_toReport.2 (.inl (List.mem_map.2 ⟨(key, value), hentry, rfl⟩))
    · rintro ⟨rfl, rfl⟩
      exact h.component (SortedMap.get?_eq_some_iff.2 hentry)

theorem toSpans_toReport_of_normal : s.toReport.toSpans = [s] := by
  have hevents : Ascending.ofList (s.toReport.eventsAt ⟨s.localEndpoint, true⟩) = s.events :=
    Ascending.eq_of_mem_iff (Ascending.ascending_ofList _) hs.events fun e => by
      rw [Ascending.mem_ofList, mem_eventsAt_toReport hs h]
  have htags : SortedMap.ofList (s.toReport.tagsAt ⟨s.localEndpoint, true⟩) = s.tags :=
    SortedMap.ofList_eq_of_mem_iff fun e => mem_tagsAt_toReport h
  have hname : s.toReport.name.bind spanName? = s.name := by
    show (s.name.bind spanName?).bind spanName? = s.name
    rw [bind_spanName?_eq_self hs.name, bind_spanName?_eq_self hs.name]
  have hshared : false = s.shared := h.unshared.symm
  rw [Report.toSpans_eq_singleton (homes_toReport hs h) (loopback?_toReport hs h)]
  simp only [Report.spanAt, Report.toSpan, Span.tidy, sideAt_toReport hs h, remoteAt_toReport hs h,
    hevents, htags, hname, timestamp?_eq_self hs.timestamp, duration?_eq_self hs.duration, hshared]
  rfl

end

/-- Reading the report of a built span gives the span back. -/
theorem Built.toSpans_toReport {s : Span} (hs : s.Built) (h : s.Reportable) :
    s.toReport.toSpans = [s] :=
  toSpans_toReport_of_normal hs.normal h

/-- The client's side of a call that was retried once. -/
def remoteCall : Span where
  traceId := ⟨0, 0⟩
  id := 0
  kind := some .client
  name := some "get"
  timestamp := some 100
  duration := some 20
  localEndpoint := some { service := "web" }
  remoteEndpoint := some { service := "db", port := some 5432 }
  events := [{ timestamp := 110, value := "retry" }]
  tags := SortedMap.empty.insert "path" "/items"

theorem remoteCall_built : remoteCall.Built :=
  ⟨_, .remoteEndpoint remoteCall.remoteEndpoint (.localEndpoint remoteCall.localEndpoint
    (.tag "path" "/items" (.event 110 "retry" (.duration (some 20) (.timestamp (some 100)
      (.kind (some .client) (.name "get" .blank))))))), rfl⟩

theorem toSpans_toReport_remoteCall : remoteCall.toReport.toSpans = [remoteCall] :=
  Built.toSpans_toReport remoteCall_built
    { unshared := rfl
      coreless := by decide
      component := by decide
      timed := by decide
      sided := by decide
      homed := by decide
      apart := by decide }

end TraceArchive.Span
