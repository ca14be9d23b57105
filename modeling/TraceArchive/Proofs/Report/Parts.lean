import TraceArchive.Proofs.Span.Sides

set_option autoImplicit false

/-!
The spans of a report as parts of it. What the report of a home's span tells, the whole report
tells as well, and every event and every text of the whole is told by the span of its home, the
core events apart.
-/

namespace TraceArchive

/-- Both are about one span, and agree on what all of its hosts know of it. -/
structure Span.Describes (s : Span) (r : Report) : Prop where
  traceId : s.traceId = r.traceId
  id : s.id = r.id
  parentId : s.parentId = r.parentId
  name : s.name = r.name
  debug : s.debug = r.debug

theorem Span.Describes.fragment {s : Span} {r : Report} (h : s.Describes r) (hr : r.Normal)
    (htime : s.toReport.time = (none, none) ∨ s.toReport.time = r.time)
    (hevents : ∀ e ∈ s.toReport.events, e ∈ r.events)
    (htags : ∀ t ∈ s.toReport.tags, t ∈ r.tags) : s.toReport.Fragment r where
  traceId := h.traceId
  id := h.id
  parentId := h.parentId
  name := by
    show s.name.bind spanName? = r.name
    rw [h.name, bind_spanName?_eq_self hr.name]
  debug := h.debug
  time := htime
  events := hevents
  tags := htags
  tidy := Report.tidy_tidy _

namespace Report

theorem normal_toSpan (r : Report) (e : Option Endpoint) (side : Side) :
    (r.toSpan e side).Normal where
  events := List.Pairwise.nil
  hostless := by simp [toSpan]
  name := by
    intro name hname
    obtain ⟨n, -, hn⟩ := Option.bind_eq_some_iff.1 hname
    exact spanName?_eq_some hn
  timestamp := timestamp?_ne_zero _
  duration := duration?_ne_zero _

theorem normal_spanAt (r : Report) (home : Home) : (r.spanAt home).Normal where
  events := Ascending.ascending_ofList _
  hostless := by
    intro e he
    have he : e ∈ r.eventsAt home := Ascending.mem_ofList.1 he
    simp only [eventsAt, List.mem_append, List.mem_map] at he
    rcases he with ⟨f, -, rfl⟩ | ⟨m, -, rfl⟩ <;> rfl
  name := (normal_toSpan r home.endpoint (r.sideAt home)).name
  timestamp := timestamp?_ne_zero _
  duration := duration?_ne_zero _

theorem Normal.describes_toSpan {r : Report} (hr : r.Normal) (e : Option Endpoint) (side : Side) :
    (r.toSpan e side).Describes r :=
  ⟨rfl, rfl, rfl, bind_spanName?_eq_self hr.name, rfl⟩

theorem Normal.describes_spanAt {r : Report} (hr : r.Normal) (home : Home) :
    (r.spanAt home).Describes r :=
  ⟨rfl, rfl, rfl, bind_spanName?_eq_self hr.name, rfl⟩

theorem mem_toSpans_iff {r : Report} {s : Span} :
    s ∈ r.toSpans ↔ (∃ home ∈ r.homes, r.spanAt home = s) ∨ r.loopback? = some s := by
  have hsplit : ∀ {n : Nat}, (s ∈ (r.homes.map r.spanAt).take n
      ∨ s ∈ (r.homes.map r.spanAt).drop n) ↔ ∃ home ∈ r.homes, r.spanAt home = s := by
    intro n
    rw [← List.mem_append, List.take_append_drop, List.mem_map]
  rw [toSpans, List.mem_append, List.mem_append, or_right_comm, hsplit, Option.mem_toList]

/-- The side of a call from its start to its end. -/
def Side.ofCall (k : Span.Kind) (start finish : UInt64) (shared : Bool) : Side where
  kind := some k
  timestamp := some start
  duration := some (finish - start)
  shared

theorem timed_eq {r : Report} {timestamp duration : UInt64} (ht : r.timestamp = some timestamp)
    (hd : r.duration = some duration) (side : Side) (start : Moment) (finish : Option Moment) :
    r.timed side start finish
      = { side with timestamp := some timestamp, duration := some duration } := by
  simp only [timed, ht, hd]

theorem serverSide_eq {k : Span.Kind} {receive reply : Moment}
    (h : receive.timestamp < reply.timestamp) : serverSide (some k) receive (some reply)
      = .ofCall k receive.timestamp reply.timestamp true := by
  simp [serverSide, Side.ofCall, timeBetween, UInt64.le_of_lt h]

theorem other_eq_some_iff {r : Report} {home : Home} {core : CoreEvent} {flag : String}
    {remote : Endpoint} : remoteAt.other r home core flag = some remote
      ↔ ∃ m, r.moment? core = some m ∧ home.holds (some m.endpoint) = true
        ∧ r.flagged? flag = some remote ∧ remote.service ≠ m.endpoint.service := by
  unfold remoteAt.other
  cases r.moment? core <;> cases r.flagged? flag <;> simp [Endpoint.sameService]
  constructor
  · rintro ⟨⟨hholds, hservice⟩, rfl⟩
    exact ⟨hholds, rfl, hservice⟩
  · rintro ⟨hholds, rfl, hservice⟩
    exact ⟨⟨hholds, hservice⟩, rfl⟩

theorem remoteAt_eq_or {r : Report} (hcall : r.call ≠ .incomplete) (home : Home) :
    r.remoteAt home = (remoteAt.other r home .serverReceive Tag.clientAddress).or
      (remoteAt.other r home .clientSend Tag.serverAddress) := by
  simp only [remoteAt, addressOnly?_eq_none hcall]

/-- The remote endpoint of a home is flagged for a side that started there. -/
theorem exists_start_of_remoteAt {r : Report} (hcall : r.call ≠ .incomplete) {home : Home}
    {remote : Endpoint} (h : r.remoteAt home = some remote) :
    ∃ (k : Span.Kind) (m : Moment), r.moment? k.start = some m
      ∧ home.holds (some m.endpoint) = true ∧ r.flagged? k.remoteFlag = some remote := by
  rw [remoteAt_eq_or hcall, Option.or_eq_some_iff, other_eq_some_iff, other_eq_some_iff] at h
  rcases h with ⟨m, hm, hholds, hflag, -⟩ | ⟨-, m, hm, hholds, hflag, -⟩
  · exact ⟨.server, m, hm, hholds, hflag⟩
  · exact ⟨.client, m, hm, hholds, hflag⟩

/-- Where a single side started, the flag for it tells the remote endpoint. -/
theorem remoteAt_eq_some {r : Report} (hcall : r.call ≠ .incomplete) {home : Home}
    {remote : Endpoint} {k : Span.Kind} {m : Moment} (hm : r.moment? k.start = some m)
    (hholds : home.holds (some m.endpoint) = true) (hflag : r.flagged? k.remoteFlag = some remote)
    (hservice : remote.service ≠ m.endpoint.service)
    (hsole : ∀ k' m', r.moment? k'.start = some m' → home.holds (some m'.endpoint) = true
      → k' = k) :
    r.remoteAt home = some remote := by
  have hother := other_eq_some_iff.2 ⟨m, hm, hholds, hflag, hservice⟩
  rw [remoteAt_eq_or hcall, Option.or_eq_some_iff]
  cases k with
  | server => exact .inl hother
  | client =>
    refine .inr ⟨?_, hother⟩
    rw [Option.eq_none_iff_forall_ne_some]
    intro remote' h
    obtain ⟨m', hm', hholds', -⟩ := other_eq_some_iff.1 h
    cases hsole .server m' hm' hholds'

theorem exists_flag_of_flagged? {r : Report} {key : String} {e : Endpoint}
    (h : r.flagged? key = some e) : ∃ t ∈ r.flags, t.key = key ∧ t.endpoint = some e := by
  rw [flagged?_eq, Option.bind_eq_some_iff] at h
  obtain ⟨t, hlast, hend⟩ := h
  have ht := List.mem_of_getLast? hlast
  rw [List.mem_filter, beq_iff_eq] at ht
  exact ⟨t, ht.1, ht.2, hend⟩

theorem shows_toSpan (r : Report) (e : Endpoint) {k : Span.Kind} {start finish : UInt64}
    (shared : Bool) (hstart : start ≠ 0) (ahead : start < finish) :
    (r.toSpan (some e) (.ofCall k start finish shared)).Shows k e start finish where
  normal := normal_toSpan r _ _
  coreFree := by simp [Span.CoreFree, toSpan]
  kind := rfl
  host := rfl
  timestamp := timestamp?_eq_self fun h => hstart (Option.some.inj h)
  duration := duration?_eq_self fun h => sub_ne_zero_of_lt ahead (Option.some.inj h)
  ahead := ahead

namespace Hosted

variable {r : Report} (hr : r.Hosted) (hcall : r.call ≠ .incomplete) {home : Home} {e : Endpoint}
  (hend : home.endpoint = some e) (he : e ∈ r.reporters)

include hr hcall hend he

theorem coreFree_spanAt : (r.spanAt home).CoreFree := by
  intro x hx
  obtain ⟨y, hy, hcore, -, rfl⟩ := (hr.mem_eventsAt_iff hcall hend he).1 (Ascending.mem_ofList.1 hx)
  have : CoreEvent.ofName? y.value = none := Event.ofName?_eq_none hcore (hr.events y hy)
  exact this

/-- The events of a home but for the core events. -/
theorem mem_otherEvents_iff {x : Event} : x ∈ (r.spanAt home).otherEvents
    ↔ x ∈ r.events ∧ x.core? = none ∧ x.endpoint = some e := by
  rw [Span.mem_otherEvents (normal_spanAt r home) (hr.coreFree_spanAt hcall hend he)]
  have hlocal : (r.spanAt home).localEndpoint = some e := hend
  have hmem : ∀ f, f ∈ (r.spanAt home).events ↔ f ∈ r.eventsAt home := fun _ =>
    Ascending.mem_ofList
  simp only [hlocal, hmem, hr.mem_eventsAt_iff hcall hend he]
  constructor
  · rintro ⟨_, ⟨y, hy, hcore, hy', rfl⟩, rfl⟩
    rw [← hy']
    exact ⟨hy, hcore, rfl⟩
  · intro ⟨hx, hcore, hx'⟩
    refine ⟨_, ⟨x, hx, hcore, hx', rfl⟩, ?_⟩
    rw [← hx']

omit hcall

/-- The texts of a home. -/
theorem mem_textTags_iff {t : Tag} :
    t ∈ (r.spanAt home).textTags ↔ t ∈ r.texts ∧ t.endpoint = some e := by
  have hlocal : (r.spanAt home).localEndpoint = some e := hend
  have hentries : ∀ p, p ∈ (r.spanAt home).tags.entries
      ↔ Tag.ofText p.1 p.2 (some e) ∈ r.texts := by
    intro p
    rw [← hr.mem_tagsAt_iff hend he]
    exact SortedMap.mem_entries_ofList (hr.eq_of_mem_tagsAt hend he)
  simp only [Span.textTags, List.mem_map, hlocal, hentries]
  constructor
  · rintro ⟨p, hp, rfl⟩
    exact ⟨hp, rfl⟩
  · intro ⟨ht, ht'⟩
    obtain ⟨text, htext⟩ := Tag.exists_text? (by simpa using (List.mem_filter.1 ht).2)
    have := Tag.eq_ofText htext
    rw [ht'] at this
    exact ⟨(t.key, text), this ▸ ht, this.symm⟩

include hcall

/-- What the span of a home tells is told by the report, if that is so for its side of a call. -/
theorem fragment_spanAt (hcore : ∀ x ∈ (r.spanAt home).coreEvents, x ∈ r.events)
    (haddress : ∀ t ∈ (r.spanAt home).addressTags, t ∈ r.tags)
    (hhost : (r.spanAt home).hostTag = [])
    (htime : (r.spanAt home).toReport.time = (none, none)
      ∨ (r.spanAt home).toReport.time = r.time) :
    (r.spanAt home).toReport.Fragment r := by
  apply (hr.normal.describes_spanAt home).fragment hr.normal htime
  · intro x hx
    rcases Span.mem_events_toReport.1 hx with hx | hx
    · exact ((hr.mem_otherEvents_iff hcall hend he).1 hx).1
    · exact hcore x hx
  · intro t ht
    rcases Span.mem_tags_toReport.1 ht with ht | ht | ht
    · exact mem_tags_iff.2 (.inl ((hr.mem_textTags_iff hend he).1 ht).1)
    · exact haddress t ht
    · rw [hhost] at ht
      cases ht

theorem shows_spanAt {k : Span.Kind} {start finish : UInt64} {shared : Bool}
    (hside : r.sideAt home = .ofCall k start finish shared) (hstart : start ≠ 0)
    (ahead : start < finish) : (r.spanAt home).Shows k e start finish := by
  have hspan := shows_toSpan r e (k := k) shared hstart ahead
  rw [← hside, ← hend] at hspan
  exact { hspan with
    normal := normal_spanAt r home
    coreFree := hr.coreFree_spanAt hcall hend he }

/-- The span of a home where a side of the call is shown. -/
theorem fragment_of_shows {k : Span.Kind} {start finish : UInt64}
    (hs : (r.spanAt home).Shows k e start finish)
    (hstart : k.start.event ⟨start, e⟩ ∈ r.events) (hfinish : k.finish.event ⟨finish, e⟩ ∈ r.events)
    (hremote : ∀ remote, r.remoteAt home = some remote → Tag.address k.remoteFlag remote ∈ r.tags)
    (htime : (r.spanAt home).toReport.time = (none, none)
      ∨ (r.spanAt home).toReport.time = r.time) :
    (r.spanAt home).toReport.Fragment r := by
  apply hr.fragment_spanAt hcall hend he _ _ hs.hostTag_eq_nil htime
  · intro x hx
    rcases hs.mem_coreEvents.1 hx with rfl | rfl
    · exact hstart
    · exact hfinish
  · intro t ht
    obtain ⟨remote, hr, rfl⟩ := hs.mem_addressTags.1 ht
    exact hremote remote hr

end Hosted

end Report

end TraceArchive
