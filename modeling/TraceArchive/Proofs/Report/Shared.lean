import TraceArchive.Proofs.Report.Parts

set_option autoImplicit false

/-!
Reports of a call by both of its sides, and by any other hosts. The spans of such a report divide it
among the hosts: the client's span has the time of the call, the server's span its own times, and
every other span no time at all. Merged again, the reports of the spans tell everything.
-/

namespace TraceArchive.Report

/-- A call as both of its sides tell it. -/
structure Exchange where
  client : Endpoint
  server : Endpoint
  send : UInt64
  receive : UInt64
  reply : UInt64
  done : UInt64

namespace Exchange

def moment (x : Exchange) : CoreEvent → Moment
  | .clientSend => ⟨x.send, x.client⟩
  | .serverReceive => ⟨x.receive, x.server⟩
  | .serverSend => ⟨x.reply, x.server⟩
  | .clientReceive => ⟨x.done, x.client⟩

/-- The host of a side. -/
def host (x : Exchange) : Span.Kind → Endpoint
  | .client => x.client
  | .server => x.server

/-- The host at the other end. -/
def remote (x : Exchange) : Span.Kind → Endpoint
  | .client => x.server
  | .server => x.client

/-- When a side starts, by its own clock. -/
def start (x : Exchange) (k : Span.Kind) : UInt64 := (x.moment k.start).timestamp

/-- When a side ends, by its own clock. -/
def finish (x : Exchange) (k : Span.Kind) : UInt64 := (x.moment k.finish).timestamp

theorem endpoint_moment (x : Exchange) (core : CoreEvent) :
    (x.moment core).endpoint = x.host (sideOf core) := by
  cases core <;> rfl

theorem moment_start (x : Exchange) (k : Span.Kind) :
    x.moment k.start = ⟨x.start k, x.host k⟩ := by
  cases k <;> rfl

theorem moment_finish (x : Exchange) (k : Span.Kind) :
    x.moment k.finish = ⟨x.finish k, x.host k⟩ := by
  cases k <;> rfl

/-- The side that the home of a host shows. Where a host called itself, that is the client's. -/
def shownAt (x : Exchange) (e : Endpoint) : Option Span.Kind :=
  if x.client = e then some .client else if x.server = e then some .server else none

theorem shownAt_eq_some_iff {x : Exchange} {e : Endpoint} {k : Span.Kind} :
    x.shownAt e = some k ↔ x.host k = e ∧ (k = .client ∨ x.client ≠ x.server) := by
  unfold shownAt
  split
  · next hc =>
    subst hc
    cases k <;> simp [host, eq_comm]
  · next hc => cases k <;> simp_all [host]

theorem shownAt_host {x : Exchange} {k : Span.Kind} (h : k = .client ∨ x.client ≠ x.server) :
    x.shownAt (x.host k) = some k :=
  shownAt_eq_some_iff.2 ⟨rfl, h⟩

theorem shownAt_eq_none_iff {x : Exchange} {e : Endpoint} :
    x.shownAt e = none ↔ ∀ k, x.host k ≠ e := by
  unfold shownAt
  constructor
  · intro h
    have hc : x.client ≠ e := fun hc => by simp [hc] at h
    have hs : x.server ≠ e := fun hs => by simp [hc, hs] at h
    rintro (_ | _)
    · exact hc
    · exact hs
  · intro h
    have hc : x.client ≠ e := h .client
    have hs : x.server ≠ e := h .server
    rw [if_neg hc, if_neg hs]

theorem eq_of_host_eq {x : Exchange} (h : x.client ≠ x.server) {k k' : Span.Kind}
    (hk : x.host k = x.host k') : k = k' := by
  cases k <;> cases k' <;> simp_all [host, eq_comm]

end Exchange

/-- A complete report of a call: what both sides and any other hosts tell of it. Besides there may
be flags for the two ends, if they are of different services. -/
structure SharedCall (r : Report) (x : Exchange) : Prop extends r.Hosted where
  exchanged : ∀ core, r.occurrences core = [core.event (x.moment core)]
  clientAhead : x.send < x.done
  received : 0 < x.receive
  serverAhead : x.receive < x.reply
  timestamp : r.timestamp = some x.send
  duration : r.duration = some (x.done - x.send)
  flags : r.flags = [] ∨ (x.client.service ≠ x.server.service
    ∧ r.flags = [Tag.address "ca" x.client, Tag.address "sa" x.server])

namespace SharedCall

variable {r : Report} {x : Exchange} (h : r.SharedCall x)

include h

theorem happened : r.Happened fun core => some (x.moment core) := h.exchanged

theorem mem_events (core : CoreEvent) : core.event (x.moment core) ∈ r.events :=
  h.happened.mem_events_iff.2 rfl

theorem host_mem_reporters (k : Span.Kind) : x.host k ∈ r.reporters := by
  refine mem_reporters_iff.2 (.inl ⟨_, h.mem_events k.start, ?_⟩)
  rw [x.moment_start]
  rfl

theorem call_eq : r.call = .shared (x.moment .clientSend) (x.moment .serverReceive)
    (some (x.moment .serverSend)) (some (x.moment .clientReceive)) := by
  simp only [call, h.happened.moment?_eq]

theorem call_ne : r.call ≠ .incomplete := by
  rw [h.call_eq]
  exact Call.noConfusion

theorem ahead (k : Span.Kind) : x.start k < x.finish k := by
  cases k
  · exact h.clientAhead
  · exact h.serverAhead

theorem start_ne_zero (k : Span.Kind) : x.start k ≠ 0 := by
  cases k with
  | client =>
    intro hzero
    apply h.normal.timestamp
    rw [h.timestamp, ← hzero]
    rfl
  | server =>
    have hpos : 0 < x.receive.toNat := UInt64.lt_iff_toNat_lt.1 h.received
    intro hzero
    have : x.receive.toNat = 0 := congrArg UInt64.toNat hzero
    omega

theorem serverSide_eq : serverSide (some .server) (x.moment .serverReceive)
    (some (x.moment .serverSend)) = .ofCall .server (x.start .server) (x.finish .server) true :=
  Report.serverSide_eq (h.ahead .server)

theorem sameService_iff : x.client.sameService x.server = true ↔ x.client = x.server := by
  simp only [Endpoint.sameService, decide_eq_true_eq]
  constructor
  · exact h.service _ (h.host_mem_reporters .client) _ (h.host_mem_reporters .server)
  · intro he
    rw [he]

/-- Where there are flags, they tell both ends of a call between two services. -/
theorem mem_flags {t : Tag} (ht : t ∈ r.flags) : x.client.service ≠ x.server.service
    ∧ ∃ k : Span.Kind, t = Tag.address k.remoteFlag (x.remote k)
      ∧ r.flagged? k.remoteFlag = some (x.remote k) := by
  rcases h.flags with hflags | ⟨hne, hflags⟩
  · rw [hflags] at ht
    cases ht
  · refine ⟨hne, ?_⟩
    rw [hflags] at ht
    rcases List.mem_pair.1 ht with rfl | rfl
    · exact ⟨.server, rfl, by rw [flagged?_eq, hflags]; rfl⟩
    · exact ⟨.client, rfl, by rw [flagged?_eq, hflags]; rfl⟩

theorem address_mem_flags {k : Span.Kind} {remote : Endpoint}
    (hflag : r.flagged? k.remoteFlag = some remote) :
    Tag.address k.remoteFlag remote ∈ r.flags := by
  obtain ⟨t, ht, hkey, hend⟩ := exists_flag_of_flagged? hflag
  obtain ⟨-, k', rfl, -⟩ := h.mem_flags ht
  rw [← hkey, ← Option.some.inj hend]
  exact ht

section

variable {home : Home} {e : Endpoint} (hend : home.endpoint = some e) (he : e ∈ r.reporters)

include hend he

theorem holds_moment_iff (core : CoreEvent) :
    home.holds (some (x.moment core).endpoint) = true ↔ x.host (sideOf core) = e := by
  rw [x.endpoint_moment]
  exact h.holds_iff hend he (h.host_mem_reporters _)

/-- A side whose start a home holds is on the host of the home. -/
theorem host_eq_of_holds {k : Span.Kind} {m : Moment} (hm : r.moment? k.start = some m)
    (hholds : home.holds (some m.endpoint) = true) : x.host k = e := by
  rw [h.happened.moment?_eq] at hm
  obtain rfl := Option.some.inj hm
  rw [← k.sideOf_start]
  exact (h.holds_moment_iff hend he k.start).1 hholds

/-- The last core event tells the kind of a home, but where a host called itself it may be of either
side. -/
theorem kindAt_eq (hapart : x.client = e → x.client ≠ x.server) :
    r.kindAt home = x.shownAt e := by
  apply h.happened.kindAt_eq
  intro k
  constructor
  · rintro ⟨core, m, hm, hholds, rfl⟩
    obtain rfl := Option.some.inj hm
    have hhost := (h.holds_moment_iff hend he core).1 hholds
    refine Exchange.shownAt_eq_some_iff.2 ⟨hhost, ?_⟩
    cases hk : sideOf core with
    | client => exact .inl rfl
    | server =>
      right
      intro hsame
      rw [hk] at hhost
      exact hapart (hsame.trans hhost) hsame
  · intro hk
    refine ⟨k.start, _, rfl, ?_, k.sideOf_start⟩
    rw [h.holds_moment_iff hend he, k.sideOf_start]
    exact (Exchange.shownAt_eq_some_iff.1 hk).1

/-- The side that the span of a home shows. -/
theorem sideAt_eq : r.sideAt home = match x.shownAt e with
    | some k => .ofCall k (x.start k) (x.finish k) (k = .server)
    | none => {} := by
  have hsend := h.holds_moment_iff hend he .clientSend
  have hreceive := h.holds_moment_iff hend he .serverReceive
  have hkind := h.kindAt_eq hend he
  simp only [sideAt, h.call_eq, timed_eq h.timestamp h.duration]
  by_cases hc : x.client = e
  -- The client's home is the client's also where the server's core events are the last ones of it.
  · have : (if (x.moment .clientSend).endpoint.sameService (x.moment .serverReceive).endpoint = true
        then some .client else r.kindAt home) = some Span.Kind.client := by
      split
      · rfl
      · next hsame =>
        rw [hkind fun _ hcs => hsame (h.sameService_iff.2 hcs), Exchange.shownAt, if_pos hc]
    rw [if_pos (hsend.2 hc), this, Exchange.shownAt, if_pos hc]
    rfl
  · rw [if_neg (mt hsend.1 hc), hkind fun h => absurd h hc]
    by_cases hs : x.server = e
    · have hshown : x.shownAt e = some .server := by rw [Exchange.shownAt, if_neg hc, if_pos hs]
      rw [if_pos (hreceive.2 hs), hshown]
      exact h.serverSide_eq
    · have hshown : x.shownAt e = none := by rw [Exchange.shownAt, if_neg hc, if_neg hs]
      rw [if_neg (mt hreceive.1 hs), hshown]

theorem shows_spanAt {k : Span.Kind} (hk : x.shownAt e = some k) :
    (r.spanAt home).Shows k e (x.start k) (x.finish k) := by
  apply h.toHosted.shows_spanAt h.call_ne hend he _ (h.start_ne_zero k) (h.ahead k)
  · exact decide (k = .server)
  · rw [h.sideAt_eq hend he, hk]

theorem shared_spanAt {k : Span.Kind} (hk : x.shownAt e = some k) :
    (r.spanAt home).shared = decide (k = .server) := by
  show (r.sideAt home).shared = _
  rw [h.sideAt_eq hend he, hk]
  rfl

/-- The client's span has the time of the call. -/
theorem time_spanAt (hk : x.shownAt e = some .client) : (r.spanAt home).toReport.time = r.time := by
  rw [(h.shows_spanAt hend he hk).time_toReport (by simp [h.shared_spanAt hend he hk]), time,
    h.timestamp, h.duration]
  rfl

theorem fragment_of_shownAt {k : Span.Kind} (hk : x.shownAt e = some k) :
    (r.spanAt home).toReport.Fragment r := by
  have hshows := h.shows_spanAt hend he hk
  obtain ⟨rfl, -⟩ := Exchange.shownAt_eq_some_iff.1 hk
  apply h.toHosted.fragment_of_shows h.call_ne hend he hshows
  · rw [← x.moment_start]
    exact h.mem_events k.start
  · rw [← x.moment_finish]
    exact h.mem_events k.finish
  · intro remote hremote
    obtain ⟨k', m, hm, hholds, hflag⟩ := exists_start_of_remoteAt h.call_ne hremote
    have hmem := h.address_mem_flags hflag
    have hne : x.client ≠ x.server := fun hcs => (h.mem_flags hmem).1 (by rw [hcs])
    obtain rfl := Exchange.eq_of_host_eq hne (h.host_eq_of_holds hend he hm hholds)
    exact mem_tags_iff.2 (.inr hmem)
  · cases k with
    | client => exact .inr (h.time_spanAt hend he hk)
    | server => exact .inl (hshows.time_toReport_of_shared (by simp [h.shared_spanAt hend he hk]))

/-- The span of a host on neither side of the call. -/
theorem fragment_of_bystander (hk : x.shownAt e = none) : (r.spanAt home).toReport.Fragment r := by
  have hside : r.sideAt home = {} := by rw [h.sideAt_eq hend he, hk]
  have hne := Exchange.shownAt_eq_none_iff.1 hk
  have hcore : (r.spanAt home).coreEvents = [] :=
    Span.coreEvents_eq_nil (h.toHosted.coreFree_spanAt h.call_ne hend he) (congrArg Side.kind hside)
  have hremote : r.remoteAt home = none := by
    rw [Option.eq_none_iff_forall_ne_some]
    intro remote hremote
    obtain ⟨k, m, hm, hholds, -⟩ := exists_start_of_remoteAt h.call_ne hremote
    exact hne k (h.host_eq_of_holds hend he hm hholds)
  have htime : (r.spanAt home).timestamp = none := by
    show timestamp? (r.sideAt home).timestamp = none
    rw [hside]
    rfl
  apply h.toHosted.fragment_spanAt h.call_ne hend he
  · simp [hcore]
  · have : (r.spanAt home).addressTags = [] := Span.addressTags_eq_nil hremote
    simp [this]
  -- A bystander told of something, which cannot be a core event, so its host needs no tag.
  · apply Span.hostTag_eq_nil
    rcases mem_reporters_iff.1 he with ⟨y, hy, hye⟩ | ⟨t, ht, hte⟩
    · left
      refine ⟨y, (h.toHosted.mem_otherEvents_iff h.call_ne hend he).2 ⟨hy, ?_, hye⟩⟩
      rw [Option.eq_none_iff_forall_ne_some]
      intro core hcore
      obtain ⟨m, rfl⟩ := Event.core?_eq_some_iff.1 hcore
      obtain rfl := Option.some.inj (h.happened.mem_events_iff.1 hy)
      apply hne (sideOf core)
      rw [← x.endpoint_moment]
      exact Option.some.inj hye
    · exact .inr (.inr ⟨t, (h.toHosted.mem_textTags_iff hend he).2 ⟨ht, hte⟩⟩)
  · exact .inl (Span.time_toReport_of_timestamp_eq_none htime)

end

/-- The server's span of a host that called itself. -/
theorem loopback?_eq_some_iff {s : Span} : r.loopback? = some s ↔ x.client = x.server
    ∧ s = r.toSpan (some x.server) (.ofCall .server (x.start .server) (x.finish .server) true) := by
  simp only [loopback?, h.call_eq, h.serverSide_eq]
  show (if x.client.sameService x.server = true then some _ else none) = some s ↔ _
  rw [Option.ite_none_right_eq_some, h.sameService_iff, Option.some.injEq, eq_comm (b := s)]
  rfl

theorem shows_loopback {s : Span} (hs : r.loopback? = some s) :
    s.Shows .server x.server (x.start .server) (x.finish .server) := by
  obtain ⟨-, rfl⟩ := h.loopback?_eq_some_iff.1 hs
  exact shows_toSpan r _ _ (h.start_ne_zero .server) (h.ahead .server)

theorem fragment_loopback {s : Span} (hs : r.loopback? = some s) : s.toReport.Fragment r := by
  have hshows := h.shows_loopback hs
  obtain ⟨-, rfl⟩ := h.loopback?_eq_some_iff.1 hs
  apply (h.normal.describes_toSpan _ _).fragment h.normal
  · exact .inl (hshows.time_toReport_of_shared rfl)
  · intro e he
    rcases Span.mem_events_toReport.1 he with he | he
    · cases he
    · rcases hshows.mem_coreEvents.1 he with rfl | rfl
      · exact h.mem_events .serverReceive
      · exact h.mem_events .serverSend
  · intro t ht
    rcases Span.mem_tags_toReport.1 ht with ht | ht | ht
    · cases ht
    · obtain ⟨remote, hremote, -⟩ := hshows.mem_addressTags.1 ht
      cases hremote
    · rw [hshows.hostTag_eq_nil] at ht
      cases ht

theorem fragment {s : Span} (hs : s ∈ r.toSpans) : s.toReport.Fragment r := by
  rcases mem_toSpans_iff.1 hs with ⟨home, hhome, rfl⟩ | hs
  · have hne : r.reporters ≠ [] := List.ne_nil_of_mem (h.host_mem_reporters .client)
    obtain ⟨e, he, hend⟩ := h.toHosted.exists_reporter h.call_ne hhome hne
    cases hk : x.shownAt e with
    | none => exact h.fragment_of_bystander hend he hk
    | some k => exact h.fragment_of_shownAt hend he hk
  · exact h.fragment_loopback hs

/-- The span of the home of a host is one of the spans. -/
theorem exists_spanAt {e : Endpoint} (he : e ∈ r.reporters) :
    ∃ home, home.endpoint = some e ∧ r.spanAt home ∈ r.toSpans := by
  obtain ⟨home, hhome, hend⟩ := h.toHosted.exists_home h.call_ne he
  exact ⟨home, hend, mem_toSpans_iff.2 (.inl ⟨home, hhome, rfl⟩)⟩

/-- Each side of the call is shown by a span. -/
theorem exists_shows (k : Span.Kind) :
    ∃ s ∈ r.toSpans, s.Shows k (x.host k) (x.start k) (x.finish k) := by
  by_cases hk : k = .client ∨ x.client ≠ x.server
  · obtain ⟨home, hend, hmem⟩ := h.exists_spanAt (h.host_mem_reporters k)
    exact ⟨_, hmem, h.shows_spanAt hend (h.host_mem_reporters k) (Exchange.shownAt_host hk)⟩
  · obtain ⟨hclient, hsame⟩ := not_or.1 hk
    cases k with
    | client => exact absurd rfl hclient
    | server =>
      have hs := h.loopback?_eq_some_iff.2 ⟨not_not.1 hsame, rfl⟩
      exact ⟨_, mem_toSpans_iff.2 (.inr hs), h.shows_loopback hs⟩

theorem exists_time : ∃ s ∈ r.toSpans, s.toReport.time = r.time := by
  obtain ⟨home, hend, hmem⟩ := h.exists_spanAt (h.host_mem_reporters .client)
  have hshown : x.shownAt (x.host .client) = some .client := Exchange.shownAt_host (.inl rfl)
  exact ⟨_, hmem, h.time_spanAt hend (h.host_mem_reporters .client) hshown⟩

theorem exists_event {e : Event} (he : e ∈ r.events) :
    ∃ s ∈ r.toSpans, e ∈ s.toReport.events := by
  cases hcore : e.core? with
  | none =>
    obtain ⟨host, hhost⟩ := Option.isSome_iff_exists.1 (h.events e he)
    have hmem := mem_reporters_iff.2 (.inl ⟨e, he, hhost⟩)
    obtain ⟨home, hend, hs⟩ := h.exists_spanAt hmem
    refine ⟨_, hs, Span.mem_events_toReport.2 (.inl ?_)⟩
    exact (h.toHosted.mem_otherEvents_iff h.call_ne hend hmem).2 ⟨he, hcore, hhost⟩
  | some core =>
    obtain ⟨m, rfl⟩ := Event.core?_eq_some_iff.1 hcore
    obtain rfl := Option.some.inj (h.happened.mem_events_iff.1 he)
    obtain ⟨s, hs, hshows⟩ := h.exists_shows (sideOf core)
    refine ⟨s, hs, Span.mem_events_toReport.2 (.inr (hshows.mem_coreEvents.2 ?_))⟩
    rw [← x.moment_start, ← x.moment_finish]
    cases core with
    | clientSend | serverReceive => exact .inl rfl
    | clientReceive | serverSend => exact .inr rfl

theorem exists_tag {t : Tag} (ht : t ∈ r.tags) : ∃ s ∈ r.toSpans, t ∈ s.toReport.tags := by
  rcases mem_tags_iff.1 ht with ht | ht
  · obtain ⟨host, hhost⟩ := Option.isSome_iff_exists.1 (h.texts t ht)
    have hmem := mem_reporters_iff.2 (.inr ⟨t, ht, hhost⟩)
    obtain ⟨home, hend, hs⟩ := h.exists_spanAt hmem
    refine ⟨_, hs, Span.mem_tags_toReport.2 (.inl ?_)⟩
    exact (h.toHosted.mem_textTags_iff hend hmem).2 ⟨ht, hhost⟩
  · obtain ⟨hservice, k, rfl, hflag⟩ := h.mem_flags ht
    have hne : x.client ≠ x.server := fun hcs => hservice (by rw [hcs])
    have hmem := h.host_mem_reporters k
    obtain ⟨home, hend, hs⟩ := h.exists_spanAt hmem
    have hshown : x.shownAt (x.host k) = some k := Exchange.shownAt_host (.inr hne)
    refine ⟨_, hs, Span.mem_tags_toReport.2 (.inr (.inl ?_))⟩
    refine (h.shows_spanAt hend hmem hshown).mem_addressTags.2 ⟨_, ?_, rfl⟩
    apply remoteAt_eq_some h.call_ne (h.happened.moment?_eq k.start) _ hflag
    · rw [x.moment_start]
      cases k
      · exact hservice.symm
      · exact hservice
    · intro k' m' hm' hholds
      exact Exchange.eq_of_host_eq hne (h.host_eq_of_holds hend hmem hm' hholds)
    · rw [h.holds_moment_iff hend hmem, k.sideOf_start]

/-- The reports of the spans of a call, merged in their order, restore the report of the call. -/
theorem mergeAll?_toSpans : mergeAll? (r.toSpans.map Span.toReport) = some r := by
  apply mergeAll?_eq_some h.normal <;> simp only [List.mem_map, exists_exists_and_eq_and]
  · rintro - ⟨s, hs, rfl⟩
    exact h.fragment hs
  · exact h.exists_time
  · exact fun e he => h.exists_event he
  · exact fun t ht => h.exists_tag ht

end SharedCall

/-- A query of a database whose clock is behind that of the client. A cache tells of it as well. -/
def query : Exchange where
  client := { service := "web" }
  server := { service := "db", port := some 5432 }
  send := 100
  receive := 40
  reply := 90
  done := 170

def queryReport : Report where
  traceId := ⟨0, 1⟩
  id := 2
  parentId := some 1
  name := some "query"
  timestamp := some 100
  duration := some 70
  events := [
    { timestamp := 40, value := "sr", endpoint := some query.server },
    { timestamp := 90, value := "ss", endpoint := some query.server },
    { timestamp := 100, value := "cs", endpoint := some query.client },
    { timestamp := 105, value := "miss", endpoint := some { service := "cache" } },
    { timestamp := 170, value := "cr", endpoint := some query.client }]
  tags := [
    Tag.address "ca" query.client,
    Tag.ofText "rows" "3" (some query.server),
    Tag.ofText "rows" "3" (some query.client),
    Tag.address "sa" query.server]

theorem sharedCall_queryReport : queryReport.SharedCall query where
  normal := {
    events := by decide
    tags := by decide
    name := by
      intro name h
      obtain rfl := Option.some.inj h
      decide
    timestamp := by decide
    duration := by decide }
  events := by decide
  texts := by decide
  service := by decide
  keys := by decide
  component := by decide
  exchanged core := by cases core <;> decide
  clientAhead := by decide
  received := by decide
  serverAhead := by decide
  timestamp := rfl
  duration := by decide
  flags := .inr ⟨by decide, by decide⟩

theorem mergeAll?_toSpans_queryReport : queryReport.SharedCall query
    ∧ mergeAll? (queryReport.toSpans.map Span.toReport) = some queryReport :=
  ⟨sharedCall_queryReport, sharedCall_queryReport.mergeAll?_toSpans⟩

end TraceArchive.Report
