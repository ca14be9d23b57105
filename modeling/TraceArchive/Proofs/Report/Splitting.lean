import TraceArchive.Proofs.Report.Services

set_option autoImplicit false

/-!
How a call is split that a report tells from both of its sides. One span shows the client's side and
one the server's, each on the service of its core events and with its own time, whatever the order
of the events, and also where a service called itself. All other spans tell neither a side nor a
time.
-/

namespace TraceArchive.Report

/-- A call told from both of its sides, each of which may lack its end. The core events of a side
are on one service, and no other core event is on a known host. -/
structure BothSides (r : Report) (start : Span.Kind → Moment) (finish : Span.Kind → Option Moment) :
    Prop where
  started : ∀ k, r.moments k.start = [start k]
  finished : ∀ k, r.moments k.finish = (finish k).toList
  service : ∀ k, ∀ m ∈ finish k, m.endpoint.service = (start k).endpoint.service

/-- The span starts at an instant; the instant zero is no time to start. -/
def StartsAt (s : Span) (t : UInt64) : Prop := s.timestamp = if t = 0 then none else some t

/-- The span takes a number of microseconds, and one at least. -/
def Takes (s : Span) (n : Nat) : Prop := s.duration.map UInt64.toNat = some (max 1 n)

/-- The span has the time of the core events of a side. It takes none where the side has no end, and
a microsecond where the side ends before it starts. -/
def TimedBy (s : Span) (start : Moment) (finish : Option Moment) : Prop :=
  StartsAt s start.timestamp ∧ (finish = none → s.duration = none)
    ∧ ∀ m, finish = some m → Takes s (m.timestamp.toNat - start.timestamp.toNat)

/-- One span shows the client's side of a call, one the server's side, and no other span shows any
side or time. -/
structure SplitInto (r : Report) (start : Span.Kind → Moment) (finish : Span.Kind → Option Moment)
    (client server : Span) : Prop where
  clients : r.toSpans.filter (·.kind = some .client) = [client]
  servers : r.toSpans.filter (·.kind = some .server) = [server]
  shared : r.toSpans.filter (·.shared) = [server]
  bystanders : ∀ s ∈ r.toSpans, s.kind = none → s.timestamp = none ∧ s.duration = none
  clientService : client.hostService? = some (start .client).endpoint.service
  serverService : server.hostService? = some (start .server).endpoint.service
  serverTime : TimedBy server (start .server) (finish .server)
  /-- The client has the time of the report, if that is complete. -/
  reportTime : ∀ t d, r.timestamp = some t → r.duration = some d →
    StartsAt client t ∧ Takes client d.toNat
  /-- Otherwise it has the time of its core events. -/
  clientTime : r.timestamp = none ∨ r.duration = none →
    TimedBy client (start .client) (finish .client)

theorem startsAt_of_timestamp {s : Span} {t : UInt64} (h : s.timestamp = timestamp? (some t)) :
    StartsAt s t :=
  h.trans (timestamp?_some t)

theorem takes_of_duration {s : Span} {d : UInt64} (h : s.duration = duration? (some d)) :
    Takes s d.toNat := by
  rw [Takes, h, duration?, Option.map_some, Option.map_some, toNat_max_one]

theorem Takes.duration_eq {s : Span} {n : Nat} (h : Takes s n) {d : UInt64}
    (hd : d.toNat = max 1 n) : s.duration = some d := by
  obtain ⟨d', hd', hn⟩ := Option.map_eq_some_iff.1 h
  rw [hd', UInt64.toNat_inj.1 (hn.trans hd.symm)]

/-- The time that a side of a call is given. -/
theorem timedBy_of_eq {s : Span} {start : Moment} {finish : Option Moment}
    (hstart : s.timestamp = timestamp? (some start.timestamp))
    (hduration : s.duration
      = duration? (finish.map fun m => timeBetween start.timestamp m.timestamp)) :
    TimedBy s start finish := by
  refine ⟨startsAt_of_timestamp hstart, ?_, ?_⟩
  · rintro rfl
    exact hduration
  · rintro m rfl
    rw [← toNat_timeBetween]
    exact takes_of_duration hduration

theorem timed_of_incomplete {r : Report} (side : Side) (start : Moment) (finish : Option Moment)
    (h : r.timestamp = none ∨ r.duration = none) : r.timed side start finish = { side with
      timestamp := some start.timestamp
      duration := finish.map fun m => timeBetween start.timestamp m.timestamp } := by
  unfold timed
  split
  · simp_all
  · rfl

namespace BothSides

variable {r : Report} {start : Span.Kind → Moment} {finish : Span.Kind → Option Moment}
  (h : r.BothSides start finish)

include h

theorem moment?_start (k : Span.Kind) : r.moment? k.start = some (start k) :=
  moment?_eq_of_moments (h.started k)

theorem moment?_finish (k : Span.Kind) : r.moment? k.finish = finish k :=
  moment?_eq_of_moments (h.finished k)

theorem call_eq :
    r.call = .shared (start .client) (start .server) (finish .server) (finish .client) := by
  have hcs : r.moment? .clientSend = _ := h.moment?_start .client
  have hsr : r.moment? .serverReceive = _ := h.moment?_start .server
  have hss : r.moment? .serverSend = _ := h.moment?_finish .server
  have hcr : r.moment? .clientReceive = _ := h.moment?_finish .client
  simp only [call, hcs, hsr, hss, hcr]

theorem call_ne : r.call ≠ .incomplete := by
  rw [h.call_eq]
  exact Call.noConfusion

theorem start_mem (k : Span.Kind) : k.start.event (start k) ∈ r.events :=
  mem_moments_iff.1 (by rw [h.started k]; exact List.mem_singleton_self _)

/-- All core events of a side are on the service where the side starts. -/
theorem service_eq {core : CoreEvent} {m : Moment} (hm : core.event m ∈ r.events) :
    m.endpoint.service = (start (sideOf core)).endpoint.service := by
  have hmem := mem_moments_iff.2 hm
  obtain ⟨k, hk⟩ : ∃ k, sideOf core = k := ⟨_, rfl⟩
  rw [hk]
  rcases Span.Kind.eq_start_or_finish hk with rfl | rfl
  · rw [h.started, List.mem_singleton] at hmem
    rw [hmem]
  · rw [h.finished, Option.mem_toList] at hmem
    exact h.service k m hmem

omit h in
/-- Between two services, the service tells the side. -/
theorem eq_of_service_eq
    (hapart : (start .client).endpoint.service ≠ (start .server).endpoint.service)
    {k k' : Span.Kind} (hk : (start k).endpoint.service = (start k').endpoint.service) :
    k = k' := by
  cases k <;> cases k'
  · rfl
  · exact absurd hk hapart
  · exact absurd hk.symm hapart
  · rfl

section

variable {home : Home}

theorem kindAt_eq_some
    (hapart : (start .client).endpoint.service ≠ (start .server).endpoint.service)
    {k : Span.Kind} (hhome : home.service? = some (start k).endpoint.service) :
    r.kindAt home = some k := by
  apply kindAt_eq_of_mem_iff
  intro k'
  constructor
  · rintro ⟨core, m, hm, hholds, rfl⟩
    have hservice := Option.some.inj (hhome.symm.trans (Home.holds_some_iff.1 hholds))
    exact congrArg some (eq_of_service_eq hapart (hservice.trans (h.service_eq hm)))
  · intro hk
    obtain rfl := Option.some.inj hk
    exact ⟨k.start, start k, h.start_mem k, Home.holds_some_iff.2 hhome, k.sideOf_start⟩

theorem kindAt_eq_none (hhome : ∀ k, home.service? ≠ some (start k).endpoint.service) :
    r.kindAt home = none := by
  rw [Option.eq_none_iff_forall_ne_some]
  intro k hk
  obtain ⟨core, m, hm, hholds, -⟩ := exists_event_of_kindAt hk
  apply hhome (sideOf core)
  rw [← h.service_eq hm]
  exact Home.holds_some_iff.1 hholds

/-- Where a service called itself its home shows the client's side, whatever core event was last. -/
theorem sideAt_client (hhome : home.service? = some (start .client).endpoint.service) :
    r.sideAt home = r.timed { kind := some .client } (start .client) (finish .client) := by
  have hholds : home.holds (some (start .client).endpoint) = true := Home.holds_some_iff.2 hhome
  simp only [sideAt, h.call_eq, hholds, if_true]
  by_cases hsame : (start .client).endpoint.service = (start .server).endpoint.service
  · simp [Endpoint.sameService, hsame]
  · simp [Endpoint.sameService, hsame, h.kindAt_eq_some hsame hhome]

theorem sideAt_server
    (hapart : (start .client).endpoint.service ≠ (start .server).endpoint.service)
    (hhome : home.service? = some (start .server).endpoint.service) :
    r.sideAt home = serverSide (some .server) (start .server) (finish .server) := by
  have hsend : home.holds (some (start .client).endpoint) = false := by
    apply Home.holds_eq_false
    rw [hhome]
    exact fun he => hapart (Option.some.inj he).symm
  have hreceive : home.holds (some (start .server).endpoint) = true := Home.holds_some_iff.2 hhome
  simp only [sideAt, h.call_eq, hsend, hreceive, h.kindAt_eq_some hapart hhome, if_true,
    Bool.false_eq_true, if_false]

theorem sideAt_bystander (hhome : ∀ k, home.service? ≠ some (start k).endpoint.service) :
    r.sideAt home = {} := by
  simp only [sideAt, h.call_eq, Home.holds_eq_false (hhome .client),
    Home.holds_eq_false (hhome .server), h.kindAt_eq_none hhome, Bool.false_eq_true, if_false]

end

/-- The server's end of a call to itself has a span beside the home of the service. -/
theorem loopback?_eq :
    r.loopback? = if (start .client).endpoint.service = (start .server).endpoint.service then
      some (r.toSpan (some (start .server).endpoint)
        (serverSide (some .server) (start .server) (finish .server)))
    else none := by
  simp only [loopback?, h.call_eq, Endpoint.sameService, decide_eq_true_eq]

/-! The spans of the homes, and which of them show a side. -/

/-- A home shows the client's side, the server's side or none. -/
theorem sideAt_cases (home : Home) :
    (home.service? = some (start .client).endpoint.service
        ∧ r.sideAt home = r.timed { kind := some .client } (start .client) (finish .client))
      ∨ (home.service? = some (start .server).endpoint.service
        ∧ (start .client).endpoint.service ≠ (start .server).endpoint.service
        ∧ r.sideAt home = serverSide (some .server) (start .server) (finish .server))
      ∨ (∀ k, home.service? ≠ some (start k).endpoint.service) ∧ r.sideAt home = {} := by
  by_cases hclient : home.service? = some (start .client).endpoint.service
  · exact .inl ⟨hclient, h.sideAt_client hclient⟩
  by_cases hserver : home.service? = some (start .server).endpoint.service
  · have hapart : (start .client).endpoint.service ≠ (start .server).endpoint.service :=
      fun he => hclient (he ▸ hserver)
    exact .inr (.inl ⟨hserver, hapart, h.sideAt_server hapart hserver⟩)
  · have hnone : ∀ k, home.service? ≠ some (start k).endpoint.service := by
      intro k
      cases k
      · exact hclient
      · exact hserver
    exact .inr (.inr ⟨hnone, h.sideAt_bystander hnone⟩)

theorem kind_spanAt_eq_client_iff (home : Home) : (r.spanAt home).kind = some .client
    ↔ home.service? = some (start .client).endpoint.service := by
  rw [kind_spanAt]
  rcases h.sideAt_cases home with ⟨hhome, hside⟩ | ⟨hhome, hapart, hside⟩ | ⟨hhome, hside⟩
  · rw [hside, kind_timed]
    exact iff_of_true rfl hhome
  · rw [hside, hhome]
    exact iff_of_false nofun fun he => hapart (Option.some.inj he).symm
  · rw [hside]
    exact iff_of_false nofun (hhome .client)

theorem kind_spanAt_eq_server_iff (home : Home) : (r.spanAt home).kind = some .server
    ↔ home.service? = some (start .server).endpoint.service
      ∧ (start .client).endpoint.service ≠ (start .server).endpoint.service := by
  rw [kind_spanAt]
  rcases h.sideAt_cases home with ⟨hhome, hside⟩ | ⟨hhome, hapart, hside⟩ | ⟨hhome, hside⟩
  · rw [hside, kind_timed, hhome]
    exact iff_of_false nofun fun he => he.2 (Option.some.inj he.1)
  · rw [hside]
    exact iff_of_true rfl ⟨hhome, hapart⟩
  · rw [hside]
    exact iff_of_false nofun fun he => hhome .server he.1

theorem shared_spanAt_iff (home : Home) :
    (r.spanAt home).shared = true ↔ (r.spanAt home).kind = some .server := by
  rw [shared_spanAt, kind_spanAt]
  rcases h.sideAt_cases home with ⟨-, hside⟩ | ⟨-, -, hside⟩ | ⟨-, hside⟩
  · rw [hside, shared_timed, kind_timed]
    exact iff_of_false nofun nofun
  · rw [hside]
    exact iff_of_true rfl rfl
  · rw [hside]
    exact iff_of_false nofun nofun

/-- The home of a side. -/
theorem exists_home (k : Span.Kind) : ∃ home ∈ r.homes, ∀ other ∈ r.homes,
    other.service? = some (start k).endpoint.service ↔ other = home :=
  exists_homeOf (endpoint_mem_told (h.start_mem k))

theorem exists_client : ∃ home, home.service? = some (start .client).endpoint.service
    ∧ r.toSpans.filter (·.kind = some .client) = [r.spanAt home] := by
  obtain ⟨home, hhome, hsole⟩ := h.exists_home .client
  refine ⟨home, (hsole home hhome).2 rfl, filter_toSpans_of_home hhome ?_ ?_⟩
  · intro other hother
    rw [decide_eq_true_iff, h.kind_spanAt_eq_client_iff, hsole other hother]
  · intro s hs
    rw [h.loopback?_eq] at hs
    obtain ⟨-, hs⟩ := Option.ite_none_right_eq_some.1 hs
    rw [← Option.some.inj hs]
    exact decide_eq_false nofun

/-- Between two services the server's side is shown by its home. -/
theorem exists_server
    (hapart : (start .client).endpoint.service ≠ (start .server).endpoint.service) :
    ∃ home, home.service? = some (start .server).endpoint.service
      ∧ r.toSpans.filter (·.kind = some .server) = [r.spanAt home]
      ∧ r.toSpans.filter (·.shared) = [r.spanAt home] := by
  obtain ⟨home, hhome, hsole⟩ := h.exists_home .server
  have hloop : r.loopback? = none := by rw [h.loopback?_eq, if_neg hapart]
  have hkind : ∀ other ∈ r.homes, (r.spanAt other).kind = some .server ↔ other = home := by
    intro other hother
    rw [h.kind_spanAt_eq_server_iff, and_iff_left hapart, hsole other hother]
  refine ⟨home, (hsole home hhome).2 rfl, filter_toSpans_of_home hhome ?_ ?_,
    filter_toSpans_of_home hhome ?_ ?_⟩
  · intro other hother
    rw [decide_eq_true_iff, hkind other hother]
  · rw [hloop]
    intro s hs
    cases hs
  · intro other hother
    rw [h.shared_spanAt_iff, hkind other hother]
  · rw [hloop]
    intro s hs
    cases hs

/-- Where a service called itself the server's side has a span of its own. -/
theorem filter_server_of_same
    (hsame : (start .client).endpoint.service = (start .server).endpoint.service) :
    ∃ s, s = r.toSpan (some (start .server).endpoint)
        (serverSide (some .server) (start .server) (finish .server))
      ∧ r.toSpans.filter (·.kind = some .server) = [s]
      ∧ r.toSpans.filter (·.shared) = [s] := by
  have hkind : ∀ home, (r.spanAt home).kind ≠ some .server := fun home hk =>
    ((h.kind_spanAt_eq_server_iff home).1 hk).2 hsame
  refine ⟨_, rfl, filter_toSpans_of_loopback ?_ ?_ ?_, filter_toSpans_of_loopback ?_ ?_ ?_⟩
  · rw [h.loopback?_eq, if_pos hsame]
  · exact decide_eq_true rfl
  · exact fun home _ => decide_eq_false (hkind home)
  · rw [h.loopback?_eq, if_pos hsame]
  · rfl
  · exact fun home _ => Bool.eq_false_iff.2 (mt (h.shared_spanAt_iff home).1 (hkind home))

theorem bystander_untimed {s : Span} (hs : s ∈ r.toSpans) (hkind : s.kind = none) :
    s.timestamp = none ∧ s.duration = none := by
  rcases mem_toSpans_iff.1 hs with ⟨home, -, rfl⟩ | hloop
  · rw [kind_spanAt] at hkind
    rw [timestamp_spanAt, duration_spanAt]
    rcases h.sideAt_cases home with ⟨-, hside⟩ | ⟨-, -, hside⟩ | ⟨-, hside⟩
    · rw [hside, kind_timed] at hkind
      cases hkind
    · rw [hside] at hkind
      cases hkind
    · rw [hside]
      exact ⟨rfl, rfl⟩
  · rw [h.loopback?_eq] at hloop
    obtain ⟨-, hs⟩ := Option.ite_none_right_eq_some.1 hloop
    rw [← Option.some.inj hs] at hkind
    cases hkind

/-- The server's side is the same, whether its home or a span of its own shows it. -/
theorem exists_serverSide : ∃ server,
    r.toSpans.filter (·.kind = some .server) = [server] ∧ r.toSpans.filter (·.shared) = [server]
      ∧ server.hostService? = some (start .server).endpoint.service
      ∧ TimedBy server (start .server) (finish .server) := by
  by_cases hsame : (start .client).endpoint.service = (start .server).endpoint.service
  · obtain ⟨s, rfl, hserver, hshared⟩ := h.filter_server_of_same hsame
    exact ⟨_, hserver, hshared, rfl, timedBy_of_eq rfl rfl⟩
  · obtain ⟨home, hhome, hserver, hshared⟩ := h.exists_server hsame
    have hside := h.sideAt_server hsame hhome
    refine ⟨_, hserver, hshared, hhome, timedBy_of_eq ?_ ?_⟩
    · rw [timestamp_spanAt, hside]
      rfl
    · rw [duration_spanAt, hside]
      rfl

/-- A call told from both sides is split into its two sides. -/
theorem toSpans_splitInto : ∃ client server, r.SplitInto start finish client server := by
  obtain ⟨home, hhome, hclients⟩ := h.exists_client
  obtain ⟨server, hservers, hshared, hservice, htime⟩ := h.exists_serverSide
  have hside := h.sideAt_client hhome
  refine ⟨r.spanAt home, server, ?_⟩
  constructor
  · exact hclients
  · exact hservers
  · exact hshared
  · exact fun s hs => h.bystander_untimed hs
  · exact hhome
  · exact hservice
  · exact htime
  · intro t d ht hd
    have hclient := hside.trans (timed_eq ht hd _ _ _)
    refine ⟨startsAt_of_timestamp ?_, takes_of_duration ?_⟩
    · rw [timestamp_spanAt, hclient]
    · rw [duration_spanAt, hclient]
  · intro hincomplete
    have hclient := hside.trans (timed_of_incomplete _ _ _ hincomplete)
    apply timedBy_of_eq
    · rw [timestamp_spanAt, hclient]
    · rw [duration_spanAt, hclient]

end BothSides

/-- A database answers a query by a clock that is behind, and its client never tells of the answer.
A cache tells of the query as well. -/
def unansweredQuery : Report where
  traceId := ⟨0, 1⟩
  id := 2
  name := some "query"
  timestamp := some 99
  events := [
    { timestamp := 40, value := "sr", endpoint := some { service := "db", port := some 5432 } },
    { timestamp := 90, value := "ss", endpoint := some { service := "db" } },
    { timestamp := 95, value := "cs" },
    { timestamp := 100, value := "cs", endpoint := some { service := "web" } },
    { timestamp := 105, value := "miss", endpoint := some { service := "cache" } }]

def queryStart : Span.Kind → Moment
  | .client => ⟨100, { service := "web" }⟩
  | .server => ⟨40, { service := "db", port := some 5432 }⟩

def queryFinish : Span.Kind → Option Moment
  | .client => none
  | .server => some ⟨90, { service := "db" }⟩

theorem bothSides_unansweredQuery : unansweredQuery.BothSides queryStart queryFinish where
  started k := by cases k <;> decide +kernel
  finished k := by cases k <;> decide +kernel
  service k m hm := by
    cases k with
    | client => cases hm
    | server =>
      obtain rfl := Option.some.inj hm
      rfl

/-- A service calls itself while its clock goes back. The call starts with the clock. -/
def ownQuery : Report where
  traceId := ⟨0, 1⟩
  id := 3
  events := [
    { timestamp := 0, value := "cs", endpoint := some { service := "web" } },
    { timestamp := 30, value := "cr", endpoint := some { service := "web" } },
    { timestamp := 40, value := "ss", endpoint := some { service := "web" } },
    { timestamp := 90, value := "sr", endpoint := some { service := "web" } }]

def ownQueryStart : Span.Kind → Moment
  | .client => ⟨0, { service := "web" }⟩
  | .server => ⟨90, { service := "web" }⟩

def ownQueryFinish : Span.Kind → Moment
  | .client => ⟨30, { service := "web" }⟩
  | .server => ⟨40, { service := "web" }⟩

theorem bothSides_ownQuery :
    ownQuery.BothSides ownQueryStart fun k => some (ownQueryFinish k) where
  started k := by cases k <;> decide +kernel
  finished k := by cases k <;> decide +kernel
  service k m hm := by
    obtain rfl := Option.some.inj hm
    cases k <;> rfl

/-- The database took 50 microseconds by its own clock. The report tells no duration, so its start
does not count either: the client's span starts where the query was sent, and has no end. Where the
server ended before it started, its span takes one microsecond, and a start at zero is not told. -/
theorem toSpans_splitInto_unansweredQuery :
    (unansweredQuery.BothSides queryStart queryFinish
      ∧ ∃ client server, unansweredQuery.SplitInto queryStart queryFinish client server
        ∧ client.timestamp = some 100 ∧ client.duration = none
        ∧ server.timestamp = some 40 ∧ server.duration = some 50)
    ∧ (ownQuery.BothSides ownQueryStart fun k => some (ownQueryFinish k))
      ∧ ∃ client server,
        ownQuery.SplitInto ownQueryStart (fun k => some (ownQueryFinish k)) client server
        ∧ client.timestamp = none ∧ client.duration = some 30
        ∧ server.timestamp = some 90 ∧ server.duration = some 1 := by
  constructor
  · obtain ⟨client, server, hsplit⟩ := bothSides_unansweredQuery.toSpans_splitInto
    obtain ⟨hclient, hendless, -⟩ := hsplit.clientTime (.inr rfl)
    obtain ⟨hserver, -, htakes⟩ := hsplit.serverTime
    exact ⟨bothSides_unansweredQuery, client, server, hsplit, hclient, hendless rfl, hserver,
      (htakes _ rfl).duration_eq rfl⟩
  · obtain ⟨client, server, hsplit⟩ := bothSides_ownQuery.toSpans_splitInto
    obtain ⟨hclient, -, hclientTakes⟩ := hsplit.clientTime (.inr rfl)
    obtain ⟨hserver, -, hserverTakes⟩ := hsplit.serverTime
    exact ⟨bothSides_ownQuery, client, server, hsplit, hclient,
      (hclientTakes _ rfl).duration_eq rfl, hserver, (hserverTakes _ rfl).duration_eq rfl⟩

end TraceArchive.Report
