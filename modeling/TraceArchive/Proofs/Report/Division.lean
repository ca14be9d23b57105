import Mathlib.Data.List.Dedup
import TraceArchive.Proofs.Report.Parts
import TraceArchive.Proofs.Report.Telling

set_option autoImplicit false

/-!
How a report is divided into spans. Every service has one span, apart from a service that called
itself, whose server has a second one. Events and texts are on the first span of their service.
-/

namespace TraceArchive

/-- The service of the host that a span is about. -/
def Span.hostService? (s : Span) : Option String := s.localEndpoint.map (·.service)

/-- The first span of the service, or the first of all spans for what has no endpoint. -/
def homeIn (spans : List Span) (e : Option Endpoint) : Option Span :=
  spans.find? fun s => e.all fun e => s.hostService? = some e.service

theorem find?_append_of_imp {α : Type} {p : α → Bool} {before middle : List α} (after : List α)
    (h : ∀ x ∈ middle, p x = true → ∃ y ∈ before, p y = true) :
    (before ++ middle ++ after).find? p = (before ++ after).find? p := by
  rw [List.find?_append, List.find?_append, List.find?_append]
  cases hbefore : before.find? p with
  | some x => rfl
  | none =>
    have hmiddle : middle.find? p = none := by
      apply List.find?_eq_none.2
      intro x hx hpx
      obtain ⟨y, hy, hpy⟩ := h x hx hpx
      exact List.find?_eq_none.1 hbefore y hy hpy
    rw [hmiddle]
    rfl

namespace Report

theorem nodup_services_onePerService (es : List Endpoint) :
    ((onePerService es).map (·.service)).Nodup := by
  induction es with
  | nil => exact List.nodup_nil
  | cons e es ih =>
    rw [onePerService, List.map_cons, List.nodup_cons]
    refine ⟨fun h => ?_, ih.sublist (List.filter_sublist.map _)⟩
    obtain ⟨f, hf, hservice⟩ := List.mem_map.1 h
    simp [Endpoint.sameService, hservice] at hf

theorem onePerService_append (es fs : List Endpoint) : onePerService (es ++ fs)
    = onePerService es ++ (onePerService fs).filter fun f => es.all fun e => !e.sameService f := by
  induction es with
  | nil => simp [onePerService]
  | cons e es ih =>
    simp only [List.cons_append, onePerService, ih, List.filter_append, List.filter_filter,
      List.all_cons]

theorem hosts_eq_onePerService (r : Report) : r.hosts = onePerService r.told := by
  rw [told_eq]
  rfl

theorem mem_services_hosts {r : Report} {service : String} :
    service ∈ r.hosts.map (·.service) ↔ service ∈ r.told.map (·.service) := by
  simp only [hosts_eq_onePerService, List.mem_map]
  constructor
  · rintro ⟨e, he, rfl⟩
    exact ⟨e, mem_onePerService he, rfl⟩
  · rintro ⟨e, he, rfl⟩
    exact exists_mem_onePerService he

theorem nodup_services_hosts (r : Report) : (r.hosts.map (·.service)).Nodup := by
  rw [hosts_eq_onePerService]
  exact nodup_services_onePerService r.told

theorem length_hosts (r : Report) : r.hosts.length = (r.told.map (·.service)).dedup.length := by
  have hperm : (r.hosts.map (·.service)).Perm (r.told.map (·.service)).dedup := by
    apply (List.perm_ext_iff_of_nodup r.nodup_services_hosts (List.nodup_dedup _)).2
    intro service
    rw [mem_services_hosts, List.mem_dedup]
  rw [← hperm.length_eq, List.length_map]

theorem take_hosts (r : Report) : r.hosts.take r.eventHosts.length = r.eventHosts := by
  rw [hosts, eventHosts, List.append_assoc, onePerService_append, List.take_left]

/-! The homes. -/

def Home.service? (h : Home) : Option String := h.endpoint.map (·.service)

theorem Home.map_service_ofHosts {es : List Endpoint} (h : es ≠ []) :
    (ofHosts es).map service? = es.map fun e => some e.service := by
  cases es with
  | nil => contradiction
  | cons e es => simp [ofHosts, service?, Function.comp_def]

theorem length_homes (r : Report) : r.homes.length = max 1 r.hosts.length := by
  rw [homes]
  cases r.hosts <;> simp [Home.ofHosts]

theorem nodup_services_homes (r : Report) : (r.homes.map Home.service?).Nodup := by
  by_cases h : r.hosts = []
  · simp [homes, h, Home.ofHosts]
  · have : r.hosts.map (fun e => some e.service) = (r.hosts.map (·.service)).map some := by simp
    rw [homes, Home.map_service_ofHosts h, this]
    exact r.nodup_services_hosts.map fun _ _ => Option.some.inj

theorem some_mem_services_homes {r : Report} {service : String} :
    some service ∈ r.homes.map Home.service? ↔ service ∈ r.told.map (·.service) := by
  rw [← mem_services_hosts]
  by_cases h : r.hosts = []
  · simp [homes, h, Home.ofHosts, Home.service?]
  · rw [homes, Home.map_service_ofHosts h]
    simp

theorem Home.holds_some_iff {h : Home} {e : Endpoint} :
    h.holds (some e) = true ↔ h.service? = some e.service := by
  simp [holds, service?, Endpoint.sameService, Option.any_eq_true]

theorem Home.find?_ofHosts (es : List Endpoint) (e : Option Endpoint) :
    (ofHosts es).find? (·.holds e)
      = (ofHosts es).find? fun h => e.all fun e => h.service? = some e.service := by
  cases e with
  | none => cases es <;> rfl
  | some e =>
    congr 1
    funext h
    rw [Bool.eq_iff_iff, holds_some_iff]
    simp

/-- At most one home takes what an endpoint has. -/
theorem eq_of_holds {r : Report} {h k : Home} (hh : h ∈ r.homes) (hk : k ∈ r.homes)
    {e : Option Endpoint} (hhe : h.holds e = true) (hke : k.holds e = true) : h = k := by
  cases e with
  | none =>
    have first : ∀ l ∈ r.homes, l.holds none = true → some l = r.homes.head? := by
      rw [homes]
      intro l hl hfirst
      cases hes : r.hosts with
      | nil => simpa [hes, Home.ofHosts, eq_comm] using hl
      | cons e es =>
        rw [hes, Home.ofHosts, List.mem_cons, List.mem_map] at hl
        rcases hl with rfl | ⟨f, -, rfl⟩
        · rfl
        · cases hfirst
    exact Option.some.inj ((first h hh hhe).trans (first k hk hke).symm)
  | some e =>
    apply List.inj_on_of_nodup_map r.nodup_services_homes hh hk
    rw [Home.holds_some_iff.1 hhe, Home.holds_some_iff.1 hke]

theorem find?_homes_eq_some_iff {r : Report} {h : Home} (hh : h ∈ r.homes)
    {e : Option Endpoint} : r.homes.find? (·.holds e) = some h ↔ h.holds e = true := by
  constructor
  · exact List.find?_some (p := (Home.holds · e))
  · intro hhe
    cases hfind : r.homes.find? (·.holds e) with
    | none => exact absurd hhe (List.find?_eq_none.1 hfind h hh)
    | some k =>
      have hke : k.holds e = true := List.find?_some (p := (Home.holds · e)) hfind
      rw [eq_of_holds (List.mem_of_find?_eq_some hfind) hh hke hhe]

/-! Calls that a service makes to itself. -/

theorem moment?_of_call {r : Report} {send receive : Moment} {reply done : Option Moment}
    (h : r.call = .shared send receive reply done) :
    r.moment? .clientSend = some send ∧ r.moment? .serverReceive = some receive := by
  unfold call at h
  split at h <;> simp_all

theorem event_mem_of_moment? {r : Report} {core : CoreEvent} {m : Moment}
    (h : r.moment? core = some m) : core.event m ∈ r.events := by
  obtain ⟨e, he, hm⟩ := List.mem_filterMap.1 (List.mem_of_getLast? h)
  rwa [← momentOf?_eq_some_iff.1 hm]

theorem exists_of_loopback? {r : Report} {s : Span} (h : r.loopback? = some s) :
    ∃ send receive reply done, r.call = .shared send receive reply done
      ∧ send.endpoint.service = receive.endpoint.service
      ∧ s = r.toSpan (some receive.endpoint) (serverSide (some .server) receive reply) := by
  unfold loopback? at h
  split at h
  · next send receive reply done hcall =>
    split at h
    · next hsame =>
      exact ⟨send, receive, reply, done, hcall, by simpa [Endpoint.sameService] using hsame,
        (Option.some.inj h).symm⟩
    · cases h
  · cases h

theorem map_localEndpoint_loopback? (r : Report) :
    r.loopback?.map (·.localEndpoint) = r.ownServer?.map some := by
  cases hcs : r.moment? .clientSend with
  | none =>
    rw [loopback?_eq_none (.inl hcs), ownServer?_eq, hcs]
    rfl
  | some send =>
    cases hsr : r.moment? .serverReceive with
    | none =>
      rw [loopback?_eq_none (.inr hsr), ownServer?_eq, hcs, hsr]
      rfl
    | some receive =>
      simp only [loopback?, call, ownServer?_eq, hcs, hsr, Endpoint.sameService, decide_eq_true_eq]
      split <;> rfl

section

variable {r : Report}

theorem map_hostService?_spans : (r.homes.map r.spanAt).map Span.hostService?
    = r.homes.map Home.service? := by
  rw [List.map_map]
  rfl

theorem map_hostService?_take : ((r.homes.map r.spanAt).take r.eventHosts.length).map
    Span.hostService? = r.eventHosts.map fun e => some e.service := by
  by_cases h : r.hosts = []
  · have : r.eventHosts = [] := by rw [← take_hosts, h, List.take_nil]
    rw [this]
    rfl
  · rw [List.map_take, map_hostService?_spans, homes, Home.map_service_ofHosts h, ← List.map_take,
      take_hosts]

/-- The client's span comes before that of its own server. -/
theorem exists_client {s : Span} (h : r.loopback? = some s) :
    ∃ t ∈ (r.homes.map r.spanAt).take r.eventHosts.length, t.hostService? = s.hostService? := by
  obtain ⟨send, receive, reply, done, hcall, hservice, rfl⟩ := exists_of_loopback? h
  have hsend : send.endpoint ∈ r.events.filterMap (·.endpoint) :=
    List.mem_filterMap.2 ⟨_, event_mem_of_moment? (moment?_of_call hcall).1, rfl⟩
  obtain ⟨f, hf, hfs⟩ := exists_mem_onePerService hsend
  have hmem : some receive.endpoint.service ∈ ((r.homes.map r.spanAt).take
      r.eventHosts.length).map Span.hostService? := by
    rw [map_hostService?_take, List.mem_map]
    exact ⟨f, hf, by rw [hfs, hservice]⟩
  obtain ⟨t, ht, hts⟩ := List.mem_map.1 hmem
  exact ⟨t, ht, hts⟩

/-- The client's span has a kind of its own. -/
theorem spanAt_ne_loopback {s : Span} (h : r.loopback? = some s) (home : Home) :
    r.spanAt home ≠ s := by
  obtain ⟨send, receive, reply, done, hcall, hservice, rfl⟩ := exists_of_loopback? h
  intro heq
  have hend : home.endpoint = some receive.endpoint := congrArg Span.localEndpoint heq
  have hholds : home.holds (some send.endpoint) = true := by
    rw [Home.holds_some_iff, Home.service?, hend, hservice]
    rfl
  have hkind : (r.sideAt home).kind = some .server := congrArg Span.kind heq
  have hsame : send.endpoint.sameService receive.endpoint = true := by
    simpa [Endpoint.sameService] using hservice
  simp only [sideAt, hcall, hholds, hsame, if_true] at hkind
  unfold timed at hkind
  split at hkind <;> cases hkind

/-- The homes' spans in front of a loopback, and behind it. -/
theorem exists_split (r : Report) : ∃ before after : List Span,
    before ++ after = r.homes.map r.spanAt
      ∧ r.toSpans = before ++ r.loopback?.toList ++ after
      ∧ ∀ s ∈ r.loopback?.toList, ∃ t ∈ before, t.hostService? = s.hostService? :=
  ⟨_, _, List.take_append_drop .., rfl, fun _ hs => exists_client (Option.mem_toList.1 hs)⟩

theorem nodup_services_spans : ((r.homes.map r.spanAt).map Span.hostService?).Nodup := by
  rw [map_hostService?_spans]
  exact r.nodup_services_homes

theorem nodup_toSpans (r : Report) : r.toSpans.Nodup := by
  obtain ⟨before, after, hspans, heq, -⟩ := r.exists_split
  have hperm : (before ++ r.loopback?.toList ++ after).Perm
      (r.loopback?.toList ++ (before ++ after)) := by
    rw [← List.append_assoc]
    exact List.perm_append_comm.append_right after
  have hhomes : (r.homes.map r.spanAt).Nodup := nodup_services_spans.of_map _
  rw [heq, hperm.nodup_iff, hspans]
  cases hloop : r.loopback? with
  | none => exact hhomes
  | some s =>
    refine List.nodup_cons.2 ⟨fun hs => ?_, hhomes⟩
    obtain ⟨home, -, hhome⟩ := List.mem_map.1 hs
    exact spanAt_ne_loopback hloop home hhome

theorem length_toSpans (r : Report) : r.toSpans.length
    = max 1 (r.told.map (·.service)).dedup.length + r.ownServer?.toList.length := by
  obtain ⟨before, after, hspans, heq, -⟩ := r.exists_split
  have hhomes : before.length + after.length = r.homes.length := by
    rw [← List.length_append, hspans, List.length_map]
  have hloop : r.loopback?.toList.length = r.ownServer?.toList.length := by
    have := congrArg (·.toList.length) r.map_localEndpoint_loopback?
    simpa only [Option.toList_map, List.length_map] using this
  rw [heq, List.length_append, List.length_append, ← length_hosts, ← length_homes, ← hhomes, hloop]
  omega

theorem mem_hostService?_toSpans {service : Option String} :
    service ∈ r.toSpans.map Span.hostService? ↔ service ∈ r.homes.map Home.service? := by
  obtain ⟨before, after, hspans, heq, hloop⟩ := r.exists_split
  rw [heq, ← map_hostService?_spans, ← hspans]
  simp only [List.map_append, List.mem_append, List.mem_map]
  constructor
  · rintro ((h | ⟨s, hs, rfl⟩) | h)
    · exact .inl h
    · exact .inl (hloop s hs)
    · exact .inr h
  · rintro (h | h)
    · exact .inl (.inl h)
    · exact .inr h

/-- The span that takes what an endpoint has is that of its home. -/
theorem homeIn_toSpans (e : Option Endpoint) :
    homeIn r.toSpans e = (r.homes.find? (·.holds e)).map r.spanAt := by
  obtain ⟨before, after, hspans, heq, hloop⟩ := r.exists_split
  have hskip : ∀ s ∈ r.loopback?.toList,
      (e.all fun e => s.hostService? = some e.service) = true →
      ∃ t ∈ before, (e.all fun e => t.hostService? = some e.service) = true := by
    intro s hs hservice
    obtain ⟨t, ht, hts⟩ := hloop s hs
    exact ⟨t, ht, by rwa [hts]⟩
  rw [homeIn, heq, find?_append_of_imp after hskip, hspans, List.find?_map, homes,
    Home.find?_ofHosts]
  rfl

theorem homeIn_eq_some_iff {home : Home} (hhome : home ∈ r.homes) {e : Option Endpoint} :
    homeIn r.toSpans e = some (r.spanAt home) ↔ home.holds e = true := by
  rw [homeIn_toSpans, ← find?_homes_eq_some_iff hhome]
  constructor
  · intro h
    obtain ⟨k, hk, heq⟩ := Option.map_eq_some_iff.1 h
    have hkind : k.service? = home.service? := congrArg Span.hostService? heq
    rw [hk, List.inj_on_of_nodup_map r.nodup_services_homes (List.mem_of_find?_eq_some hk) hhome
      hkind]
  · intro h
    rw [h]
    rfl

theorem homeIn_ne_loopback {s : Span} (h : r.loopback? = some s) (e : Option Endpoint) :
    homeIn r.toSpans e ≠ some s := by
  rw [homeIn_toSpans]
  intro heq
  obtain ⟨home, -, hs⟩ := Option.map_eq_some_iff.1 heq
  exact spanAt_ne_loopback h home hs

/-- What has no endpoint has a home, and so has what is on an endpoint that the report tells of. -/
theorem exists_home_holds {e : Option Endpoint} (he : ∀ f, e = some f → f ∈ r.told) :
    ∃ home ∈ r.homes, home.holds e = true := by
  cases e with
  | none =>
    rw [homes]
    cases r.hosts with
    | nil => exact ⟨⟨none, true⟩, List.mem_cons_self, rfl⟩
    | cons e es => exact ⟨⟨some e, true⟩, List.mem_cons_self, rfl⟩
  | some f =>
    obtain ⟨home, hhome, hservice⟩ := List.mem_map.1
      (some_mem_services_homes.2 (List.mem_map_of_mem (he f rfl)))
    exact ⟨home, hhome, Home.holds_some_iff.2 hservice⟩

/-- The texts under a key that are on some of the endpoints. An empty local component only tells the
host. -/
def textsOn (r : Report) (on : Option Endpoint → Bool) (key : String) : List String :=
  r.tags.filterMap fun t => match t.value with
    | .text text =>
      if t.key = key ∧ on t.endpoint ∧ ¬(key = "lc" ∧ text = "") then some text else none
    | .flag _ => none

theorem map_snd_filter_tagsAt (home : Home) (key : String) :
    ((r.tagsAt home).filter fun t => t.1 = key).map Prod.snd = r.textsOn home.holds key := by
  rw [tagsAt, textsOn, List.filter_filterMap, List.map_filterMap]
  apply List.filterMap_congr
  intro t _
  unfold Tag.text? Tag.localComponent
  cases t.value with
  | flag b => rfl
  | text text =>
    by_cases hkey : t.key = key
    · subst hkey
      cases home.holds t.endpoint <;> by_cases hlocal : t.key = "lc" <;>
        by_cases hempty : text = "" <;> simp [TagValue.text?, Option.filter, hlocal, hempty]
    · dsimp only [TagValue.text?]
      split <;> simp [Option.filter, hkey]

theorem get?_tags_spanAt (home : Home) (key : String) :
    (r.spanAt home).tags.get? key = (r.textsOn home.holds key).getLast? := by
  have hlast : ∀ l : List (String × String),
      (l.reverse.find? fun t => t.1 = key) = (l.filter fun t => t.1 = key).getLast? := by
    intro l
    rw [← List.head?_filter, List.filter_reverse, List.head?_reverse]
  show (SortedMap.ofList (r.tagsAt home)).get? key = _
  rw [SortedMap.get?_ofList, hlast, ← List.getLast?_map, map_snd_filter_tagsAt]

theorem textsOn_spanAt {home : Home} (hhome : home ∈ r.homes) :
    r.textsOn (fun e => homeIn r.toSpans e = some (r.spanAt home)) = r.textsOn home.holds := by
  have : (fun e => decide (homeIn r.toSpans e = some (r.spanAt home))) = home.holds := by
    funext e
    rw [Bool.eq_iff_iff, decide_eq_true_iff, homeIn_eq_some_iff hhome]
  rw [this]

theorem textsOn_loopback {s : Span} (h : r.loopback? = some s) (key : String) :
    r.textsOn (fun e => homeIn r.toSpans e = some s) key = [] := by
  rw [textsOn, List.filterMap_eq_nil_iff]
  intro t _
  cases t.value with
  | flag b => rfl
  | text text => simp [homeIn_ne_loopback h]

theorem moment?_of_mem_loose {core : CoreEvent} {m : Moment} (h : (core, m) ∈ r.loose) :
    r.moment? core = some m := by
  unfold loose at h
  split at h
  · obtain ⟨core', -, h⟩ := List.mem_filterMap.1 h
    obtain ⟨m', hm', heq⟩ := Option.map_eq_some_iff.1 h
    obtain ⟨rfl, rfl⟩ := Prod.mk.inj heq
    exact hm'
  · cases h

/-- The ends of an incomplete call come from the report too. -/
theorem exists_event_of_mem_spanAt {home : Home} {x : Event} (hx : x ∈ (r.spanAt home).events) :
    ∃ y ∈ r.events, home.holds y.endpoint = true ∧ y.timestamp = x.timestamp
      ∧ y.value = x.value := by
  have hx : x ∈ r.eventsAt home := Ascending.mem_ofList.1 hx
  rcases List.mem_append.1 hx with hx | hx
  · obtain ⟨y, hy, rfl⟩ := List.mem_map.1 hx
    obtain ⟨hmem, hkept⟩ := List.mem_filter.1 hy
    exact ⟨y, hmem, (Bool.and_eq_true_iff.1 hkept).2, rfl, rfl⟩
  · obtain ⟨⟨core, m⟩, hm, rfl⟩ := List.mem_map.1 hx
    obtain ⟨hloose, hholds⟩ := List.mem_filter.1 hm
    exact ⟨core.event m, event_mem_of_moment? (moment?_of_mem_loose hloose), hholds, rfl, rfl⟩

end

/-- Spans that tell by service what a report tells. -/
structure DividedInto (r : Report) (spans : List Span) : Prop where
  nodup : spans.Nodup
  length : spans.length
    = max 1 (r.told.map (·.service)).dedup.length + r.ownServer?.toList.length
  services : ∀ service,
    some service ∈ spans.map Span.hostService? ↔ service ∈ r.told.map (·.service)
  /-- One span for each service, and one for the server's end of its own call. -/
  distinct : ∃ before server after, spans = before ++ server ++ after
    ∧ ((before ++ after).map Span.hostService?).Nodup
    ∧ server.map (·.localEndpoint) = r.ownServer?.toList.map some
    ∧ ∀ s ∈ server, ∃ t ∈ before, t.hostService? = s.hostService?
  /-- No event is lost, unless it is a core event on a known host. -/
  events : ∀ x ∈ r.events, (x.endpoint.isSome → x.value ∉ ["cs", "sr", "ss", "cr"]) →
    ∃ s, homeIn spans x.endpoint = some s
      ∧ { timestamp := x.timestamp, value := x.value } ∈ s.events
  sources : ∀ s ∈ spans, ∀ x ∈ s.events, ∃ y ∈ r.events, homeIn spans y.endpoint = some s
    ∧ y.timestamp = x.timestamp ∧ y.value = x.value
  tags : ∀ s ∈ spans, ∀ key,
    s.tags.get? key = (r.textsOn (fun e => homeIn spans e = some s) key).getLast?

theorem dividedInto_toSpans (r : Report) : r.DividedInto r.toSpans where
  nodup := r.nodup_toSpans
  length := r.length_toSpans
  services := fun _ => mem_hostService?_toSpans.trans some_mem_services_homes
  distinct := by
    obtain ⟨before, after, hspans, heq, hclient⟩ := r.exists_split
    refine ⟨before, r.loopback?.toList, after, heq, ?_, ?_, hclient⟩
    · rw [hspans]
      exact nodup_services_spans
    · rw [← Option.toList_map, map_localEndpoint_loopback?, Option.toList_map]
  events := by
    intro x hx hother
    have hcore := Event.core?_eq_none_iff.2 hother
    have htold : ∀ e, x.endpoint = some e → e ∈ r.told := by
      intro e he
      rw [told_eq]
      exact List.mem_append_left _ (mem_reporters_iff.2 (.inl ⟨x, hx, he⟩))
    obtain ⟨home, hhome, hholds⟩ := exists_home_holds htold
    refine ⟨r.spanAt home, (homeIn_eq_some_iff hhome).2 hholds, Ascending.mem_ofList.2 ?_⟩
    apply List.mem_append_left
    exact List.mem_map.2 ⟨x, by simp [hx, hcore, hholds], rfl⟩
  sources := by
    intro s hs x hx
    rcases mem_toSpans_iff.1 hs with ⟨home, hhome, rfl⟩ | hloop
    · obtain ⟨y, hy, hholds, hsame⟩ := exists_event_of_mem_spanAt hx
      exact ⟨y, hy, (homeIn_eq_some_iff hhome).2 hholds, hsame⟩
    · obtain ⟨-, receive, reply, -, -, -, hspan⟩ := exists_of_loopback? hloop
      rw [hspan] at hx
      cases hx
  tags := by
    intro s hs key
    rcases mem_toSpans_iff.1 hs with ⟨home, hhome, rfl⟩ | hloop
    · rw [textsOn_spanAt hhome, get?_tags_spanAt]
    · rw [textsOn_loopback hloop]
      obtain ⟨-, -, -, -, -, -, rfl⟩ := exists_of_loopback? hloop
      rfl

/-- A service calls itself. Its own texts are on the client's span, the last one under each key, and
a text that only tells a host leaves that host without texts. -/
def selfCall : Report where
  traceId := ⟨0, 1⟩
  id := 1
  events := [
    { timestamp := 5, value := "cs", endpoint := some { service := "web" } },
    { timestamp := 6, value := "sr", endpoint := some { service := "web" } },
    { timestamp := 7, value := "retry", endpoint := some { service := "web" } }]
  tags := [Tag.ofText "path" "/" (some { service := "web" }),
    Tag.ofText "path" "/home" (some { service := "web" }),
    Tag.ofText "lc" "" (some { service := "db" })]

/-- Only address flags tell of a call. -/
def flaggedCall : Report where
  traceId := ⟨0, 1⟩
  id := 2
  events := [{ timestamp := 8, value := "retry" }]
  tags := [.address "ca" { service := "browser" }, .address "sa" { service := "web" }]

/-- The server of a call to itself has a span beside the client's, before that of a host that only a
text tells of. A call that only flags tell of has one span, on the client's service. -/
theorem dividedInto_toSpans_selfCall :
    (selfCall.DividedInto selfCall.toSpans
      ∧ selfCall.toSpans.map (fun s => (s.hostService?, s.kind, s.events.map (·.value)))
        = [(some "web", some .client, ["retry"]), (some "web", some .server, []),
          (some "db", none, [])]
      ∧ selfCall.toSpans.map (·.tags.entries) = [[("path", "/home")], [], []])
    ∧ flaggedCall.DividedInto flaggedCall.toSpans
      ∧ flaggedCall.toSpans.map (fun s => (s.hostService?, s.kind, s.events.map (·.value)))
        = [(some "browser", none, ["retry"])] := by
  refine ⟨⟨dividedInto_toSpans selfCall, ?_, ?_⟩, dividedInto_toSpans flaggedCall, ?_⟩
  all_goals decide +kernel

end Report

end TraceArchive
