import Mathlib.Data.List.Nodup
import TraceArchive.Proofs.Report.Hosts
import TraceArchive.Proofs.Sorted.Map
import TraceArchive.Proofs.Span.Building

set_option autoImplicit false

/-!
Reports whose events and texts are all on known hosts, with one endpoint for each service. Every
host then has a home, and a home holds what its host reported and nothing else.
-/

namespace TraceArchive

/-- The event by which a report tells of a core event. -/
def CoreEvent.event (core : CoreEvent) (m : Report.Moment) : Event :=
  { timestamp := m.timestamp, value := core.name, endpoint := some m.endpoint }

theorem Event.core?_eq_some_iff {e : Event} {core : CoreEvent} :
    e.core? = some core ↔ ∃ m, e = core.event m := by
  unfold core?
  constructor
  · intro h
    split at h
    · next hend =>
      obtain ⟨endpoint, hend⟩ := Option.isSome_iff_exists.1 hend
      refine ⟨⟨e.timestamp, endpoint⟩, ?_⟩
      cases e
      simp_all [CoreEvent.event, CoreEvent.ofName?_eq_some_iff]
    · cases h
  · rintro ⟨m, rfl⟩
    exact CoreEvent.ofName?_eq_some_iff.2 rfl

theorem Event.ofName?_eq_none {e : Event} (h : e.core? = none) (hend : e.endpoint.isSome) :
    CoreEvent.ofName? e.value = none := by
  rwa [core?, if_pos hend] at h

theorem Tag.isFlag_eq_false_of_text? {t : Tag} {text : String} (h : t.text? = some text) :
    t.isFlag = false := by
  unfold text? at h
  unfold isFlag
  cases hv : t.value with
  | flag b => simp [hv, TagValue.text?] at h
  | text s => rfl

theorem Tag.exists_text? {t : Tag} (h : t.isFlag = false) : ∃ text, t.text? = some text := by
  unfold isFlag at h
  unfold text?
  cases hv : t.value with
  | flag b => simp [hv, TagValue.flag?] at h
  | text s => exact ⟨s, rfl⟩

theorem Tag.eq_ofText {t : Tag} {text : String} (h : t.text? = some text) :
    t = ofText t.key text t.endpoint := by
  obtain ⟨key, value, endpoint⟩ := t
  cases value with
  | flag b => cases h
  | text s =>
    obtain rfl := Option.some.inj h
    rfl

namespace Report

theorem momentOf?_eq_some_iff {core : CoreEvent} {e : Event} {m : Moment} :
    momentOf? core e = some m ↔ e = core.event m := by
  unfold momentOf?
  constructor
  · intro h
    split at h
    · next hcore =>
      obtain ⟨m', rfl⟩ := Event.core?_eq_some_iff.1 hcore
      obtain rfl := Option.some.inj h
      rfl
    · cases h
  · rintro rfl
    rw [if_pos (Event.core?_eq_some_iff.2 ⟨m, rfl⟩)]
    rfl

theorem mem_coresAt_iff {r : Report} {home : Home} {core : CoreEvent} :
    core ∈ (r.events.filter fun e => home.holds e.endpoint).filterMap (·.core?)
      ↔ ∃ m, core.event m ∈ r.events ∧ home.holds (some m.endpoint) = true := by
  simp only [List.mem_filterMap, List.mem_filter, Event.core?_eq_some_iff]
  constructor
  · rintro ⟨e, ⟨he, hholds⟩, m, rfl⟩
    exact ⟨m, he, hholds⟩
  · rintro ⟨m, hm, hholds⟩
    exact ⟨core.event m, ⟨hm, hholds⟩, m, rfl⟩

/-- Where all core events of a home belong to one side, the home has that kind. -/
theorem kindAt_eq_of_mem_iff {r : Report} {home : Home} {kind : Option Span.Kind}
    (hkind : ∀ k, (∃ core m, core.event m ∈ r.events ∧ home.holds (some m.endpoint)
      ∧ sideOf core = k) ↔ kind = some k) : r.kindAt home = kind := by
  rw [kindAt, ← List.getLast?_map]
  apply getLast?_eq_of_mem_iff
  intro k
  rw [← hkind, List.mem_map]
  simp only [mem_coresAt_iff]
  constructor
  · rintro ⟨core, ⟨m, hm, hholds⟩, hk⟩
    exact ⟨core, m, hm, hholds, hk⟩
  · rintro ⟨core, m, hm, hholds, hk⟩
    exact ⟨core, ⟨m, hm, hholds⟩, hk⟩

/-- The kind of a home is told by a core event. -/
theorem exists_event_of_kindAt {r : Report} {home : Home} {k : Span.Kind}
    (h : r.kindAt home = some k) : ∃ core m, core.event m ∈ r.events
      ∧ home.holds (some m.endpoint) = true ∧ sideOf core = k := by
  obtain ⟨core, hlast, hk⟩ := Option.map_eq_some_iff.1 h
  obtain ⟨m, hm, hholds⟩ := mem_coresAt_iff.1 (List.mem_of_getLast? hlast)
  exact ⟨core, m, hm, hholds, hk⟩

/-- The events with the name of a core event. -/
def occurrences (r : Report) (core : CoreEvent) : List Event :=
  r.events.filter fun e => e.value = core.name

/-- The core events of the report are those at the given moments, each of them once. -/
def Happened (r : Report) (moments : CoreEvent → Option Moment) : Prop :=
  ∀ core, r.occurrences core = (moments core).toList.map core.event

namespace Happened

variable {r : Report} {moments : CoreEvent → Option Moment} (h : r.Happened moments)

include h

theorem mem_events_iff {core : CoreEvent} {m : Moment} :
    core.event m ∈ r.events ↔ moments core = some m := by
  have hmem : core.event m ∈ r.events ↔ core.event m ∈ r.occurrences core := by
    simp [occurrences, CoreEvent.event]
  have hinj : ∀ m' : Moment, core.event m' = core.event m → m' = m := by
    intro m' he
    cases m
    cases m'
    simpa [CoreEvent.event] using he
  rw [hmem, h core, List.mem_map]
  constructor
  · intro ⟨m', hm', he⟩
    rw [← hinj m' he]
    exact Option.mem_toList.1 hm'
  · intro hm
    exact ⟨m, Option.mem_toList.2 hm, rfl⟩

theorem moment?_eq (core : CoreEvent) : r.moment? core = moments core := by
  apply getLast?_eq_of_mem_iff
  intro m
  rw [← h.mem_events_iff, List.mem_filterMap]
  simp only [momentOf?_eq_some_iff, exists_eq_right]

/-- The kind of a home is the side to which all core events belong that happened there. -/
theorem kindAt_eq {home : Home} {kind : Option Span.Kind}
    (hkind : ∀ k, (∃ core m, moments core = some m ∧ home.holds (some m.endpoint)
      ∧ sideOf core = k) ↔ kind = some k) : r.kindAt home = kind := by
  apply kindAt_eq_of_mem_iff
  simpa only [h.mem_events_iff] using hkind

end Happened

def texts (r : Report) : List Tag := r.tags.filter fun t => !t.isFlag

def flags (r : Report) : List Tag := r.tags.filter (·.isFlag)

theorem mem_tags_iff {r : Report} {t : Tag} : t ∈ r.tags ↔ t ∈ r.texts ∨ t ∈ r.flags := by
  cases h : t.isFlag <;> simp [texts, flags, h]

theorem flagged?_eq (r : Report) (key : String) :
    r.flagged? key = (r.flags.filter fun t => t.key == key).getLast?.bind (·.endpoint) := by
  simp only [flagged?, flags, List.filter_filter, Bool.and_comm]

/-- The endpoints on which events happened or texts were noted. -/
def reporters (r : Report) : List Endpoint :=
  r.events.filterMap (·.endpoint) ++ r.texts.filterMap (·.endpoint)

/-- All events and texts are on known hosts. A service has one endpoint, and an endpoint one text
for each key. -/
structure Hosted (r : Report) : Prop where
  normal : r.Normal
  events : ∀ e ∈ r.events, e.endpoint.isSome
  texts : ∀ t ∈ r.texts, t.endpoint.isSome
  service : ∀ a ∈ r.reporters, ∀ b ∈ r.reporters, a.service = b.service → a = b
  keys : (r.texts.map fun t => (t.endpoint, t.key)).Nodup
  component : ∀ t ∈ r.texts, ¬(t.key = "lc" ∧ t.text? = some "")

theorem mem_reporters_iff {r : Report} {e : Endpoint} : e ∈ r.reporters
    ↔ (∃ x ∈ r.events, x.endpoint = some e) ∨ ∃ t ∈ r.texts, t.endpoint = some e := by
  simp [reporters]

theorem loose_eq_nil {r : Report} (h : r.call ≠ .incomplete) : r.loose = [] := by
  unfold loose
  split
  · contradiction
  · rfl

theorem addressOnly?_eq_none {r : Report} (h : r.call ≠ .incomplete) : r.addressOnly? = none := by
  unfold addressOnly?
  split
  · next hcs hsr _ _ => exact absurd (by simp only [call, hcs, hsr]) h
  · rfl

theorem hosts_eq {r : Report} (h : r.call ≠ .incomplete) : r.hosts = onePerService r.reporters := by
  simp [hosts, addressOnly?_eq_none h, reporters, texts]

theorem exists_mem_onePerService {es : List Endpoint} {e : Endpoint} (h : e ∈ es) :
    ∃ f ∈ onePerService es, f.service = e.service := by
  induction es with
  | nil => cases h
  | cons f es ih =>
    by_cases hf : f.service = e.service
    · exact ⟨f, by simp [onePerService], hf⟩
    · rcases List.mem_cons.1 h with rfl | h
      · exact absurd rfl hf
      obtain ⟨g, hg, hge⟩ := ih h
      refine ⟨g, ?_, hge⟩
      have : f.service ≠ g.service := fun hfg => hf (hfg.trans hge)
      simp [onePerService, Endpoint.sameService, hg, this]

theorem Home.exists_of_mem_ofHosts {es : List Endpoint} {home : Home} (h : home ∈ ofHosts es)
    (hes : es ≠ []) : ∃ e ∈ es, home.endpoint = some e := by
  cases es with
  | nil => contradiction
  | cons e es =>
    simp only [ofHosts, List.mem_cons, List.mem_map] at h
    rcases h with rfl | ⟨f, hf, rfl⟩
    · exact ⟨e, by simp, rfl⟩
    · exact ⟨f, List.mem_cons_of_mem _ hf, rfl⟩

theorem Home.exists_mem_ofHosts {es : List Endpoint} {e : Endpoint} (h : e ∈ es) :
    ∃ home ∈ ofHosts es, home.endpoint = some e := by
  cases es with
  | nil => cases h
  | cons f es =>
    rcases List.mem_cons.1 h with rfl | h
    · exact ⟨⟨some e, true⟩, by simp [ofHosts], rfl⟩
    · exact ⟨⟨some e, false⟩, by simpa [ofHosts] using h, rfl⟩

namespace Hosted

variable {r : Report} (hr : r.Hosted) (hcall : r.call ≠ .incomplete)

include hr hcall in
theorem mem_hosts_iff {e : Endpoint} : e ∈ r.hosts ↔ e ∈ r.reporters := by
  rw [hosts_eq hcall]
  constructor
  · exact mem_onePerService
  · intro he
    obtain ⟨f, hf, hservice⟩ := exists_mem_onePerService he
    rw [← hr.service f (mem_onePerService hf) e he hservice]
    exact hf

include hr hcall in
theorem exists_home {e : Endpoint} (he : e ∈ r.reporters) :
    ∃ home ∈ r.homes, home.endpoint = some e :=
  Home.exists_mem_ofHosts ((hr.mem_hosts_iff hcall).2 he)

include hr hcall in
theorem exists_reporter {home : Home} (hhome : home ∈ r.homes) (hne : r.reporters ≠ []) :
    ∃ e ∈ r.reporters, home.endpoint = some e := by
  obtain ⟨f, hf⟩ := List.exists_mem_of_ne_nil _ hne
  have hhosts : r.hosts ≠ [] := List.ne_nil_of_mem ((hr.mem_hosts_iff hcall).2 hf)
  obtain ⟨e, he, hend⟩ := Home.exists_of_mem_ofHosts hhome hhosts
  exact ⟨e, (hr.mem_hosts_iff hcall).1 he, hend⟩

include hr

/-- A home holds what is on its own endpoint. -/
theorem holds_iff {home : Home} {e f : Endpoint} (hend : home.endpoint = some e)
    (he : e ∈ r.reporters) (hf : f ∈ r.reporters) : home.holds (some f) = true ↔ f = e := by
  simp only [Home.holds, hend, Option.any_some, Endpoint.sameService, decide_eq_true_eq]
  constructor
  · intro h
    exact (hr.service e he f hf h).symm
  · rintro rfl
    rfl

variable {home : Home} {e : Endpoint} (hend : home.endpoint = some e) (he : e ∈ r.reporters)

include hend he

theorem holds_event_iff {x : Event} (hx : x ∈ r.events) :
    home.holds x.endpoint = true ↔ x.endpoint = some e := by
  obtain ⟨f, hf⟩ := Option.isSome_iff_exists.1 (hr.events x hx)
  have hmem : f ∈ r.reporters := mem_reporters_iff.2 (.inl ⟨x, hx, hf⟩)
  rw [hf, hr.holds_iff hend he hmem, Option.some.injEq]

theorem holds_text_iff {t : Tag} (ht : t ∈ r.texts) :
    home.holds t.endpoint = true ↔ t.endpoint = some e := by
  obtain ⟨f, hf⟩ := Option.isSome_iff_exists.1 (hr.texts t ht)
  have hmem : f ∈ r.reporters := mem_reporters_iff.2 (.inr ⟨t, ht, hf⟩)
  rw [hf, hr.holds_iff hend he hmem, Option.some.injEq]

theorem mem_tagsAt_iff {key value : String} :
    (key, value) ∈ r.tagsAt home ↔ Tag.ofText key value (some e) ∈ r.texts := by
  rw [mem_tagsAt]
  constructor
  · rintro ⟨t, ht, rfl, hvalue, hholds, -⟩
    have htext : t ∈ r.texts := by
      simp [Report.texts, ht, Tag.isFlag_eq_false_of_text? hvalue]
    rw [← (hr.holds_text_iff hend he htext).1 hholds, ← Tag.eq_ofText hvalue]
    exact htext
  · intro ht
    refine ⟨_, (List.mem_filter.1 ht).1, rfl, rfl, (hr.holds_text_iff hend he ht).2 rfl, ?_⟩
    rintro ⟨rfl, rfl⟩
    exact hr.component _ ht ⟨rfl, rfl⟩

theorem eq_of_mem_tagsAt : ∀ p ∈ r.tagsAt home, ∀ q ∈ r.tagsAt home, p.1 = q.1 → p = q := by
  rintro ⟨key, value⟩ hp ⟨key', value'⟩ hq rfl
  have := List.inj_on_of_nodup_map hr.keys ((hr.mem_tagsAt_iff hend he).1 hp)
    ((hr.mem_tagsAt_iff hend he).1 hq) rfl
  simpa [Tag.ofText] using this

include hcall

theorem mem_eventsAt_iff {x : Event} : x ∈ r.eventsAt home ↔ ∃ y ∈ r.events,
    y.core? = none ∧ y.endpoint = some e ∧ x = { timestamp := y.timestamp, value := y.value } := by
  simp only [eventsAt, looseAt, loose_eq_nil hcall, List.filter_nil, List.map_nil, List.append_nil,
    List.mem_map, List.mem_filter, Bool.and_eq_true, Option.isNone_iff_eq_none]
  constructor
  · rintro ⟨y, ⟨hy, hcore, hholds⟩, rfl⟩
    exact ⟨y, hy, hcore, (hr.holds_event_iff hend he hy).1 hholds, rfl⟩
  · rintro ⟨y, hy, hcore, hy', rfl⟩
    exact ⟨y, ⟨hy, hcore, (hr.holds_event_iff hend he hy).2 hy'⟩, rfl⟩

end Hosted

end Report

end TraceArchive
