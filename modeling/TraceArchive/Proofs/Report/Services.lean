import TraceArchive.Proofs.Report.Division

set_option autoImplicit false

/-!
The spans of a report found by service. The home of a service is the only one that holds what is on
an endpoint of the service, so a property of its span alone picks that span from all of them.
-/

namespace TraceArchive

theorem filter_eq_singleton {α : Type} {p : α → Bool} {l : List α} {a : α} (hl : l.Nodup)
    (ha : a ∈ l) (hp : ∀ b ∈ l, p b = true ↔ b = a) : l.filter p = [a] := by
  apply List.perm_singleton.1
  rw [List.perm_ext_iff_of_nodup (hl.filter p) (List.nodup_singleton a)]
  intro b
  rw [List.mem_filter, List.mem_singleton]
  constructor
  · rintro ⟨hb, hpb⟩
    exact (hp b hb).1 hpb
  · rintro rfl
    exact ⟨ha, (hp b ha).2 rfl⟩

namespace Report

/-- The times and hosts of a core event, in the order in which the report tells them. -/
def moments (r : Report) (core : CoreEvent) : List Moment :=
  r.events.filterMap fun e =>
    if e.value = core.name then e.endpoint.map fun endpoint => ⟨e.timestamp, endpoint⟩ else none

section

variable {r : Report} {core : CoreEvent}

theorem moments_eq (r : Report) (core : CoreEvent) :
    r.moments core = r.events.filterMap (momentOf? core) := by
  refine List.filterMap_congr fun e _ => ?_
  apply Option.ext
  intro m
  rw [momentOf?_eq_some_iff]
  obtain ⟨timestamp, value, endpoint⟩ := e
  obtain ⟨start, host⟩ := m
  cases endpoint <;> simp [CoreEvent.event, and_comm, and_assoc]

theorem mem_moments_iff {m : Moment} : m ∈ r.moments core ↔ core.event m ∈ r.events := by
  simp only [moments_eq, List.mem_filterMap, momentOf?_eq_some_iff, exists_eq_right]

theorem moment?_eq_of_moments {o : Option Moment} (h : r.moments core = o.toList) :
    r.moment? core = o := by
  rw [moment?, ← moments_eq, h]
  cases o <;> rfl

theorem endpoint_mem_told {m : Moment} (h : core.event m ∈ r.events) : m.endpoint ∈ r.told := by
  rw [told_eq]
  exact List.mem_append_left _ (mem_reporters_iff.2 (.inl ⟨_, h, rfl⟩))

/-- The home of the service of an endpoint. -/
theorem exists_homeOf {e : Endpoint} (he : e ∈ r.told) : ∃ home ∈ r.homes,
    ∀ other ∈ r.homes, other.service? = some e.service ↔ other = home := by
  obtain ⟨home, hhome, hservice⟩ := List.mem_map.1
    (some_mem_services_homes.2 (List.mem_map_of_mem he))
  refine ⟨home, hhome, fun other hother => ⟨fun h => ?_, ?_⟩⟩
  · exact List.inj_on_of_nodup_map r.nodup_services_homes hother hhome (h.trans hservice.symm)
  · rintro rfl
    exact hservice

theorem nodup_homes (r : Report) : r.homes.Nodup := r.nodup_services_homes.of_map _

theorem kind_spanAt (r : Report) (home : Home) :
    (r.spanAt home).kind = (r.sideAt home).kind := rfl

theorem shared_spanAt (r : Report) (home : Home) :
    (r.spanAt home).shared = (r.sideAt home).shared := rfl

theorem timestamp_spanAt (r : Report) (home : Home) :
    (r.spanAt home).timestamp = timestamp? (r.sideAt home).timestamp := rfl

theorem duration_spanAt (r : Report) (home : Home) :
    (r.spanAt home).duration = duration? (r.sideAt home).duration := rfl

theorem Home.holds_eq_false {home : Home} {e : Endpoint} (he : home.service? ≠ some e.service) :
    home.holds (some e) = false :=
  Bool.eq_false_iff.2 fun hholds => he (holds_some_iff.1 hholds)

section

variable (side : Side) (start : Moment) (finish : Option Moment)

theorem kind_timed : (r.timed side start finish).kind = side.kind := by
  unfold timed
  split <;> rfl

theorem shared_timed : (r.timed side start finish).shared = side.shared := by
  unfold timed
  split <;> rfl

end

variable {p : Span → Bool}

/-- A property that one home's span has, and no other span, picks that span. -/
theorem filter_toSpans_of_home {home : Home} (hhome : home ∈ r.homes)
    (hp : ∀ other ∈ r.homes, p (r.spanAt other) = true ↔ other = home)
    (hloop : ∀ s, r.loopback? = some s → p s = false) : r.toSpans.filter p = [r.spanAt home] := by
  obtain ⟨before, after, hspans, heq, -⟩ := r.exists_split
  have hnone : r.loopback?.toList.filter p = [] := by
    apply List.filter_eq_nil_iff.2
    intro s hs
    rw [hloop s (Option.mem_toList.1 hs)]
    exact Bool.false_ne_true
  have hhomes : r.homes.filter (p ∘ r.spanAt) = [home] :=
    filter_eq_singleton r.nodup_homes hhome hp
  calc r.toSpans.filter p
    _ = (before ++ after).filter p := by
      rw [heq, List.filter_append, List.filter_append, hnone, List.append_nil, List.filter_append]
    _ = (r.homes.filter (p ∘ r.spanAt)).map r.spanAt := by rw [hspans, List.filter_map]
    _ = [r.spanAt home] := by rw [hhomes, List.map_singleton]

/-- A property that no home's span has picks at most the server's end of a call to itself. -/
theorem filter_toSpans_of_loopback {s : Span} (hs : r.loopback? = some s) (hps : p s = true)
    (hp : ∀ home ∈ r.homes, p (r.spanAt home) = false) : r.toSpans.filter p = [s] := by
  obtain ⟨before, after, hspans, heq, -⟩ := r.exists_split
  have hnone : (before ++ after).filter p = [] := by
    rw [hspans, List.filter_eq_nil_iff]
    intro t ht
    obtain ⟨home, hhome, rfl⟩ := List.mem_map.1 ht
    rw [hp home hhome]
    exact Bool.false_ne_true
  obtain ⟨hbefore, hafter⟩ := List.append_eq_nil_iff.1 (List.filter_append .. ▸ hnone)
  rw [heq, List.filter_append, List.filter_append, hbefore, hafter, hs, List.nil_append,
    List.append_nil, Option.toList_some, List.filter_cons_of_pos hps, List.filter_nil]

end

end Report

end TraceArchive
