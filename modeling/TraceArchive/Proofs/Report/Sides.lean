import TraceArchive.Proofs.Report.Services
import TraceArchive.Proofs.Span.Telling

set_option autoImplicit false

/-!
Where the sides of a call start, and what the spans show there. A report tells both starts, one of
them with its end, or an incomplete call. The home of a start shows the side that the last core
event on its service tells, which need not be the side that starts there.
-/

namespace TraceArchive.Report

theorem eq_start_or_finish (core : CoreEvent) :
    core = (sideOf core).start ∨ core = (sideOf core).finish :=
  Span.Kind.eq_start_or_finish rfl

/-- The side that the last core event of a service tells. -/
def sideOn? (r : Report) (service : String) : Option Span.Kind :=
  ((r.events.filter fun e => e.endpoint.any (·.service = service)).filterMap
    (·.core?)).getLast?.map sideOf

theorem call_cases (r : Report) :
    (∃ send receive, r.moment? .clientSend = some send ∧ r.moment? .serverReceive = some receive
        ∧ r.call = .shared send receive (r.moment? .serverSend) (r.moment? .clientReceive))
      ∨ (∃ (k : Span.Kind) (start finish : Moment), r.moment? k.start = some start
        ∧ r.moment? k.finish = some finish ∧ (∀ j, j ≠ k → r.moment? j.start = none)
        ∧ r.call = .oneSided start finish)
      ∨ r.call = .incomplete ∧ ∀ (k : Span.Kind) (start : Moment), r.moment? k.start = some start →
        r.moment? k.finish = none ∧ ∀ j, j ≠ k → r.moment? j.start = none := by
  have hclient (h : r.moment? .serverReceive = none) :
      ∀ j, j ≠ Span.Kind.client → r.moment? j.start = none := by
    rintro (_ | _) hj
    · contradiction
    · exact h
  have hserver (h : r.moment? .clientSend = none) :
      ∀ j, j ≠ Span.Kind.server → r.moment? j.start = none := by
    rintro (_ | _) hj
    · exact h
    · contradiction
  cases hcs : r.moment? .clientSend with
  | some send =>
    cases hsr : r.moment? .serverReceive with
    | some receive => exact .inl ⟨send, receive, rfl, rfl, by simp only [call, hcs, hsr]⟩
    | none =>
      cases hcr : r.moment? .clientReceive with
      | some done =>
        exact .inr (.inl ⟨.client, send, done, hcs, hcr, hclient hsr,
          by simp only [call, hcs, hsr, hcr]⟩)
      | none =>
        refine .inr (.inr ⟨by simp only [call, hcs, hsr, hcr], fun k start hk => ?_⟩)
        cases k with
        | client => exact ⟨hcr, hclient hsr⟩
        | server => cases hsr.symm.trans hk
  | none =>
    cases hsr : r.moment? .serverReceive with
    | none =>
      refine .inr (.inr ⟨by simp only [call, hcs, hsr], fun k start hk => ?_⟩)
      cases k with
      | client => cases hcs.symm.trans hk
      | server => cases hsr.symm.trans hk
    | some receive =>
      cases hss : r.moment? .serverSend with
      | some reply =>
        exact .inr (.inl ⟨.server, receive, reply, hsr, hss, hserver hcs,
          by simp only [call, hcs, hsr, hss]⟩)
      | none =>
        refine .inr (.inr ⟨by simp only [call, hcs, hsr, hss], fun k start hk => ?_⟩)
        cases k with
        | client => cases hcs.symm.trans hk
        | server => exact ⟨hss, hserver hcs⟩

section

variable {r : Report} {home : Home} {core : CoreEvent} {service : String}

/-- An incomplete call has one start, and that without its end. -/
theorem eq_none_of_incomplete (hcall : r.call = .incomplete) {k : Span.Kind} {start : Moment}
    (hstart : r.moment? k.start = some start) :
    r.moment? k.finish = none ∧ ∀ j, j ≠ k → r.moment? j.start = none := by
  rcases r.call_cases with ⟨send, receive, -, -, hshared⟩ | ⟨j, _, finish, -, -, -, honeSided⟩
    | ⟨-, hnone⟩
  · cases hcall.symm.trans hshared
  · cases hcall.symm.trans honeSided
  · exact hnone k start hstart

/-- Where only one side starts, it ends. -/
theorem isSome_finish_of_start (hcall : r.call ≠ .incomplete) {k j : Span.Kind} (hkj : k ≠ j)
    (hk : (r.moment? k.start).isSome) (hj : r.moment? j.start = none) :
    (r.moment? k.finish).isSome := by
  rcases r.call_cases with ⟨send, receive, hcs, hsr, -⟩
    | ⟨k', start, finish, hstart, hfinish, hnone, -⟩ | ⟨hincomplete, -⟩
  · cases j
    · cases hcs.symm.trans hj
    · cases hsr.symm.trans hj
  · by_cases hk' : k = k'
    · rw [hk', hfinish]
      rfl
    · rw [hnone k hk'] at hk
      cases hk
  · exact absurd hincomplete hcall

/-! Services that call themselves. -/

theorem exists_of_ownServer? (hown : r.ownServer?.isSome) : ∃ send receive,
    r.moment? .clientSend = some send ∧ r.moment? .serverReceive = some receive
      ∧ send.endpoint.service = receive.endpoint.service := by
  rw [ownServer?_eq] at hown
  split at hown
  · next send receive hcs hsr =>
    split at hown
    · next hsame => exact ⟨send, receive, hcs, hsr, hsame⟩
    · cases hown
  · cases hown

theorem call_ne_of_ownServer? (hown : r.ownServer?.isSome) : r.call ≠ .incomplete := by
  obtain ⟨send, receive, hcs, hsr, -⟩ := exists_of_ownServer? hown
  simp only [call, hcs, hsr, ne_eq, reduceCtorEq, not_false_eq_true]

theorem ownServer?_eq_none_iff : r.ownServer? = none ↔ r.loopback? = none := by
  have h := congrArg Option.isNone r.map_localEndpoint_loopback?
  rw [Option.isNone_map, Option.isNone_map] at h
  rw [← Option.isNone_iff_eq_none, ← Option.isNone_iff_eq_none, h]

/-- Without a call to itself, only the homes have spans. -/
theorem exists_tells_toSpans_iff (hown : r.ownServer? = none) :
    (∃ s ∈ r.toSpans, s.Tells core) ↔ ∃ home ∈ r.homes, (r.spanAt home).Tells core := by
  simp only [mem_toSpans_iff, ownServer?_eq_none_iff.1 hown, reduceCtorEq, or_false]
  constructor
  · rintro ⟨_, ⟨home, hmem, rfl⟩, htells⟩
    exact ⟨home, hmem, htells⟩
  · rintro ⟨home, hmem, htells⟩
    exact ⟨_, ⟨home, hmem, rfl⟩, htells⟩

/-- Where the service did not call itself, the two sides start on two services. -/
theorem service_ne_of_start (hown : r.ownServer? = none) {k j : Span.Kind} (hkj : k ≠ j)
    {a b : Moment} (ha : r.moment? k.start = some a) (hb : r.moment? j.start = some b) :
    a.endpoint.service ≠ b.endpoint.service := by
  intro hservice
  cases k <;> cases j
  · contradiction
  · simp_all [ownServer?_eq, Span.Kind.start]
  · simp_all [ownServer?_eq, Span.Kind.start]
  · contradiction

/-! The side that is told last on a service. -/

theorem kindAt_eq_sideOn? (hhome : home.service? = some service) :
    r.kindAt home = r.sideOn? service := by
  have hcores : (r.events.filter fun e => home.holds e.endpoint).filterMap (·.core?)
      = (r.events.filter fun e => e.endpoint.any (·.service = service)).filterMap (·.core?) := by
    rw [List.filterMap_filter, List.filterMap_filter]
    apply List.filterMap_congr
    intro e _
    cases hend : e.endpoint with
    | none => simp [Event.core?, hend]
    | some f =>
      have hholds : home.holds (some f) = decide (f.service = service) := by
        rw [Bool.eq_iff_iff, Home.holds_some_iff, hhome, decide_eq_true_iff, Option.some_inj,
          eq_comm]
      rw [hholds, Option.any_some]
  rw [kindAt, hcores, sideOn?]

/-- The core events of a service tell of a side. -/
theorem exists_sideOn? {m : Moment} (hm : core.event m ∈ r.events) :
    ∃ k, r.sideOn? m.endpoint.service = some k := by
  have hhome : Home.service? ⟨some m.endpoint, false⟩ = some m.endpoint.service := rfl
  have hcore := mem_coresAt_iff.2 ⟨m, hm, Home.holds_some_iff.2 hhome⟩
  rw [← kindAt_eq_sideOn? hhome, ← Option.isSome_iff_exists, kindAt, Option.isSome_map,
    List.getLast?_isSome]
  exact List.ne_nil_of_mem hcore

theorem exists_event_of_sideOn? {k : Span.Kind} (hk : r.sideOn? service = some k) :
    ∃ core m, core.event m ∈ r.events ∧ m.endpoint.service = service ∧ sideOf core = k := by
  have hhome : Home.service? ⟨some { service }, false⟩ = some service := rfl
  rw [← kindAt_eq_sideOn? hhome] at hk
  obtain ⟨core, m, hm, hholds, hcore⟩ := exists_event_of_kindAt hk
  exact ⟨core, m, hm, (Option.some.inj (Home.holds_some_iff.1 hholds)).symm, hcore⟩

/-! The times of the homes. -/

theorem timestamp_timed (hr : r.Normal) {start : Moment} (hstart : start.timestamp ≠ 0)
    (side : Side) (finish : Option Moment) :
    ∃ t, t ≠ 0 ∧ (r.timed side start finish).timestamp = some t := by
  have hreport := hr.timestamp
  unfold timed
  split
  · next t _ ht _ => exact ⟨t, fun hzero => hreport (hzero ▸ ht), rfl⟩
  · exact ⟨_, hstart, rfl⟩

theorem isSome_duration_timed (side : Side) (start : Moment) {finish : Option Moment}
    (hfinish : finish.isSome) : (r.timed side start finish).duration.isSome := by
  unfold timed
  split
  · rfl
  · rwa [Option.isSome_map]

/-- The home of a start shows the side that is told last on it, from a start and to an end if the
side that starts has one. -/
theorem sideAt_of_start (hr : r.Normal) (hcall : r.call ≠ .incomplete)
    (hown : r.ownServer? = none) {k : Span.Kind} {start : Moment}
    (hstart : r.moment? k.start = some start) (hne : start.timestamp ≠ 0)
    (hhome : home.service? = some start.endpoint.service) :
    (r.sideAt home).kind = r.sideOn? start.endpoint.service
      ∧ (∃ t, t ≠ 0 ∧ (r.sideAt home).timestamp = some t)
      ∧ ((r.moment? k.finish).isSome → (r.sideAt home).duration.isSome) := by
  have hholds : home.holds (some start.endpoint) = true := Home.holds_some_iff.2 hhome
  rw [← kindAt_eq_sideOn? hhome]
  rcases r.call_cases with ⟨send, receive, hcs, hsr, hshared⟩
    | ⟨k', start', finish, hstart', hfinish, hnone, honeSided⟩ | ⟨hincomplete, -⟩
  · have hapart : send.endpoint.service ≠ receive.endpoint.service :=
      service_ne_of_start (k := .client) (j := .server) hown nofun hcs hsr
    cases k with
    | client =>
      obtain rfl : send = start := Option.some.inj (hcs.symm.trans hstart)
      have hside : r.sideAt home
          = r.timed { kind := r.kindAt home } send (r.moment? .clientReceive) := by
        simp [sideAt, hshared, hholds, Endpoint.sameService, hapart]
      rw [hside, kind_timed]
      exact ⟨rfl, timestamp_timed hr hne .., isSome_duration_timed _ _⟩
    | server =>
      obtain rfl : receive = start := Option.some.inj (hsr.symm.trans hstart)
      have hsend : home.holds (some send.endpoint) = false := by
        apply Home.holds_eq_false
        rw [hhome]
        exact fun he => hapart (Option.some.inj he).symm
      have hside : r.sideAt home
          = serverSide (r.kindAt home) receive (r.moment? .serverSend) := by
        simp [sideAt, hshared, hholds, hsend]
      rw [hside]
      refine ⟨rfl, ⟨_, hne, rfl⟩, fun hfinish => ?_⟩
      rwa [serverSide, Option.isSome_map]
  · obtain rfl : k = k' := by
      by_contra hk
      cases hstart.symm.trans (hnone k hk)
    obtain rfl : start' = start := Option.some.inj (hstart'.symm.trans hstart)
    have hside : r.sideAt home = r.timed { kind := r.kindAt home } start' (some finish) := by
      simp [sideAt, honeSided, hholds]
    rw [hside, kind_timed]
    exact ⟨rfl, timestamp_timed hr hne .., fun _ => isSome_duration_timed _ _ rfl⟩
  · exact absurd hincomplete hcall

/-- A home on which no side starts has no time. -/
theorem sideAt_untimed (hcall : r.call ≠ .incomplete)
    (hhome : ∀ k : Span.Kind, ∀ start ∈ r.moment? k.start,
      home.service? ≠ some start.endpoint.service) :
    (r.sideAt home).timestamp = none ∧ (r.sideAt home).duration = none := by
  rcases r.call_cases with ⟨send, receive, hcs, hsr, hshared⟩
    | ⟨k, start, finish, hstart, hfinish, hnone, honeSided⟩ | ⟨hincomplete, -⟩
  · simp only [sideAt, hshared, Home.holds_eq_false (hhome .client send hcs),
      Home.holds_eq_false (hhome .server receive hsr), Bool.false_eq_true, if_false, and_self]
  · simp only [sideAt, honeSided, Home.holds_eq_false (hhome k start hstart), Bool.false_eq_true,
      if_false, and_self]
  · exact absurd hincomplete hcall

theorem isSome_kindTime?_spanAt_start {k : Span.Kind} : ((r.spanAt home).kindTime? k.start).isSome
    ↔ (r.sideAt home).kind = some k ∧ ∃ t, t ≠ 0 ∧ (r.sideAt home).timestamp = some t := by
  rw [Span.isSome_kindTime?_start (normal_spanAt r home), kind_spanAt, timestamp_spanAt]
  cases (r.sideAt home).timestamp <;> simp [timestamp?, Option.filter]

theorem isSome_kindTime?_spanAt_finish {k : Span.Kind} :
    ((r.spanAt home).kindTime? k.finish).isSome
      ↔ (r.sideAt home).kind = some k ∧ (r.sideAt home).duration.isSome := by
  rw [Span.isSome_kindTime?_finish (normal_spanAt r home), kind_spanAt, duration_spanAt, duration?,
    Option.isSome_map]

/-! Incomplete calls. -/

theorem looseAt_eq_nil (hcall : r.call ≠ .incomplete) : r.looseAt home = [] := by
  rw [looseAt, loose_eq_nil hcall, List.filter_nil]

theorem mem_looseAt_iff (hcall : r.call = .incomplete) {m : Moment} : (core, m) ∈ r.looseAt home
    ↔ (∃ k : Span.Kind, core = k.finish) ∧ r.moment? core = some m
      ∧ home.service? = some m.endpoint.service := by
  have hfinish : core ∈ [CoreEvent.serverSend, CoreEvent.clientReceive]
      ↔ ∃ k : Span.Kind, core = k.finish := by
    constructor
    · intro hmem
      rcases List.mem_pair.1 hmem with rfl | rfl
      · exact ⟨.server, rfl⟩
      · exact ⟨.client, rfl⟩
    · rintro ⟨_ | _, rfl⟩ <;> simp [Span.Kind.finish]
  rw [← hfinish, looseAt, List.mem_filter, Home.holds_some_iff, loose, hcall, ← and_assoc]
  apply and_congr_left'
  simp only [List.mem_filterMap, Option.map_eq_some_iff, Prod.mk.injEq]
  constructor
  · rintro ⟨core', hmem, m', hm', rfl, rfl⟩
    exact ⟨hmem, hm'⟩
  · rintro ⟨hmem, hm⟩
    exact ⟨core, hmem, m, hm, rfl, rfl⟩

/-- Nothing is loose on a home where no side ends. -/
theorem looseAt_eq_nil_iff (hcall : r.call = .incomplete) : r.looseAt home = []
    ↔ ∀ k : Span.Kind, ∀ finish ∈ r.moment? k.finish,
      home.service? ≠ some finish.endpoint.service := by
  rw [List.eq_nil_iff_forall_not_mem]
  constructor
  · exact fun hnil k finish hfinish hhome =>
      hnil _ ((mem_looseAt_iff hcall).2 ⟨⟨k, rfl⟩, hfinish, hhome⟩)
  · rintro hnone ⟨core, m⟩ hloose
    obtain ⟨⟨k, rfl⟩, hm, hhome⟩ := (mem_looseAt_iff hcall).1 hloose
    exact hnone k m hm hhome

theorem kind_incompleteSide : (r.incompleteSide home).kind
    = if (r.looseAt home).isEmpty then r.kindAt home else none := by
  unfold incompleteSide
  dsimp only
  split <;> rfl

theorem timestamp_incompleteSide (hr : r.Normal) {k : Span.Kind} {start : Moment}
    (hkind : r.kindAt home = some k) (hstart : r.moment? k.start = some start)
    (hne : start.timestamp ≠ 0) :
    ∃ t, t ≠ 0 ∧ (r.incompleteSide home).timestamp = some t := by
  have hreport := hr.timestamp
  unfold incompleteSide
  dsimp only
  split
  · next hfirst =>
    obtain ⟨t, ht⟩ := Option.isSome_iff_exists.1 (Bool.and_eq_true_iff.1 hfirst).2
    exact ⟨t, fun hzero => hreport (hzero ▸ ht), ht⟩
  · refine ⟨start.timestamp, hne, ?_⟩
    rw [hkind]
    cases k <;> exact congrArg (Option.map (·.timestamp)) hstart

end

end TraceArchive.Report
