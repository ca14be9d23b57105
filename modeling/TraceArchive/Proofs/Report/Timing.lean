import TraceArchive.Codec.Report
import TraceArchive.Proofs.Report.Summary
import TraceArchive.Proofs.Sorted.Map
import TraceArchive.Proofs.Span.Building

set_option autoImplicit false

/-!
Reports as they are timed on their way into the store. Timing puts events and tags in order, but the
name and a time that is told already stay as they were given, whether a builder would set them so or
not. A report without a start takes its time from its first to its last event. Since a zero
timestamp is none, a report with an event at zero then has a duration and no start.
-/

namespace TraceArchive.Report

variable {r : Report} {first last : UInt64}

/-- The report takes its time from its events: it tells no start, and there are at least two. -/
structure TakesTime (r : Report) : Prop where
  untimed : r.timestamp = none
  enough : 2 ≤ r.events.length

/-- The first and the last instant at which something happened. -/
structure RunsFrom (r : Report) (first last : UInt64) : Prop where
  first_mem : ∃ e ∈ r.events, e.timestamp = first
  last_mem : ∃ e ∈ r.events, e.timestamp = last
  between : ∀ e ∈ r.events, first ≤ e.timestamp ∧ e.timestamp ≤ last

theorem exists_runsFrom (h : r.events ≠ []) : ∃ first last, r.RunsFrom first last := by
  have htimes : r.events.map (·.timestamp) ≠ [] := by simpa using h
  obtain ⟨first, hmin⟩ := Option.isSome_iff_exists.1 (List.isSome_min?_of_ne_nil htimes)
  obtain ⟨last, hmax⟩ := Option.isSome_iff_exists.1 (List.isSome_max?_of_ne_nil htimes)
  obtain ⟨hfirst, hle⟩ := List.min?_eq_some_iff.1 hmin
  obtain ⟨hlast, hge⟩ := List.max?_eq_some_iff.1 hmax
  refine ⟨first, last, List.mem_map.1 hfirst, List.mem_map.1 hlast, fun e he => ⟨?_, ?_⟩⟩
  · exact hle _ (List.mem_map_of_mem he)
  · exact hge _ (List.mem_map_of_mem he)

theorem RunsFrom.of_mem_iff {a : Report} (h : r.RunsFrom first last)
    (hevents : ∀ e, e ∈ a.events ↔ e ∈ r.events) : a.RunsFrom first last := by
  obtain ⟨⟨e, he, hfirst⟩, ⟨f, hf, hlast⟩, hbetween⟩ := h
  exact ⟨⟨e, (hevents e).2 he, hfirst⟩, ⟨f, (hevents f).2 hf, hlast⟩,
    fun g hg => hbetween g ((hevents g).1 hg)⟩

theorem TakesTime.exists_runsFrom (h : r.TakesTime) : ∃ first last, r.RunsFrom first last := by
  apply Report.exists_runsFrom
  intro hnil
  have henough := h.enough
  rw [hnil] at henough
  exact absurd henough (by decide)

theorem withTiming_of_not_takesTime (h : ¬ r.TakesTime) : r.withTiming = r.tidy := by
  simp only [withTiming]
  split
  · next htime _ _ =>
    split
    · next hlength =>
      rw [List.length_map] at hlength
      exact absurd ⟨htime, hlength⟩ h
    · rfl
  · rfl

theorem TakesTime.withTiming_eq (h : r.TakesTime) (hs : r.RunsFrom first last) :
    r.withTiming = tidy { r with
      timestamp := timestamp? (some first), duration := duration? (some (last - first)) } := by
  have hmin : (r.events.map (·.timestamp)).min? = some first := by
    refine List.min?_eq_some_iff.2 ⟨List.mem_map.2 hs.first_mem, ?_⟩
    exact List.forall_mem_map.2 fun e he => (hs.between e he).1
  have hmax : (r.events.map (·.timestamp)).max? = some last := by
    refine List.max?_eq_some_iff.2 ⟨List.mem_map.2 hs.last_mem, ?_⟩
    exact List.forall_mem_map.2 fun e he => (hs.between e he).2
  have henough := h.enough
  simp only [withTiming, hmin, hmax, h.untimed, List.length_map, if_pos henough]
  rfl

/-! Which parts of a timed report are in the form in which reports are built. -/

theorem ascending_events_withTiming (r : Report) : Ascending r.withTiming.events := by
  rw [← tidy_withTiming]
  exact Ascending.ascending_ofList _

theorem ascending_tags_withTiming (r : Report) : Ascending r.withTiming.tags := by
  rw [← tidy_withTiming]
  exact Ascending.ascending_ofList _

theorem timestamp_withTiming_eq_zero_iff (r : Report) :
    r.withTiming.timestamp = some 0 ↔ r.timestamp = some 0 := by
  by_cases h : r.TakesTime
  · obtain ⟨first, last, hs⟩ := h.exists_runsFrom
    rw [h.withTiming_eq hs, h.untimed]
    exact iff_of_false (timestamp?_ne_zero (some first)) nofun
  · rw [withTiming_of_not_takesTime h]
    rfl

theorem duration_withTiming_eq_zero_iff (r : Report) :
    r.withTiming.duration = some 0 ↔ r.duration = some 0 ∧ ¬ r.TakesTime := by
  by_cases h : r.TakesTime
  · obtain ⟨first, last, hs⟩ := h.exists_runsFrom
    rw [h.withTiming_eq hs]
    exact iff_of_false (duration?_ne_zero (some (last - first))) fun hzero => hzero.2 h
  · rw [withTiming_of_not_takesTime h]
    exact (and_iff_left h).symm

/-- Events and tags always come out in order and each once. The name comes out as it was given, a
start of zero, too, and a duration of zero unless a time is taken from the events. So a report comes
out as built if and only if none of these faults was given. -/
theorem withTiming_normal_iff (r : Report) :
    (Ascending r.withTiming.events ∧ ∀ e, e ∈ r.withTiming.events ↔ e ∈ r.events)
      ∧ (Ascending r.withTiming.tags ∧ ∀ t, t ∈ r.withTiming.tags ↔ t ∈ r.tags)
      ∧ r.withTiming.name = r.name
      ∧ (r.withTiming.timestamp = some 0 ↔ r.timestamp = some 0)
      ∧ (r.withTiming.duration = some 0 ↔ r.duration = some 0 ∧ ¬ r.TakesTime)
      ∧ (r.withTiming.Normal
        ↔ (∀ name, r.name = some name → name ≠ "" ∧ Text.lowercase name = name)
          ∧ r.timestamp ≠ some 0 ∧ (r.duration = some 0 → r.TakesTime)) := by
  have hevents := r.ascending_events_withTiming
  have htags := r.ascending_tags_withTiming
  have hstart := r.timestamp_withTiming_eq_zero_iff
  have hduration := r.duration_withTiming_eq_zero_iff
  refine ⟨⟨hevents, fun _ => mem_events_withTiming⟩, ⟨htags, fun _ => mem_tags_withTiming⟩,
    r.name_withTiming, hstart, hduration, ?_⟩
  constructor
  · intro h
    have hname := h.name
    rw [name_withTiming] at hname
    refine ⟨hname, fun hzero => h.timestamp (hstart.2 hzero), fun hzero => ?_⟩
    by_contra hgiven
    exact h.duration (hduration.2 ⟨hzero, hgiven⟩)
  · rintro ⟨hname, hnonzero, htaken⟩
    refine ⟨hevents, htags, ?_, fun hzero => hnonzero (hstart.1 hzero), fun hzero => ?_⟩
    · rwa [name_withTiming]
    · obtain ⟨hgiven, hnot⟩ := hduration.1 hzero
      exact hnot (htaken hgiven)

/-- A report that nothing was done to since it was read. -/
def asRead : Report where
  traceId := ⟨0, 1⟩
  id := 1
  name := some "GET"
  timestamp := some 0
  duration := some 0

theorem not_normal_withTiming :
    (ofJson asRead.toJson).toOption = some asRead ∧ asRead.withTiming = asRead
      ∧ ¬ asRead.withTiming.Normal := by
  have hkept : asRead.withTiming = asRead := by decide +kernel
  refine ⟨by decide +kernel, hkept, fun h => ?_⟩
  rw [hkept] at h
  exact h.timestamp rfl

/-! The time that is taken from the events. -/

/-- The report tells a time, and none of its events happened before it or after it. -/
def CoversEvents (r : Report) : Prop :=
  ∃ t d, r.timestamp = some t ∧ r.duration = some d
    ∧ ∀ e ∈ r.events, t ≤ e.timestamp ∧ e.timestamp.toNat ≤ t.toNat + d.toNat

theorem RunsFrom.first_eq_zero_iff (h : r.RunsFrom first last) :
    first = 0 ↔ ∃ e ∈ r.events, e.timestamp = 0 := by
  constructor
  · rintro rfl
    exact h.first_mem
  · rintro ⟨e, he, hzero⟩
    have hle := (h.between e he).1
    rw [hzero] at hle
    exact UInt64.le_antisymm hle UInt64.zero_le

/-- The last instant is not before the first one, so their difference does not wrap around. -/
theorem RunsFrom.toNat_le (h : r.RunsFrom first last) {e : Event} (he : e ∈ r.events) :
    e.timestamp.toNat ≤ first.toNat + (max 1 (last - first)).toNat := by
  obtain ⟨hfirst, hlast⟩ := h.between e he
  have hsub := UInt64.toNat_sub_of_le _ _ (UInt64.le_trans hfirst hlast)
  rw [UInt64.le_iff_toNat_le] at hfirst hlast
  rw [toNat_max]
  omega

theorem TakesTime.coversEvents_iff (h : r.TakesTime) (hs : r.RunsFrom first last) :
    r.withTiming.CoversEvents ↔ first ≠ 0 := by
  rw [h.withTiming_eq hs]
  constructor
  · rintro ⟨t, d, ht, -⟩ rfl
    cases ht
  · intro hfirst
    refine ⟨first, _, timestamp?_eq_self (fun hzero => hfirst (Option.some.inj hzero)), rfl, ?_⟩
    intro e he
    rw [mem_events_tidy] at he
    exact ⟨(hs.between e he).1, hs.toNat_le he⟩

theorem length_events_tidy_le (r : Report) : r.tidy.events.length ≤ r.events.length :=
  (Ascending.nodup (Ascending.ascending_ofList r.events)).length_le_of_subset fun _ =>
    mem_events_tidy.1

/-- A report that was timed stays as it is. -/
theorem withTiming_withTiming (r : Report) : r.withTiming.withTiming = r.withTiming := by
  by_cases hagain : r.withTiming.TakesTime
  · by_cases h : r.TakesTime
    · -- There was an event at zero. The events are the same, and so is the time taken from them.
      obtain ⟨first, last, hs⟩ := h.exists_runsFrom
      have heq := h.withTiming_eq hs
      rw [hagain.withTiming_eq (hs.of_mem_iff fun _ => mem_events_withTiming)]
      apply Eq.trans _ r.tidy_withTiming
      rw [heq]
      rfl
    · -- A report does not get more events by being put in order.
      rw [withTiming_of_not_takesTime h] at hagain
      exact absurd ⟨hagain.untimed, Nat.le_trans hagain.enough r.length_events_tidy_le⟩ h
  · rw [withTiming_of_not_takesTime hagain, tidy_withTiming]

/-- A report without any time is left without if it has fewer than two events. Otherwise it gets a
time that covers all its events, unless one of them happened at zero: then it gets a duration that
covers them from there, but no start. Timing it again changes nothing. -/
theorem withTiming_covers_iff (h : r.time = (none, none)) :
    (r.events.length < 2 → r.withTiming.time = (none, none))
      ∧ (2 ≤ r.events.length →
        (r.withTiming.CoversEvents ↔ ∀ e ∈ r.events, e.timestamp ≠ 0)
        ∧ ((∃ e ∈ r.events, e.timestamp = 0) → r.withTiming.timestamp = none
          ∧ ∃ d, r.withTiming.duration = some d ∧ ∀ e ∈ r.events, e.timestamp ≤ d))
      ∧ r.withTiming.withTiming = r.withTiming := by
  refine ⟨fun hfew => ?_, fun henough => ?_, r.withTiming_withTiming⟩
  · rw [withTiming_of_not_takesTime fun htakes => absurd htakes.enough (Nat.not_le.2 hfew)]
    exact h
  · have htakes : r.TakesTime := ⟨congrArg Prod.fst h, henough⟩
    obtain ⟨first, last, hs⟩ := htakes.exists_runsFrom
    refine ⟨?_, fun hzero => ?_⟩
    · rw [htakes.coversEvents_iff hs, Ne, hs.first_eq_zero_iff]
      simp
    · obtain rfl := hs.first_eq_zero_iff.2 hzero
      rw [htakes.withTiming_eq hs]
      refine ⟨rfl, _, rfl, fun e he => ?_⟩
      have hle := hs.toNat_le he
      rwa [UInt64.toNat_zero, Nat.zero_add, ← UInt64.le_iff_toNat_le] at hle

/-- A call that is sent and answered in the last instant. -/
def lastInstantCall : Report where
  traceId := ⟨0, 1⟩
  id := 1
  name := some "get"
  events := [{ timestamp := lastInstant, value := "cr", endpoint := some { service := "web" } },
    { timestamp := lastInstant, value := "cs", endpoint := some { service := "web" } }]

theorem normal_lastInstantCall : lastInstantCall.Normal where
  events := by decide
  tags := by decide
  name := by
    intro name h
    obtain rfl := Option.some.inj h
    decide
  timestamp := nofun
  duration := nofun

theorem withTiming_covers_lastInstantCall :
    lastInstantCall.Normal ∧ lastInstantCall.time = (none, none)
      ∧ lastInstantCall.withTiming.time = (some lastInstant, some 1)
      ∧ lastInstantCall.withTiming.CoversEvents
      ∧ lastInstantCall.withTiming.withTiming = lastInstantCall.withTiming := by
  have huntimed : lastInstantCall.time = (none, none) := rfl
  obtain ⟨-, htakes, htwice⟩ := withTiming_covers_iff huntimed
  obtain ⟨hcovers, -⟩ := htakes (by decide)
  exact ⟨normal_lastInstantCall, huntimed, by decide +kernel, hcovers.2 (by decide), htwice⟩

/-- A call that is sent in the first instant. -/
def firstInstantCall : Report where
  traceId := ⟨0, 1⟩
  id := 1
  events := [{ timestamp := 0, value := "cs", endpoint := some { service := "web" } },
    { timestamp := 5, value := "cr", endpoint := some { service := "web" } }]

theorem normal_firstInstantCall : firstInstantCall.Normal where
  events := by decide
  tags := by decide
  name := nofun
  timestamp := nofun
  duration := nofun

/-- A built report that is given a duration and no start. -/
theorem not_covers_firstInstantCall :
    firstInstantCall.Normal ∧ firstInstantCall.time = (none, none)
      ∧ firstInstantCall.withTiming.time = (none, some 5)
      ∧ ¬ firstInstantCall.withTiming.CoversEvents := by
  have htime : firstInstantCall.withTiming.time = (none, some 5) := by decide +kernel
  refine ⟨normal_firstInstantCall, rfl, htime, ?_⟩
  rintro ⟨t, d, ht, -⟩
  cases ht.symm.trans (congrArg Prod.fst htime)

end TraceArchive.Report
