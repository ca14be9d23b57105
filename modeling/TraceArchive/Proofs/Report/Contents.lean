import TraceArchive.Report.Merge
import TraceArchive.Trace

set_option autoImplicit false

/-!
What a report tells, the times apart: which events happened on which host, and its tags. Setting
times leaves this alone, and merging reports puts together what they tell.
-/

namespace TraceArchive.Report

theorem mem_endpoints {r : Report} {e : Endpoint} : e ∈ r.endpoints
    ↔ (∃ event ∈ r.events, event.endpoint = some e) ∨ ∃ t ∈ r.tags, t.endpoint = some e := by
  simp [endpoints]

/-- An event of this value happened on this host. -/
def Tells (r : Report) (value : String) (endpoint : Option Endpoint) : Prop :=
  ∃ e ∈ r.events, e.value = value ∧ e.endpoint = endpoint

/-- Two reports of one span that tell the same. -/
structure Alike (a b : Report) : Prop where
  id : a.id = b.id
  events : ∀ value endpoint, a.Tells value endpoint ↔ b.Tells value endpoint
  tags : ∀ t, t ∈ a.tags ↔ t ∈ b.tags

namespace Alike

variable {a b c : Report}

theorem refl (a : Report) : Alike a a := ⟨rfl, fun _ _ => .rfl, fun _ => .rfl⟩

theorem trans (hab : Alike a b) (hbc : Alike b c) : Alike a c :=
  ⟨hab.id.trans hbc.id, fun v e => (hab.events v e).trans (hbc.events v e),
    fun t => (hab.tags t).trans (hbc.tags t)⟩

/-- Only the members of the lists count. -/
theorem of_mem_iff (hid : a.id = b.id) (hevents : ∀ e, e ∈ a.events ↔ e ∈ b.events)
    (htags : ∀ t, t ∈ a.tags ↔ t ∈ b.tags) : Alike a b :=
  ⟨hid, fun _ _ => exists_congr fun e => and_congr_left fun _ => hevents e, htags⟩

/-- Events may be moved in time. -/
theorem of_map {f : Event → Event} (hid : a.id = b.id) (hevents : a.events = b.events.map f)
    (htags : a.tags = b.tags) (hf : ∀ e, (f e).value = e.value ∧ (f e).endpoint = e.endpoint) :
    Alike a b := by
  refine ⟨hid, fun value endpoint => ?_, fun t => by rw [htags]⟩
  rw [Tells, hevents]
  constructor
  · rintro ⟨moved, hmoved, hv, hend⟩
    obtain ⟨e, he, rfl⟩ := List.mem_map.1 hmoved
    exact ⟨e, he, (hf e).1.symm.trans hv, (hf e).2.symm.trans hend⟩
  · rintro ⟨e, he, hv, hend⟩
    exact ⟨f e, List.mem_map_of_mem he, (hf e).1.trans hv, (hf e).2.trans hend⟩

theorem tidy (r : Report) : Alike r.tidy r :=
  of_mem_iff rfl (fun _ => mem_events_tidy) fun _ => mem_tags_tidy

end Alike

/-- What the report tells is what some reports tell together. -/
structure Sums (s : Report) (p : Report → Prop) : Prop where
  events : ∀ value endpoint, s.Tells value endpoint ↔ ∃ r, p r ∧ r.Tells value endpoint
  tags : ∀ t, t ∈ s.tags ↔ ∃ r, p r ∧ t ∈ r.tags

section

variable {a b s : Report} {p q : Report → Prop}

theorem sums_self (r : Report) : r.Sums (· = r) := by
  constructor <;> simp

theorem Alike.sums (h : Alike a b) (hb : b.Sums p) : a.Sums p :=
  ⟨fun v e => (h.events v e).trans (hb.events v e), fun t => (h.tags t).trans (hb.tags t)⟩

theorem Sums.congr (hs : s.Sums p) (h : ∀ r, p r ↔ q r) : s.Sums q := by
  obtain rfl : p = q := funext fun r => propext (h r)
  exact hs

theorem Sums.exists_endpoint (hs : s.Sums p) {e : Endpoint} (he : e ∈ s.endpoints) :
    ∃ r, p r ∧ e ∈ r.endpoints := by
  rcases mem_endpoints.1 he with ⟨event, hevent, hend⟩ | ⟨t, ht, hend⟩
  · obtain ⟨r, hr, told, htold, -, hend⟩ := (hs.events _ _).1 ⟨event, hevent, rfl, hend⟩
    exact ⟨r, hr, mem_endpoints.2 (.inl ⟨told, htold, hend⟩)⟩
  · obtain ⟨r, hr, ht⟩ := (hs.tags t).1 ht
    exact ⟨r, hr, mem_endpoints.2 (.inr ⟨t, ht, hend⟩)⟩

/-- What is told through other reports. -/
theorem Sums.trans {p : Report → Report → Prop} (hs : s.Sums q) (h : ∀ r, q r → r.Sums (p r)) :
    s.Sums fun r => ∃ m, q m ∧ p m r := by
  constructor
  · intro v e
    rw [hs.events]
    constructor
    · rintro ⟨m, hm, ht⟩
      obtain ⟨r, hr, ht⟩ := ((h m hm).events v e).1 ht
      exact ⟨r, ⟨m, hm, hr⟩, ht⟩
    · rintro ⟨r, ⟨m, hm, hr⟩, ht⟩
      exact ⟨m, hm, ((h m hm).events v e).2 ⟨r, hr, ht⟩⟩
  · intro t
    rw [hs.tags]
    constructor
    · rintro ⟨m, hm, ht⟩
      obtain ⟨r, hr, ht⟩ := ((h m hm).tags t).1 ht
      exact ⟨r, ⟨m, hm, hr⟩, ht⟩
    · rintro ⟨r, ⟨m, hm, hr⟩, ht⟩
      exact ⟨m, hm, ((h m hm).tags t).2 ⟨r, hr, ht⟩⟩

theorem Sums.merge (ha : a.Sums p) (hb : b.Sums q) : (a.merge b).Sums fun r => p r ∨ q r := by
  constructor
  · intro v e
    have : (a.merge b).Tells v e ↔ a.Tells v e ∨ b.Tells v e := by
      simp only [Tells, mem_events_merge, or_and_right, exists_or]
    rw [this, ha.events, hb.events]
    simp only [or_and_right, exists_or]
  · intro t
    rw [mem_tags_merge, ha.tags, hb.tags]
    simp only [or_and_right, exists_or]

variable {r : Report} {rs : List Report}

/-- One more report of the group that is told. -/
theorem Sums.append_own (hs : s.Sums fun x => (x ∈ rs ∧ p x) ∨ x = r) (hr : p r) :
    s.Sums fun x => x ∈ rs ++ [r] ∧ p x := by
  apply hs.congr
  intro x
  rw [List.mem_append, List.mem_singleton, or_and_right]
  refine or_congr_right ⟨fun hx => ⟨hx, ?_⟩, fun hx => hx.1⟩
  rw [hx]
  exact hr

/-- A report that is not of the group. -/
theorem Sums.append_other (hs : s.Sums fun x => x ∈ rs ∧ p x) (hr : ¬ p r) :
    s.Sums fun x => x ∈ rs ++ [r] ∧ p x := by
  apply hs.congr
  intro x
  rw [List.mem_append, List.mem_singleton, or_and_right]
  apply (or_iff_left ?_).symm
  rintro ⟨rfl, hx⟩
  exact hr hx

theorem key_merge (h : a.key = b.key) : (a.merge b).key = a.key := by
  obtain ⟨htrace, -⟩ := Key.mk.inj h
  simp [key, Report.merge, tidy, htrace]

end

theorem withTiming_eq (r : Report) :
    ∃ timestamp duration, r.withTiming = Report.tidy { r with timestamp, duration } := by
  simp only [withTiming]
  split
  · split
    · exact ⟨_, _, rfl⟩
    · exact ⟨r.timestamp, r.duration, rfl⟩
  · exact ⟨r.timestamp, r.duration, rfl⟩

@[simp] theorem mem_events_withTiming {r : Report} {e : Event} :
    e ∈ r.withTiming.events ↔ e ∈ r.events := by
  obtain ⟨t, d, h⟩ := withTiming_eq r
  rw [h]
  exact mem_events_tidy

@[simp] theorem mem_tags_withTiming {r : Report} {t : Tag} :
    t ∈ r.withTiming.tags ↔ t ∈ r.tags := by
  obtain ⟨timestamp, duration, h⟩ := withTiming_eq r
  rw [h]
  exact mem_tags_tidy

theorem name_withTiming (r : Report) : r.withTiming.name = r.name := by
  obtain ⟨t, d, h⟩ := withTiming_eq r
  rw [h]
  rfl

theorem key_withTiming (r : Report) : r.withTiming.key = r.key := by
  obtain ⟨t, d, h⟩ := withTiming_eq r
  rw [h]
  rfl

end TraceArchive.Report
