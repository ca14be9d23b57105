import TraceArchive.Proofs.Ingest
import TraceArchive.Proofs.Search.Matching
import TraceArchive.Proofs.Trace.Merging
import TraceArchive.Proofs.Trace.Skew

set_option autoImplicit false

/-!
Reading a trace back. Between ingest and search the reports of a span are merged twice, once under
their key and once under their span id, and the clocks of the trace are corrected. What the trace
tells in the end is what was reported of it.
-/

namespace TraceArchive

namespace Trace

/-- A trace that tells what was reported of it, with one report for each span. -/
structure Accounts (strict : Bool) (id : TraceId) (reported : List Report) (t : Trace) : Prop where
  once : (t.map (·.id)).Nodup
  ids : ∀ i, i ∈ t.map (·.id) ↔ ∃ r ∈ reported, r.InTrace strict id ∧ r.id = i
  events : ∀ s ∈ t, ∀ value endpoint, (∃ e ∈ s.events, e.value = value ∧ e.endpoint = endpoint)
    ↔ ∃ r ∈ reported, r.InTrace strict id ∧ r.id = s.id
        ∧ ∃ e ∈ r.events, e.value = value ∧ e.endpoint = endpoint
  tags : ∀ s ∈ t, ∀ tag, tag ∈ s.tags
    ↔ ∃ r ∈ reported, r.InTrace strict id ∧ r.id = s.id ∧ tag ∈ r.tags

end Trace

namespace Session

variable {s : Store} {rs : List Report} {strict : Bool} {id : TraceId}

/-- The stored reports of a trace. -/
theorem Accepted.mem_values_iff (h : Accepted s rs) {r : Report} :
    r ∈ s.values (id.predicate strict) ↔ s.spans.get? r.key = some r ∧ r.InTrace strict id := by
  rw [(s.values_perm _).mem_iff, SpanMap.mem_values_iff h.holds.keyed, TraceId.test_predicate_iff]

theorem inTrace_congr {r r' : Report} (h : r.key = r'.key) :
    r.InTrace strict id ↔ r'.InTrace strict id := by
  rw [Report.InTrace, Report.InTrace, (Key.mk.inj h).1]

/-- For each report of a trace there is a stored one that has its key. -/
theorem Accepted.exists_mem_values_iff (h : Accepted s rs) (i : UInt64) :
    (∃ m ∈ s.values (id.predicate strict), m.id = i)
      ↔ ∃ r ∈ rs, r.InTrace strict id ∧ r.id = i := by
  constructor
  · rintro ⟨m, hm, rfl⟩
    obtain ⟨hget, hin⟩ := h.mem_values_iff.1 hm
    obtain ⟨r, hr, hkey⟩ := (h.holds.found m.key).1 ⟨m, hget⟩
    exact ⟨r, hr, (inTrace_congr hkey).2 hin, (Key.mk.inj hkey).2⟩
  · rintro ⟨r, hr, hin, rfl⟩
    obtain ⟨m, hget⟩ := (h.holds.found r.key).2 ⟨r, hr, rfl⟩
    have hkey : m.key = r.key := h.holds.keyed _ _ hget
    exact ⟨m, h.mem_values_iff.2 ⟨hkey ▸ hget, (inTrace_congr hkey).2 hin⟩, (Key.mk.inj hkey).2⟩

theorem Accepted.values_eq_nil_iff (h : Accepted s rs) :
    s.values (id.predicate strict) = [] ↔ ∀ r ∈ rs, ¬ r.InTrace strict id := by
  rw [List.eq_nil_iff_forall_not_mem]
  constructor
  · intro hnone r hr hin
    obtain ⟨m, hm, -⟩ := (h.exists_mem_values_iff r.id).2 ⟨r, hr, hin, rfl⟩
    exact hnone m hm
  · intro hnone m hm
    obtain ⟨r, hr, hin, -⟩ := (h.exists_mem_values_iff m.id).1 ⟨m, hm, rfl⟩
    exact hnone r hr hin

/-- What is merged from the stored reports of a span tells what all reports of the span tell. -/
theorem Accepted.sums (h : Accepted s rs) {t : Report}
    (ht : t.Sums fun m => m ∈ s.values (id.predicate strict) ∧ m.id = t.id) :
    t.Sums fun r => r ∈ rs ∧ r.InTrace strict id ∧ r.id = t.id := by
  have hstored : ∀ m, m ∈ s.values (id.predicate strict) ∧ m.id = t.id →
      m.Sums fun r => r ∈ rs ∧ r.key = m.key := fun m hm =>
    h.holds.sums m.key m (h.mem_values_iff.1 hm.1).1
  apply (ht.trans hstored).congr
  intro r
  constructor
  · rintro ⟨m, ⟨hm, hid⟩, hr, hkey⟩
    exact ⟨hr, (inTrace_congr hkey).2 (h.mem_values_iff.1 hm).2, (Key.mk.inj hkey).2.trans hid⟩
  · rintro ⟨hr, hin, hid⟩
    obtain ⟨m, hget⟩ := (h.holds.found r.key).2 ⟨r, hr, rfl⟩
    have hkey : m.key = r.key := h.holds.keyed _ _ hget
    exact ⟨m, ⟨h.mem_values_iff.2 ⟨hkey ▸ hget, (inTrace_congr hkey).2 hin⟩,
      (Key.mk.inj hkey).2.trans hid⟩, hr, hkey.symm⟩

theorem Accepted.accounts (h : Accepted s rs) {t : Trace}
    (ht : Trace.Merged t (s.values (id.predicate strict))) : Trace.Accounts strict id rs t where
  once := ht.once
  ids i := by
    rw [ht.ids, List.mem_map]
    exact h.exists_mem_values_iff i
  events r hr value endpoint := by
    have := (h.sums (ht.sums r hr)).events value endpoint
    simpa only [Report.Tells, and_assoc] using this
  tags r hr tag := by
    have := (h.sums (ht.sums r hr)).tags tag
    simpa only [and_assoc] using this

/-- What a search for a trace finds. -/
theorem Accepted.getTrace (h : Accepted s rs) (strict : Bool) (id : TraceId) :
    ∃ found, (getTrace strict id).Yields s found s
      ∧ (found.value = none ↔ ∀ r ∈ rs, ¬ r.InTrace strict id)
      ∧ ∀ t, found.value = some t → Trace.Accounts strict id rs t := by
  have hraw : (getRawTrace strict id).Yields s
      (if (s.values (id.predicate strict)).isEmpty then none
        else some (s.values (id.predicate strict))) s :=
    (yields_findReports _ h.sound).bind (yields_pure _ s)
  rw [← h.values_eq_nil_iff]
  by_cases hnone : s.values (id.predicate strict) = []
  · refine ⟨⟨none, []⟩, hraw.bind ?_, by simp [hnone], by simp⟩
    rw [hnone]
    exact yields_pure _ s
  · rw [if_neg (by simpa using hnone)] at hraw
    refine ⟨_, hraw.bind (yields_pure _ s), by simp [hnone], fun t ht => ?_⟩
    obtain rfl := Option.some.inj ht
    obtain ⟨merged, hperm, halike⟩ := Trace.correctSkew_alike
      (Trace.mergeById (Trace.sortByTime (s.values (id.predicate strict))))
    exact h.accounts ((((Trace.merged_mergeById _).perm hperm).alike halike).congr
      (Trace.sortByTime_perm _))

/-- Nothing that was reported is lost or made up between ingest and search. -/
theorem getTrace_accept (a : Arrangement Predicate) (strict : Bool) (batches : List (List Report))
    (id : TraceId) :
    ∃ (s : Store) (found : Diagnosed (Option Trace)),
      (batches.forM accept).run { arrangement := a } = (.ok (), s)
      ∧ (Session.getTrace strict id).run s = (.ok found, s)
      ∧ (found.value = none ↔ ∀ r ∈ batches.flatten, ¬ r.InTrace strict id)
      ∧ ∀ t, found.value = some t → Trace.Accounts strict id batches.flatten t := by
  obtain ⟨s, haccept, hs⟩ := (accepted_empty a).acceptAll batches
  rw [List.nil_append] at hs
  obtain ⟨found, hfound, hnone, hsome⟩ := hs.getTrace strict id
  exact ⟨s, found, haccept, hfound, hnone, hsome⟩

end Session

end TraceArchive
