import TraceArchive.Proofs.Report.Merging
import TraceArchive.Proofs.Sorted.Map
import TraceArchive.Proofs.Trace.Distinct
import TraceArchive.Proofs.Trace.Partition

set_option autoImplicit false

/-!
Complete spans. Merging the reports of a trace by their span ids gives for each span the merge of
its own reports in the order in which they came, each with a high half if any report of the trace
has one. Since no two of them have one id, the order of time leaves no ties, and merging again
changes nothing.
-/

namespace TraceArchive

namespace Report

theorem high_merge_of_ne_zero {a b : Report} (h : a.traceId.high ≠ 0) :
    (a.merge b).traceId.high = a.traceId.high := if_neg h

/-- The first report decides on the high half, if it has one or if no report has. -/
theorem high_foldl_merge {a : Report} {rs : List Report}
    (h : a.traceId.high = 0 → ∀ r ∈ rs, r.traceId.high = 0) :
    (rs.foldl merge a).traceId.high = a.traceId.high := by
  induction rs generalizing a with
  | nil => rfl
  | cons r rs ih =>
    have hmerge : (a.merge r).traceId.high = a.traceId.high := by
      by_cases hzero : a.traceId.high = 0
      · have hr : r.traceId.high = 0 := h hzero r List.mem_cons_self
        exact (if_pos hzero).trans (hr.trans hzero.symm)
      · exact high_merge_of_ne_zero hzero
    rw [List.foldl_cons, ih, hmerge]
    intro hzero s hs
    exact h (hmerge ▸ hzero) s (List.mem_cons_of_mem r hs)

end Report

namespace Trace

variable {rs ts : List Report} {r s : Report} {id : UInt64}

theorem find?_absorb (r : Report) (ts : List Report) (id : UInt64) :
    (absorb r ts).find? (·.id == id) = if id = r.id then
      some (((ts.find? (·.id == id)).map (·.merge r)).getD r)
    else ts.find? (·.id == id) := by
  induction ts with
  | nil => by_cases h : id = r.id <;> simp [absorb, h, Ne.symm]
  | cons t ts ih =>
    by_cases ht : t.id = r.id
    · have hmerge : (t.merge r).id = r.id := ht
      by_cases h : id = r.id
      · simp [absorb, ht, h, hmerge]
      · have : ¬ r.id = id := Ne.symm h
        simp [absorb, ht, h, hmerge, this]
    · rw [absorb, if_neg ht]
      by_cases hid : t.id = id
      · have : ¬ id = r.id := hid ▸ ht
        simp [hid, this]
      · simp [hid, ih]

/-- What stands for a span is the merge of its own reports. -/
theorem find?_collapse (rs : List Report) (id : UInt64) :
    (collapse rs).find? (·.id == id) = Report.mergeAll? (rs.filter (·.id == id)) := by
  induction rs using List.reverseRecOn with
  | nil => rfl
  | append_singleton rs r ih =>
    have hfold : collapse (rs ++ [r]) = absorb r (collapse rs) := List.foldl_concat ..
    rw [hfold, find?_absorb, ih, List.filter_append]
    by_cases h : id = r.id
    · have hlast : [r].filter (·.id == id) = [r] := by simp [h]
      rw [if_pos h, hlast, Report.mergeAll?_concat]
      cases Report.mergeAll? (rs.filter (·.id == id)) <;> rfl
    · have hnone : [r].filter (·.id == id) = [] := by simp [Ne.symm h]
      rw [if_neg h, hnone, List.append_nil]

theorem high_fillHigh (high : UInt64) (r : Report) :
    (fillHigh high r).traceId.high = if r.traceId.high = 0 then high else r.traceId.high := by
  unfold fillHigh
  by_cases hr : r.traceId.high = 0 <;> by_cases hhigh : high = 0 <;> simp [hr, hhigh, Report.tidy]

theorem mem_events_fillHigh {high : UInt64} {e : Event} :
    e ∈ (fillHigh high r).events ↔ e ∈ r.events := by
  unfold fillHigh
  split
  · exact Report.mem_events_tidy
  · exact .rfl

theorem mem_tags_fillHigh {high : UInt64} {t : Tag} :
    t ∈ (fillHigh high r).tags ↔ t ∈ r.tags := by
  unfold fillHigh
  split
  · exact Report.mem_tags_tidy
  · exact .rfl

/-- A merged report is the merge of the reports with its id, once these have a high half. -/
theorem mergeAll?_of_mem_mergeById (hs : s ∈ mergeById rs) :
    Report.mergeAll? ((rs.filter (·.id == s.id)).map (fillHigh (highHalf rs))) = some s := by
  have hperm := sortByTime_perm (collapse (rs.map (fillHigh (highHalf rs))))
  have distinct := (hperm.map _).nodup_iff.1 (merged_mergeById rs).once
  have hfound : (collapse (rs.map (fillHigh (highHalf rs)))).find? (·.id == s.id) = some s :=
    (find?_eq_some_iff_of_nodup (fun _ => beq_iff_eq) distinct).2 ⟨hperm.mem_iff.1 hs, rfl⟩
  have hfilter : (fun r : Report => r.id == s.id) ∘ fillHigh (highHalf rs) = (·.id == s.id) :=
    funext fun r => congrArg (· == s.id) (fillHigh_kept _ r).2.2
  rw [find?_collapse, List.filter_map, hfilter] at hfound
  exact hfound

/-- The high half of the first report that has one. -/
def firstHigh (rs : List Report) : UInt64 :=
  ((rs.find? fun r => r.traceId.high ≠ 0).map (·.traceId.high)).getD 0

theorem highHalf_eq_firstHigh (rs : List Report) : highHalf rs = firstHigh rs := by
  rw [highHalf, firstHigh, List.find?_map]
  rfl

/-- One report for each span, which tells all that is told of the span. -/
structure Complete (merged rs : List Report) : Prop where
  once : (merged.map (·.id)).Nodup
  ids : ∀ id, id ∈ merged.map (·.id) ↔ id ∈ rs.map (·.id)
  events : ∀ s ∈ merged, ∀ e, e ∈ s.events ↔ ∃ r ∈ rs, r.id = s.id ∧ e ∈ r.events
  tags : ∀ s ∈ merged, ∀ t, t ∈ s.tags ↔ ∃ r ∈ rs, r.id = s.id ∧ t ∈ r.tags
  /-- The first report of a span decides on the high half, or else the first report with one. -/
  high : ∀ s ∈ merged, ∃ r, rs.find? (·.id == s.id) = some r
    ∧ s.traceId.high = if r.traceId.high = 0 then firstHigh rs else r.traceId.high
  filled : (∃ r ∈ rs, r.traceId.high ≠ 0) → ∀ s ∈ merged, s.traceId.high ≠ 0
  inTime : merged.Pairwise Report.Before

theorem high_of_mem_mergeById (hs : s ∈ mergeById rs) :
    ∃ r, rs.find? (·.id == s.id) = some r
      ∧ s.traceId.high = if r.traceId.high = 0 then highHalf rs else r.traceId.high := by
  have hmerge := mergeAll?_of_mem_mergeById hs
  rw [← List.head?_filter]
  cases hown : rs.filter (·.id == s.id) with
  | nil => simp [hown, Report.mergeAll?] at hmerge
  | cons r rest =>
    refine ⟨r, rfl, ?_⟩
    rw [hown] at hmerge
    obtain rfl := Option.some.inj hmerge
    rw [Report.high_foldl_merge, high_fillHigh]
    -- Only where no report has a high half the first one of the span is left without.
    intro hzero x hx
    obtain ⟨y, hy, rfl⟩ := List.mem_map.1 hx
    rw [high_fillHigh] at hzero ⊢
    have hnone : highHalf rs = 0 := by
      split at hzero
      · exact hzero
      · contradiction
    have hy : y ∈ rs := List.mem_of_mem_filter (hown ▸ List.mem_cons_of_mem r hy)
    rw [if_pos (highHalf_eq_zero_iff.1 hnone y hy), hnone]

theorem highHalf_ne_zero (h : ∃ r ∈ rs, r.traceId.high ≠ 0) : highHalf rs ≠ 0 := by
  obtain ⟨r, hr, hne⟩ := h
  exact fun hzero => hne (highHalf_eq_zero_iff.1 hzero r hr)

/-- Reports in the order of time that all have ids of their own do not tie. -/
theorem pairwise_before (hids : (rs.map (·.id)).Nodup)
    (hrs : rs.Pairwise fun a b => (a.byTime b).isLE = true) : rs.Pairwise Report.Before := by
  refine (hrs.and (List.pairwise_map.1 hids)).imp ?_
  rintro a b ⟨hle, hne⟩
  exact (Report.isLE_byTime_iff.1 hle).resolve_right fun hties => hne hties.2.2

theorem complete_mergeById (rs : List Report) : Complete (mergeById rs) rs where
  once := (merged_mergeById rs).once
  ids := (merged_mergeById rs).ids
  events s hs e := by
    rw [Report.mem_events_mergeAll? (mergeAll?_of_mem_mergeById hs)]
    simp [mem_events_fillHigh, and_assoc]
  tags s hs t := by
    rw [Report.mem_tags_mergeAll? (mergeAll?_of_mem_mergeById hs)]
    simp [mem_tags_fillHigh, and_assoc]
  high s hs := by
    rw [← highHalf_eq_firstHigh]
    exact high_of_mem_mergeById hs
  filled hne s hs := by
    obtain ⟨r, -, hhigh⟩ := high_of_mem_mergeById hs
    rw [hhigh]
    split
    · exact highHalf_ne_zero hne
    · assumption
  inTime := pairwise_before (merged_mergeById rs).once (sortByTime_pairwise _)

theorem fillHigh_eq_self {high : UInt64} (h : r.traceId.high = 0 → high = 0) :
    fillHigh high r = r := if_neg fun ⟨hr, hne⟩ => hne (h hr)

/-- Either all complete spans have a high half or none has. -/
theorem Complete.highHalf_eq_zero (h : Complete ts rs) (hs : s ∈ ts) (hzero : s.traceId.high = 0) :
    highHalf ts = 0 := by
  have hnone : ∀ r ∈ rs, r.traceId.high = 0 := fun r hr =>
    Classical.byContradiction fun hne => h.filled ⟨r, hr, hne⟩ s hs hzero
  refine highHalf_eq_zero_iff.2 fun t ht => ?_
  obtain ⟨r, hr, hhigh⟩ := h.high t ht
  rw [hhigh, if_pos (hnone r (List.mem_of_find?_eq_some hr)), ← highHalf_eq_firstHigh,
    highHalf_eq_zero_iff.2 hnone]

/-- Complete spans stay as they are. -/
theorem Complete.mergeById_eq_self (h : Complete ts rs) : mergeById ts = ts := by
  have hsorted : ts.Pairwise fun a b => (a.byTime b).isLE = true :=
    h.inTime.imp fun hbefore => Report.isLE_byTime_iff.2 (.inl hbefore)
  rw [mergeById_of_nodup h.once, sortByTime_eq_self hsorted]
  calc ts.map (fillHigh (highHalf ts))
    _ = ts.map id := List.map_congr_left fun _ hs => fillHigh_eq_self (h.highHalf_eq_zero hs)
    _ = ts := List.map_id ts

/-- Merging by ids completes the spans, and there is nothing to merge in complete spans. -/
theorem mergeById_completes (rs : List Report) :
    Complete (mergeById rs) rs ∧ mergeById (mergeById rs) = mergeById rs :=
  ⟨complete_mergeById rs, (complete_mergeById rs).mergeById_eq_self⟩

end Trace

end TraceArchive
