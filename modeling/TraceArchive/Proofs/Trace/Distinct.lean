import TraceArchive.Proofs.Trace.Merging
import TraceArchive.Proofs.Trace.Ties
import TraceArchive.Trace.Linker

set_option autoImplicit false

/-!
Traces whose reports all have span ids of their own. Nothing is merged then: the reports are put in
the order of time and take the high half of the trace. The order leaves no ties, and the part of a
span in a call does not depend on the high half, so parts come in one order however reports come.
-/

namespace TraceArchive

/-- A span apart from the high half of its trace and from its parent. -/
def Span.bare (s : Span) : Span :=
  { s with traceId := { s.traceId with high := 0 }, parentId := none }

namespace Report

theorem loopback?_bare (r : Report) : r.bare.loopback? = r.loopback?.map Span.bare := by
  have hcall : r.bare.call = r.call := rfl
  unfold loopback?
  rw [hcall]
  split
  · split <;> rfl
  · rfl

theorem toSpans_bare (r : Report) : r.bare.toSpans = r.toSpans.map Span.bare := by
  have hspans : r.bare.homes.map r.bare.spanAt = (r.homes.map r.spanAt).map Span.bare := by
    rw [List.map_map]
    rfl
  have hhosts : r.bare.eventHosts = r.eventHosts := rfl
  simp only [toSpans, hspans, hhosts, loopback?_bare, List.map_append, List.map_take, List.map_drop,
    Option.toList_map]

theorem role_bare (r : Report) : r.bare.role = r.role := by
  have hkind : ∀ kind : Option Span.Kind,
      (fun s : Span => s.kind == kind) ∘ Span.bare = fun s => s.kind == kind := fun _ => rfl
  simp only [role, toSpans_bare, List.find?_map, hkind]
  cases r.toSpans.find? (·.kind == some .server) <;>
    cases r.toSpans.find? (·.kind == some .client) <;> rfl

end Report

namespace Trace

variable {rs rs' : List Report}

theorem collapse_eq_self (hids : (rs.map (·.id)).Nodup) : collapse rs = rs := by
  have fold : ∀ rs ts : List Report, ((ts ++ rs).map (·.id)).Nodup →
      rs.foldl (fun merged r => absorb r merged) ts = ts ++ rs := by
    intro rs
    induction rs with
    | nil => exact fun ts _ => (List.append_nil ts).symm
    | cons r rs ih =>
      intro ts hids
      have hnew : r.id ∉ ts.map (·.id) := by
        rw [List.map_append, List.map_cons] at hids
        intro hr
        exact (List.nodup_append.1 hids).2.2 _ hr _ List.mem_cons_self rfl
      rw [List.append_cons] at hids ⊢
      rw [List.foldl_cons, absorb_of_not_mem hnew]
      exact ih _ hids
  exact fold rs [] hids

/-- Without reports of one span nothing is merged. -/
theorem mergeById_of_nodup (hids : (rs.map (·.id)).Nodup) :
    mergeById rs = (sortByTime rs).map (fillHigh (highHalf rs)) := by
  have hkept : (rs.map (fillHigh (highHalf rs))).map (·.id) = rs.map (·.id) := by
    rw [List.map_map]
    exact List.map_congr_left fun r _ => (fillHigh_kept _ r).2.2
  rw [mergeById_eq, collapse_eq_self (hkept ▸ hids), sortByTime_map (fillHigh_kept _)]

theorem role_fillHigh_congr {high high' : UInt64} (h : high = 0 ↔ high' = 0) (r : Report) :
    (fillHigh high r).role = (fillHigh high' r).role := by
  rw [← Report.role_bare, bare_fillHigh h, Report.role_bare]

/-- The parts that spans take in calls come in one order. -/
theorem roles_of_perm (hids : (rs.map (·.id)).Nodup) (h : rs'.Perm rs) : roles rs' = roles rs := by
  have hids' : (rs'.map (·.id)).Nodup := (h.map _).nodup_iff.2 hids
  have hzero : highHalf rs' = 0 ↔ highHalf rs = 0 := by
    simp only [highHalf_eq_zero_iff, h.mem_iff]
  rw [roles, roles, mergeById_of_nodup hids, mergeById_of_nodup hids',
    sortByTime_eq_of_perm hids' h, List.map_map, List.map_map]
  apply List.map_congr_left
  intro r _
  simp only [Function.comp_apply, parentId_fillHigh, (fillHigh_kept _ r).2.2,
    role_fillHigh_congr hzero r]

end Trace

end TraceArchive
