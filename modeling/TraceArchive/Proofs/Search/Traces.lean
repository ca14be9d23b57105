import Mathlib
import TraceArchive.Proofs.Report.Summary
import TraceArchive.Proofs.Search.Matching
import TraceArchive.Proofs.SpanMap.Contents
import TraceArchive.Proofs.Trace.Partition

set_option autoImplicit false

/-!
Search for traces. The two searches in the storage, one for the candidates and one for all of their
spans, come to the same as looking at every stored span: a trace is a candidate if one of its spans
matches, the most recent candidates within the limit are kept, and the test of the request decides.
-/

namespace TraceArchive

namespace Trace

/-- Of the timestamps of all stored spans of a trace this is the latest one. An absent timestamp is
before all others. -/
def Latest (strict : Bool) (stored : Report → Prop) (id : TraceId) (t : Option UInt64) : Prop :=
  IsGreatest {t | ∃ r, stored r ∧ r.InTrace strict id ∧ r.timestamp = t} t

/-- One trace comes before another one in the answers: its latest timestamp is later, or it is the
same and the key is greater. -/
def MoreRecent (strict : Bool) (stored : Report → Prop) (a b : TraceId) : Prop :=
  ∃ s t, Latest strict stored a s ∧ Latest strict stored b t
    ∧ (t < s ∨ t = s ∧ (b.high < a.high ∨ b.high = a.high ∧ b.low < a.low))

/-- The candidates in the order in which they are returned, each with all that is stored of it. -/
structure Ranked (strict : Bool) (stored matching : Report → Prop)
    (ranked : List (TraceId × Trace)) : Prop where
  /-- Where ids are not strict, the keys have no high halves. -/
  candidates : ∀ id, id ∈ ranked.map Prod.fst
    ↔ (∃ r, stored r ∧ matching r ∧ r.InTrace strict id) ∧ (strict = false → id.high = 0)
  descending : (ranked.map Prod.fst).Pairwise (MoreRecent strict stored)
  whole : ∀ t ∈ ranked, ∀ r, r ∈ t.2 ↔ stored r ∧ r.InTrace strict t.1
  once : ∀ t ∈ ranked, t.2.Nodup
  inTime : ∀ t ∈ ranked, t.2.Pairwise fun a b => a.Before b ∨ a.TiesWith b

theorem byRecency_eq_lt_iff {a b : TraceId × Trace} :
    byRecency a b = .lt ↔ a.2.latest < b.2.latest ∨ a.2.latest = b.2.latest
      ∧ (a.1.high < b.1.high ∨ a.1.high = b.1.high ∧ a.1.low < b.1.low) := by
  have hlatest : compare a.2.latest b.2.latest = .lt ↔ a.2.latest < b.2.latest :=
    compare_option_eq_lt_iff (fun _ _ => Std.compare_eq_lt) _ _
  simp only [byRecency, compareLex, compareOn, Ordering.then_eq_lt, hlatest,
    TraceId.compare_eq_lt_iff, Std.LawfulEqCmp.compare_eq_iff_eq]

theorem rank_perm (traces : List (TraceId × Trace)) : (rank traces).Perm traces :=
  List.mergeSort_perm ..

theorem isLE_byRecency_total (a b : TraceId × Trace) :
    ((byRecency b a).isLE || (byRecency a b).isLE) = true := by
  cases h : byRecency b a with
  | lt => rfl
  | eq => rfl
  | gt => simp [Std.OrientedCmp.gt_iff_lt.1 h]

theorem rank_pairwise (traces : List (TraceId × Trace)) :
    (rank traces).Pairwise fun a b => (byRecency b a).isLE = true :=
  @List.pairwise_mergeSort (TraceId × Trace) (fun a b => (byRecency b a).isLE)
    (fun _ _ _ hab hbc => Std.TransCmp.isLE_trans hbc hab) isLE_byRecency_total traces

/-- No timestamp of a trace is after the one that the trace is ranked by. -/
theorem isGreatest_latest {t : Trace} (hne : t ≠ []) :
    IsGreatest {x | ∃ r ∈ t, r.timestamp = x} t.latest := by
  cases hlatest : t.latest with
  | none =>
    have hnone : ∀ r ∈ t, r.timestamp = none :=
      List.filterMap_eq_nil_iff.1 (List.max?_eq_none_iff.1 hlatest)
    obtain ⟨r, hr⟩ := List.exists_mem_of_ne_nil t hne
    refine ⟨⟨r, hr, hnone r hr⟩, ?_⟩
    rintro _ ⟨s, hs, rfl⟩
    rw [hnone s hs]
    exact Option.none_le
  | some last =>
    obtain ⟨hlast, hmax⟩ := List.max?_eq_some_iff.1 hlatest
    refine ⟨List.mem_filterMap.1 hlast, ?_⟩
    rintro _ ⟨s, hs, rfl⟩
    cases hstart : s.timestamp with
    | none => exact Option.none_le
    | some start =>
      exact Option.some_le_some.2 (hmax start (List.mem_filterMap.2 ⟨s, hs, hstart⟩))

variable {strict : Bool} {stored matching : Report → Prop}

theorem latest_of_whole {id : TraceId} {t : Trace} (hne : t ≠ [])
    (hwhole : ∀ r, r ∈ t ↔ stored r ∧ r.InTrace strict id) : Latest strict stored id t.latest := by
  have := isGreatest_latest hne
  simpa only [Latest, hwhole, and_assoc] using this

/-- No trace comes before itself. -/
theorem not_moreRecent_self (id : TraceId) : ¬ MoreRecent strict stored id id := by
  rintro ⟨s, t, hs, ht, hlater | ⟨-, hkey⟩⟩
  · -- Each of the two timestamps bounds the other one.
    have hle : s ≤ t := ht.2 hs.1
    cases s <;> cases t <;> simp at hlater hle
    exact UInt64.not_le.2 hlater hle
  · exact hkey.elim (UInt64.lt_irrefl _) fun h => UInt64.lt_irrefl _ h.2

namespace Ranked

variable {ranked : List (TraceId × Trace)}

theorem nil (h : ∀ r, stored r → ¬ matching r) : Ranked strict stored matching [] where
  candidates id := by
    constructor
    · exact fun hid => by simp at hid
    · rintro ⟨⟨r, hr, hmatch, -⟩, -⟩
      exact absurd hmatch (h r hr)
  descending := .nil
  whole := by simp
  once := by simp
  inTime := by simp

/-- A trace is ranked if a span with its key matches. -/
theorem mem_map_fst_iff (h : Ranked strict stored matching ranked) {id : TraceId} :
    id ∈ ranked.map Prod.fst ↔ ∃ r, stored r ∧ matching r ∧ r.traceKey strict = id := by
  simp only [h.candidates, Report.traceKey_eq_iff, ← and_assoc, exists_and_right]

/-- A ranked trace has all stored spans with its key. -/
theorem mem_iff (h : Ranked strict stored matching ranked) {t : TraceId × Trace} (ht : t ∈ ranked)
    {r : Report} : r ∈ t.2 ↔ stored r ∧ r.traceKey strict = t.1 := by
  have hkey := ((h.candidates t.1).1 (List.mem_map_of_mem ht)).2
  rw [h.whole t ht, Report.traceKey_eq_iff, and_iff_left hkey]

/-- No trace is ranked twice. -/
theorem nodup (h : Ranked strict stored matching ranked) : (ranked.map Prod.fst).Nodup := by
  refine List.Pairwise.imp ?_ h.descending
  rintro id _ hself rfl
  exact not_moreRecent_self id hself

end Ranked

/-- Ranking all spans of the candidates. -/
theorem ranked_rank_group {rs : List Report} (hnodup : rs.Nodup)
    (hrs : ∀ r, r ∈ rs ↔ stored r
      ∧ ∃ s, stored s ∧ matching s ∧ s.traceKey strict = r.traceKey strict) :
    Ranked strict stored matching (rank (group strict rs)) := by
  have hmem : ∀ {t}, t ∈ rank (group strict rs) ↔ t ∈ group strict rs := (rank_perm _).mem_iff
  have hkeys : ((rank (group strict rs)).map Prod.fst).Nodup :=
    ((rank_perm _).map Prod.fst).nodup_iff.2 (nodup_map_fst_group strict rs)
  have hids : ∀ id, id ∈ (rank (group strict rs)).map Prod.fst
      ↔ ∃ r, stored r ∧ matching r ∧ r.traceKey strict = id := by
    intro id
    rw [((rank_perm _).map Prod.fst).mem_iff, mem_map_fst_group]
    constructor
    · rintro ⟨r, hr, rfl⟩
      exact ((hrs r).1 hr).2
    · rintro ⟨r, hr, hmatch, rfl⟩
      exact ⟨r, (hrs r).2 ⟨hr, r, hr, hmatch, rfl⟩, rfl⟩
  have hwhole : ∀ t ∈ rank (group strict rs), ∀ r,
      r ∈ t.2 ↔ stored r ∧ r.InTrace strict t.1 := by
    rintro ⟨id, t⟩ ht r
    obtain ⟨s, hs, hid⟩ := (mem_group.1 (hmem.1 ht)).1
    have hkey := (Report.traceKey_eq_iff.1 hid).2
    rw [mem_of_mem_group (hmem.1 ht), hrs, Report.traceKey_eq_iff, and_iff_left hkey]
    constructor
    · exact fun h => ⟨h.1.1, h.2⟩
    · rintro ⟨hr, hin⟩
      have hr' : r.traceKey strict = id := Report.traceKey_eq_iff.2 ⟨hin, hkey⟩
      exact ⟨⟨hr, by rw [hr', ← hid]; exact ((hrs s).1 hs).2⟩, hin⟩
  have hlatest : ∀ t ∈ rank (group strict rs), Latest strict stored t.1 t.2.latest := fun t ht =>
    latest_of_whole ((partition_group strict rs).nonempty t (hmem.1 ht)) (hwhole t ht)
  constructor
  · intro id
    simp only [hids, Report.traceKey_eq_iff, ← and_assoc, exists_and_right]
  · -- Two candidates have different keys, so they never compare equal.
    refine List.pairwise_map.2
      (((rank_pairwise _).and (List.pairwise_map.1 hkeys)).imp_of_mem fun {a b} ha hb h => ?_)
    refine ⟨_, _, hlatest a ha, hlatest b hb, byRecency_eq_lt_iff.1
      ((Ordering.isLE_iff_eq_lt_or_eq_eq.1 h.1).resolve_right ?_)⟩
    intro heq
    have hkey : compare b.1 a.1 = .eq := (compareLex_eq_eq.1 heq).2
    exact h.2 (Std.LawfulEqCmp.eq_of_compare hkey).symm
  · exact hwhole
  · exact fun t ht => nodup_of_mem_group hnodup (hmem.1 ht)
  · exact fun t ht => (pairwise_of_mem_group (hmem.1 ht)).imp Report.isLE_byTime_iff.1

end Trace

namespace Session

variable {m : SpanMap} {x : ServiceIndex} {s : Store}

theorem yields_recordedNames (q : Request) (hs : s.Sound) :
    (recordedNames q).Yields s (q.recorded? s.services) s := by
  unfold recordedNames Request.recorded?
  cases q.spanName with
  | some name => exact yields_pure none s
  | none =>
    cases q.service with
    | none => exact yields_pure none s
    | some service => exact (yields_spanNamesOf service hs).bind (yields_pure _ s)

/-- What a request finds in a store that does not fail. -/
theorem yields_getTraces (strict : Bool) (q : Request) (hs : s.Sound) (hm : s.spans.Keyed) :
    ∃ ranked, Trace.Ranked strict (fun r => s.spans.get? r.key = some r)
        (q.Matches s.services) ranked
      ∧ (getTraces strict q).Yields s
          (((ranked.take q.limit.toNat).map Prod.snd).filter q.test) s := by
  have hfound : ∀ p r, r ∈ s.values p ↔ s.spans.get? r.key = some r ∧ p.test r = true :=
    fun p r => (s.values_perm p).mem_iff.trans (SpanMap.mem_values_iff hm)
  have hnodup : ∀ p, (s.values p).Nodup :=
    fun p => (s.values_perm p).nodup_iff.2 (SpanMap.nodup_values hm p)
  have hids : ∀ id, id ∈ Trace.candidates strict (s.project
      (q.predicate ((q.recorded? s.services).getD [])) TraceId.columns)
      ↔ ∃ r, s.spans.get? r.key = some r ∧ q.Matches s.services r ∧ r.traceKey strict = id := by
    intro id
    rw [Store.project, Trace.mem_candidates]
    simp only [hfound, Request.test_predicate_iff, and_assoc]
  unfold getTraces
  by_cases hnone : q.recorded? s.services = some []
  · refine ⟨[], .nil fun r _ => Request.not_matches_of_recorded?_eq_nil hnone,
      (yields_recordedNames q hs).bind ?_⟩
    rw [if_pos hnone, List.take_nil, List.map_nil, List.filter_nil]
    exact yields_pure [] s
  generalize hcandidates : Trace.candidates strict (s.project
      (q.predicate ((q.recorded? s.services).getD [])) TraceId.columns) = ids at hids
  by_cases hempty : ids.isEmpty = true
  · refine ⟨[], .nil fun r hr hmatch => ?_, (yields_recordedNames q hs).bind ?_⟩
    · have hmem : r.traceKey strict ∈ ids.toList := (hids _).2 ⟨r, hr, hmatch, rfl⟩
      rw [List.isEmpty_iff.1 hempty] at hmem
      cases hmem
    · rw [if_neg hnone]
      apply (yields_findRows _ _ hs).bind
      rw [hcandidates, if_pos hempty, List.take_nil, List.map_nil, List.filter_nil]
      exact yields_pure [] s
  · refine ⟨_, Trace.ranked_rank_group (hnodup (Trace.anyOf strict ids)) fun r => ?_,
      (yields_recordedNames q hs).bind ?_⟩
    · rw [hfound, Trace.test_anyOf_iff, hids]
      intro id hid
      obtain ⟨r, -, -, hr⟩ := (hids id).1 hid
      exact ⟨r, hr⟩
    · rw [if_neg hnone]
      apply (yields_findRows _ _ hs).bind
      rw [hcandidates, if_neg hempty]
      exact (yields_findReports _ hs).bind (yields_pure _ s)

/-- The start of a trace within the window from 4 to 6 milliseconds. -/
def lookup : Report where
  traceId := ⟨1, 2⟩
  id := 3
  name := some "get"
  timestamp := some 4500

/-- A span of the same trace after the window. -/
def afterwards : Report where
  traceId := ⟨1, 2⟩
  id := 4
  parentId := some 3
  timestamp := some 9000

/-- A trace that starts later in the window, and has the greater key. -/
def overtaken : Report where
  traceId := ⟨1, 9⟩
  id := 3
  name := some "get"
  timestamp := some 5000

def twoTraces : SpanMap :=
  ((SpanMap.empty.put overtaken.key overtaken).put afterwards.key afterwards).put lookup.key lookup

theorem keyed_twoTraces : twoTraces.Keyed :=
  ((SpanMap.keyed_empty.put rfl).put rfl).put rfl

end Session

end TraceArchive
