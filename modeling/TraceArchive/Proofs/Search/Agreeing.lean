import Mathlib.Data.List.Dedup
import TraceArchive.Proofs.Search.Traces

set_option autoImplicit false

/-!
What is asked of a span and what is asked of a trace. A span that matches a request, and belongs to
the service if one is asked for, carries its traces through the test of the request. So the test
turns down no candidate of a request without a service, and the page is full.
-/

namespace TraceArchive

namespace Request

variable {q : Request} {x : ServiceIndex} {r : Report} {trace : List Report}

theorem durationInBounds_iff {d : UInt64} : q.durationInBounds d = true
    ↔ (∀ min, q.minDuration = some min → min ≤ d) ∧ ∀ max, q.maxDuration = some max → d ≤ max := by
  rw [durationInBounds, Bool.and_eq_true, atLeast_iff, atMost_iff]

/-- The predicate that the storage is searched by. -/
def sent (q : Request) (x : ServiceIndex) : Predicate := q.predicate ((q.recorded? x).getD [])

theorem test_sent_iff : (q.sent x).test r = true ↔ q.Matches x r := test_predicate_iff

/-- One span that has all that is asked for is enough. -/
theorem test_of_matches (hmatch : q.Matches x r) (hservice : r.inService q.service = true)
    (hr : r ∈ trace) : q.test trace = true := by
  have hname : ∀ name, q.spanName = some name →
      (trace.any fun s => s.name == some name && s.inService q.service) = true := fun name hq =>
    List.any_eq_true.2 ⟨r, hr, by simp [hmatch.spanName name hq, hservice]⟩
  have hterm : ∀ term ∈ q.terms.toList,
      (trace.any fun s => s.hasEvent term || s.hasTagKey term) = true := fun term hq => by
    refine List.any_eq_true.2 ⟨r, hr, ?_⟩
    rw [Bool.or_eq_true, Report.hasEvent_iff, Report.hasTagKey_iff]
    exact hmatch.terms term hq
  have htag : ∀ t ∈ q.tags.entries, (trace.any fun s => s.hasTag t.1 t.2) = true := fun t hq =>
    List.any_eq_true.2 ⟨r, hr, Report.hasTag_iff.2 (hmatch.tags t hq)⟩
  have hduration : q.hasDurationBounds = true → (trace.any fun s =>
      s.inService q.service && s.duration.any q.durationInBounds) = true := fun hq => by
    obtain ⟨d, hd, hbounds⟩ := duration_iff.2 ⟨hmatch.shortest, hmatch.longest⟩ hq
    refine List.any_eq_true.2 ⟨r, hr, ?_⟩
    rw [hservice, hd, Bool.true_and, Option.any_some]
    exact durationInBounds_iff.2 hbounds
  simp only [test, Bool.and_eq_true, Bool.or_eq_true, Option.all_eq_true, List.all_eq_true]
  refine ⟨⟨⟨⟨.inr (List.any_eq_true.2 ⟨r, hr, hservice⟩), hname⟩, hterm⟩, htag⟩, ?_⟩
  by_cases hbounds : q.hasDurationBounds = true
  · exact .inr (hduration hbounds)
  · exact .inl (by simpa using hbounds)

end Request

namespace Trace

variable {strict : Bool} {stored matching : Report → Prop} {ranked : List (TraceId × Trace)}

/-- There are as many traces to rank as there are traces with matching spans. -/
theorem Ranked.length_eq (h : Ranked strict stored matching ranked) {rs : List Report}
    (hrs : ∀ r, r ∈ rs ↔ stored r ∧ matching r) :
    ranked.length = (rs.map (·.traceKey strict)).dedup.length := by
  have hperm : (ranked.map Prod.fst).Perm (rs.map (·.traceKey strict)).dedup := by
    refine (List.perm_ext_iff_of_nodup h.nodup (List.nodup_dedup _)).2 fun id => ?_
    simp only [h.mem_map_fst_iff, List.mem_dedup, List.mem_map, hrs, and_assoc]
  rw [← hperm.length_eq, List.length_map]

/-- Every candidate has a matching span. -/
theorem Ranked.exists_matching (h : Ranked strict stored matching ranked) {t : TraceId × Trace}
    (ht : t ∈ ranked) : ∃ r ∈ t.2, matching r := by
  obtain ⟨r, hr, hmatch, hid⟩ := h.mem_map_fst_iff.1 (List.mem_map_of_mem ht)
  exact ⟨r, (h.mem_iff ht).2 ⟨hr, hid⟩, hmatch⟩

/-- The test turns down no candidate where matching spans always belong to the service. -/
theorem Ranked.filter_test {q : Request} {x : ServiceIndex}
    (h : Ranked strict stored (q.Matches x) ranked)
    (hservice : ∀ r, stored r → q.Matches x r → r.inService q.service = true) (n : Nat) :
    (((ranked.take n).map Prod.snd).filter q.test) = (ranked.take n).map Prod.snd := by
  refine List.filter_eq_self.2 fun trace htrace => ?_
  obtain ⟨t, ht, rfl⟩ := List.mem_map.1 htrace
  have ht : t ∈ ranked := List.mem_of_mem_take ht
  obtain ⟨r, hr, hmatch⟩ := h.exists_matching ht
  exact Request.test_of_matches hmatch (hservice r ((h.mem_iff ht).1 hr).1 hmatch) hr

end Trace

/-- The traces of the spans that a predicate holds for. -/
def SpanMap.traceKeys (m : SpanMap) (strict : Bool) (p : Predicate) : List TraceId :=
  ((m.values p).map (·.traceKey strict)).dedup

/-- There are no more candidates than traces. -/
theorem Trace.Ranked.length_le {m : SpanMap} {strict : Bool} {matching : Report → Prop}
    {ranked : List (TraceId × Trace)} (hm : m.Keyed)
    (h : Ranked strict (fun r => m.get? r.key = some r) matching ranked) :
    ranked.length ≤ (m.traceKeys strict .always).length := by
  rw [← List.length_map Prod.fst]
  apply h.nodup.length_le_of_subset
  intro id hid
  obtain ⟨r, hr, -, rfl⟩ := h.mem_map_fst_iff.1 hid
  have hr : r ∈ m.values .always := (SpanMap.mem_values_iff hm).2 ⟨hr, rfl⟩
  exact List.mem_dedup.2 (List.mem_map_of_mem hr)

namespace Session

/-- Whatever is stored and recorded, a span that the storage finds for a request carries its traces
through the test of the request, if it belongs to the service that is asked for. Where none is asked
for, as many traces are returned as the limit allows. -/
theorem getTraces_fills_page (m : SpanMap) (x : ServiceIndex) (a : Arrangement Predicate)
    (strict : Bool) (q : Request) (hm : m.Keyed) :
    (∀ r trace, (q.sent x).test r = true → r.inService q.service = true → r ∈ trace →
        q.test trace = true)
      ∧ (q.service = none → ∃ ranked,
        Trace.Ranked strict (fun r => m.get? r.key = some r) (fun r => (q.sent x).test r) ranked
          ∧ (getTraces strict q).run { spans := m, services := x, arrangement := a }
            = (.ok ((ranked.take q.limit.toNat).map Prod.snd),
                { spans := m, services := x, arrangement := a })
          ∧ ((ranked.take q.limit.toNat).map Prod.snd).length
            = min q.limit.toNat (m.traceKeys strict (q.sent x)).length) := by
  refine ⟨fun r trace hr => Request.test_of_matches (Request.test_sent_iff.1 hr), fun hq => ?_⟩
  have hsound : Store.Sound { spans := m, services := x, arrangement := a } := rfl
  obtain ⟨ranked, hranked, hrun⟩ := yields_getTraces strict q hsound hm
  rw [hranked.filter_test fun r _ _ => by rw [hq]; rfl] at hrun
  have hlength : ranked.length = (m.traceKeys strict (q.sent x)).length :=
    hranked.length_eq fun r => by rw [SpanMap.mem_values_iff hm, Request.test_sent_iff]
  have hsent : q.Matches x = fun r => (q.sent x).test r = true :=
    funext fun r => propext Request.test_sent_iff.symm
  refine ⟨ranked, hsent ▸ hranked, hrun, ?_⟩
  rw [List.length_map, List.length_take, hlength]

/-- A span of the service web. -/
def served : Report where
  traceId := ⟨1, 2⟩
  id := 5
  name := some "get"
  timestamp := some 5000
  events := [{ timestamp := 5000, value := "sr", endpoint := some { service := "web" } }]

/-- A span of the service that is asked for carries a trace through the test, and where none is
asked for a page is filled with all candidates. -/
theorem getTraces_fills_page_lookup :
    twoTraces.Keyed
      ∧ (Request.sent { service := some "web", endTs := 6, lookback := 2, limit := 9 }
          (.put .empty "web" "get")).test served = true
      ∧ served.inService (some "web") = true
      ∧ Request.test { service := some "web", endTs := 6, lookback := 2, limit := 9 }
          [afterwards, served] = true
      ∧ ∃ traces, ((getTraces true { endTs := 6, lookback := 2, limit := 9 }).run
          { spans := twoTraces, services := .put .empty "web" "get" }).1 = .ok traces
        ∧ traces.length = 2 := by
  obtain ⟨htest, -⟩ := getTraces_fills_page twoTraces (.put .empty "web" "get") .asFound true
    { service := some "web", endTs := 6, lookback := 2, limit := 9 } keyed_twoTraces
  obtain ⟨-, hfull⟩ := getTraces_fills_page twoTraces (.put .empty "web" "get") .asFound true
    { endTs := 6, lookback := 2, limit := 9 } keyed_twoTraces
  obtain ⟨ranked, -, hrun, hlength⟩ := hfull rfl
  have hsent : (Request.sent { service := some "web", endTs := 6, lookback := 2, limit := 9 }
      (.put .empty "web" "get")).test served = true := by decide +kernel
  have hservice : served.inService (some "web") = true := by decide +kernel
  refine ⟨keyed_twoTraces, hsent, hservice, htest served _ hsent hservice (by simp), _,
    congrArg Prod.fst hrun, hlength.trans ?_⟩
  decide +kernel

end Session

end TraceArchive
