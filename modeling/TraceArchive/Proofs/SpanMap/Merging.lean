import Mathlib.Data.List.Induction
import TraceArchive.Proofs.Name
import TraceArchive.Proofs.Report.Merging
import TraceArchive.Proofs.SpanMap.Contents

set_option autoImplicit false

/-!
Storing reports one after the other. Under each key stands the merge of the reports of that key, in
the order in which they came; reports of other keys leave it alone.
-/

namespace TraceArchive.SpanMap

/-- Stores a report, merged with the one that is stored already. -/
def upsert (m : SpanMap) (r : Report) : SpanMap :=
  m.put r.key (match m.get? r.key with
    | some stored => stored.merge r
    | none => r)

/-- What reports leave behind that are timed and stored one after the other. -/
def ofReports (rs : List Report) : SpanMap := rs.foldl (fun m r => m.upsert r.withTiming) empty

/-- The reports of a key, as they are stored. -/
def ownReports (k : Key) (rs : List Report) : List Report :=
  (rs.filter fun r => r.key = k).map Report.withTiming

theorem mem_ownReports {k : Key} {rs : List Report} {x : Report} :
    x ∈ ownReports k rs ↔ ∃ r ∈ rs, r.key = k ∧ r.withTiming = x := by
  simp [ownReports, and_assoc]

theorem ofReports_concat (rs : List Report) (r : Report) :
    ofReports (rs ++ [r]) = (ofReports rs).upsert r.withTiming := by
  simp [ofReports]

theorem get?_ofReports (rs : List Report) (k : Key) :
    (ofReports rs).get? k = Report.mergeAll? (ownReports k rs) := by
  induction rs using List.reverseRecOn with
  | nil => rfl
  | append_singleton rs r ih =>
    rw [ofReports_concat, upsert, get?_put, Report.key_withTiming]
    by_cases hk : k = r.key
    · have : ownReports k (rs ++ [r]) = ownReports k rs ++ [r.withTiming] := by
        simp [ownReports, hk]
      rw [if_pos hk, this, Report.mergeAll?_concat, ← ih]
      subst hk
      rfl
    · have : ownReports k (rs ++ [r]) = ownReports k rs := by
        simp [ownReports, Ne.symm hk]
      rw [if_neg hk, this, ih]

/-- What is stored under a key is what its own reports merge to. -/
structure Merges (m : SpanMap) (rs : List Report) (k : Key) : Prop where
  found : (∃ s, m.get? k = some s) ↔ ∃ r ∈ rs, r.key = k
  merged : m.get? k = Report.mergeAll? ((rs.filter fun r => r.key = k).map Report.withTiming)
  key : ∀ s, m.get? k = some s → s.key = k
  events : ∀ s, m.get? k = some s → ∀ e, e ∈ s.events ↔ ∃ r ∈ rs, r.key = k ∧ e ∈ r.events
  tags : ∀ s, m.get? k = some s → ∀ t, t ∈ s.tags ↔ ∃ r ∈ rs, r.key = k ∧ t ∈ r.tags

theorem merges_ofReports (rs : List Report) (k : Key) : (ofReports rs).Merges rs k where
  found := by
    rw [get?_ofReports, Report.exists_mergeAll?_iff]
    simp [mem_ownReports]
  merged := get?_ofReports rs k
  key s hs := by
    rw [get?_ofReports] at hs
    apply Report.key_mergeAll? hs
    intro x hx
    obtain ⟨r, -, hr, rfl⟩ := mem_ownReports.1 hx
    exact (Report.key_withTiming r).trans hr
  events s hs e := by
    rw [get?_ofReports] at hs
    rw [Report.mem_events_mergeAll? hs]
    simp [mem_ownReports, and_assoc]
  tags s hs t := by
    rw [get?_ofReports] at hs
    rw [Report.mem_tags_mergeAll? hs]
    simp [mem_ownReports, and_assoc]

section

variable {m : SpanMap} {rs : List Report} {k : Key} {stored : Report}

/-- A stored span has the endpoints of its reports. -/
theorem Merges.mem_endpoints (h : m.Merges rs k) (hstored : m.get? k = some stored) {e : Endpoint} :
    e ∈ stored.endpoints ↔ ∃ r ∈ rs, r.key = k ∧ e ∈ r.endpoints := by
  simp only [Report.mem_endpoints, h.events stored hstored, h.tags stored hstored]
  constructor
  · rintro (⟨event, ⟨r, hr, hk, hevent⟩, hend⟩ | ⟨t, ⟨r, hr, hk, ht⟩, hend⟩)
    · exact ⟨r, hr, hk, .inl ⟨event, hevent, hend⟩⟩
    · exact ⟨r, hr, hk, .inr ⟨t, ht, hend⟩⟩
  · rintro ⟨r, hr, hk, ⟨event, hevent, hend⟩ | ⟨t, ht, hend⟩⟩
    · exact .inl ⟨event, ⟨r, hr, hk, hevent⟩, hend⟩
    · exact .inr ⟨t, ⟨r, hr, hk, ht⟩, hend⟩

theorem Merges.mem_services (h : m.Merges rs k) (hstored : m.get? k = some stored)
    {service : String} :
    service ∈ stored.services ↔ ∃ r ∈ rs, r.key = k ∧ service ∈ r.services := by
  simp only [Report.mem_services, h.mem_endpoints hstored]
  constructor
  · rintro ⟨e, ⟨r, hr, hk, he⟩, hname⟩
    exact ⟨r, hr, hk, e, he, hname⟩
  · rintro ⟨r, hr, hk, e, he, hname⟩
    exact ⟨e, ⟨r, hr, hk, he⟩, hname⟩

end

/-- What is stored is what some reports tell, one stored report for each of their keys. -/
structure Holds (m : SpanMap) (rs : List Report) : Prop where
  keyed : m.Keyed
  found : ∀ k, (∃ s, m.get? k = some s) ↔ ∃ r ∈ rs, r.key = k
  sums : ∀ k s, m.get? k = some s → s.Sums fun r => r ∈ rs ∧ r.key = k

theorem holds_ofReports (rs : List Report) : (ofReports rs).Holds rs where
  keyed k := (merges_ofReports rs k).key
  found k := (merges_ofReports rs k).found
  sums k s hs := by
    have h := merges_ofReports rs k
    constructor
    · intro value endpoint
      simp only [Report.Tells, h.events s hs]
      constructor
      · rintro ⟨e, ⟨r, hr, hk, he⟩, hvalue⟩
        exact ⟨r, ⟨hr, hk⟩, e, he, hvalue⟩
      · rintro ⟨r, ⟨hr, hk⟩, e, he, hvalue⟩
        exact ⟨e, ⟨r, hr, hk, he⟩, hvalue⟩
    · intro t
      simp only [h.tags s hs, and_assoc]

end TraceArchive.SpanMap
