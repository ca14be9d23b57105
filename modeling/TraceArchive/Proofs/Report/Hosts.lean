import TraceArchive.Report.Spans

set_option autoImplicit false

/-!
The spans of a report where at most one host took part. Every look-up of the last one is then a
look-up of the only one, there is a single home, and it holds whatever the host reported.
-/

namespace TraceArchive

/-- The last of a list in which at most one value stands. -/
theorem getLast?_eq_of_mem_iff {α : Type} {l : List α} {o : Option α}
    (h : ∀ a, a ∈ l ↔ o = some a) : l.getLast? = o := by
  cases hl : l.getLast? with
  | none =>
    cases o with
    | none => rfl
    | some a =>
      rw [List.getLast?_eq_none_iff.1 hl] at h
      exact absurd ((h a).2 rfl) (by simp)
  | some a => exact ((h a).1 (List.mem_of_getLast? hl)).symm

namespace Report

theorem onePerService_eq_toList {es : List Endpoint} {o : Option Endpoint}
    (h : ∀ e, e ∈ es ↔ o = some e) : onePerService es = o.toList := by
  cases es with
  | nil =>
    cases o with
    | none => rfl
    | some e => exact absurd ((h e).2 rfl) (by simp)
  | cons e es =>
    obtain rfl : o = some e := (h e).1 (by simp)
    have same : ∀ f ∈ onePerService es, ¬ (!e.sameService f) = true := by
      intro f hf
      obtain rfl : e = f := by simpa using (h f).1 (List.mem_cons_of_mem _ (mem_onePerService hf))
      simp [Endpoint.sameService]
    rw [onePerService, List.filter_eq_nil_iff.2 same]
    rfl

theorem Home.ofHosts_toList (o : Option Endpoint) : Home.ofHosts o.toList = [⟨o, true⟩] := by
  cases o <;> rfl

theorem Home.holds_self (o : Option Endpoint) : (⟨o, true⟩ : Home).holds o = true := by
  cases o <;> simp [holds, Endpoint.sameService]

/-- The texts that a home takes: those on its service but for an empty local component. -/
theorem mem_tagsAt {r : Report} {h : Home} {key value : String} :
    (key, value) ∈ r.tagsAt h ↔ ∃ t ∈ r.tags, t.key = key ∧ t.text? = some value
      ∧ h.holds t.endpoint ∧ ¬(key = Tag.localComponent ∧ value = "") := by
  rw [tagsAt, List.mem_filterMap]
  refine exists_congr fun t => and_congr_right fun _ => ?_
  cases ht : t.text? with
  | none => simp
  | some text =>
    simp only [Option.ite_none_right_eq_some, Option.some.injEq, Prod.mk.injEq, Bool.and_eq_true,
      Bool.not_eq_true', Bool.and_eq_false_imp, beq_iff_eq, not_and, beq_eq_false_iff_ne]
    constructor
    · rintro ⟨⟨hholds, hkey⟩, rfl, rfl⟩
      exact ⟨rfl, rfl, hholds, hkey⟩
    · rintro ⟨rfl, rfl, hholds, hkey⟩
      exact ⟨⟨hholds, hkey⟩, rfl, rfl⟩

/-- With one home and no loopback there is one span. -/
theorem toSpans_eq_singleton {r : Report} {h : Home} (hhomes : r.homes = [h])
    (hloop : r.loopback? = none) : r.toSpans = [r.spanAt h] := by
  simp only [toSpans, hhomes, hloop, List.map_cons, List.map_nil, Option.toList_none,
    List.append_nil, List.take_append_drop]

theorem loopback?_eq_none {r : Report}
    (h : r.moment? .clientSend = none ∨ r.moment? .serverReceive = none) : r.loopback? = none := by
  have : ∀ send receive reply done, r.call ≠ .shared send receive reply done := by
    intro send receive reply done hcall
    rcases h with h | h <;> simp only [call, h] at hcall <;> split at hcall <;> simp_all
  unfold loopback?
  split
  · next hcall => exact absurd hcall (this _ _ _ _)
  · rfl

end Report

end TraceArchive
