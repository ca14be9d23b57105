import TraceArchive.Proofs.Report.Absorbing
import TraceArchive.Proofs.SpanMap.Merging

set_option autoImplicit false

/-!
Reports that are stored again. Once a report was merged into what is stored, storing it again
changes nothing, whatever else was stored in between.
-/

namespace TraceArchive

/-- The clock has room for every start that one of the reports tells, once they are timed, together
with every duration that it or another report of its span tells. -/
def Report.ClockHasRoom (rs : List Report) : Prop :=
  ∀ x ∈ rs, ∀ y ∈ rs, x.key = y.key → Time.HasRoom x.withTiming.time y.withTiming.time

instance (rs : List Report) : Decidable (Report.ClockHasRoom rs) :=
  inferInstanceAs (Decidable (∀ x ∈ rs, ∀ y ∈ rs, x.key = y.key →
    Report.Time.HasRoom x.withTiming.time y.withTiming.time))

namespace SpanMap

variable {m n : SpanMap}

theorem mem_entries_part_iff {low : UInt64} {part : SortedMap Key Report}
    (hpart : m.traces.get? low = some part) {k : Key} {r : Report} :
    (k, r) ∈ part.entries ↔ m.get? k = some r ∧ k.traceId.low = low := by
  constructor
  · intro h
    obtain ⟨hlow, hget⟩ := get?_of_part hpart (SortedMap.get?_eq_some_iff.2 h)
    exact ⟨hget, hlow⟩
  · rintro ⟨hget, rfl⟩
    obtain ⟨part', hpart', h⟩ := exists_part_of_get? hget
    obtain rfl := Option.some.inj (hpart.symm.trans hpart')
    exact h

/-- Two maps with the same look-ups are equal. -/
theorem ext_get? (h : ∀ k, m.get? k = n.get? k) : m = n := by
  have included : ∀ {m n : SpanMap}, (∀ k, m.get? k = n.get? k) →
      ∀ e ∈ m.traces.entries, e ∈ n.traces.entries := by
    intro m n h ⟨low, part⟩ he
    have hpart : m.traces.get? low = some part := SortedMap.get?_eq_some_iff.2 he
    obtain ⟨⟨k, r⟩, hkr⟩ := List.exists_mem_of_ne_nil _ (m.placed _ he).1
    obtain ⟨hget, rfl⟩ := (mem_entries_part_iff hpart).1 hkr
    obtain ⟨part', hpart', -⟩ := exists_part_of_get? ((h k).symm.trans hget)
    have hsame : part = part' := by
      apply SortedMap.ext_entries
      intro e
      rw [mem_entries_part_iff hpart, mem_entries_part_iff hpart', h]
    rw [hsame]
    exact SortedMap.get?_eq_some_iff.1 hpart'
  have htraces : m.traces = n.traces :=
    SortedMap.ext_entries fun e => ⟨included h e, included (fun k => (h k).symm) e⟩
  cases m
  cases n
  simpa using htraces

theorem ownReports_append (k : Key) (rs rs' : List Report) :
    ownReports k (rs ++ rs') = ownReports k rs ++ ownReports k rs' := by
  simp [ownReports]

/-- Reports that come again after they were stored change nothing. -/
theorem ofReports_append_again {rs new again : List Report} (hroom : Report.ClockHasRoom new)
    (hagain : ∀ r ∈ again, r ∈ new) : ofReports (rs ++ new ++ again) = ofReports (rs ++ new) := by
  apply ext_get?
  intro k
  have hown : ∀ x ∈ ownReports k rs ++ ownReports k new, x.tidy = x ∧ x.key = k := by
    intro x hx
    rw [← ownReports_append] at hx
    obtain ⟨r, -, hk, rfl⟩ := mem_ownReports.1 hx
    exact ⟨Report.tidy_withTiming r, (Report.key_withTiming r).trans hk⟩
  rw [get?_ofReports, get?_ofReports, ownReports_append, ownReports_append]
  apply Report.mergeAll?_append_again (k := k)
  · exact fun x hx => (hown x hx).1
  · exact fun x hx => (hown x hx).2
  · intro x hx y hy
    obtain ⟨r, hr, hrk, rfl⟩ := mem_ownReports.1 hx
    obtain ⟨s, hs, hsk, rfl⟩ := mem_ownReports.1 hy
    exact hroom r hr s hs (hrk.trans hsk.symm)
  · intro x hx
    obtain ⟨r, hr, hk, rfl⟩ := mem_ownReports.1 hx
    exact mem_ownReports.2 ⟨r, hagain r hr, hk, rfl⟩

/-- Reports that are followed by all of those they are the first ones of change nothing. -/
theorem ofReports_append_take {rs new : List Report} (hroom : Report.ClockHasRoom new) (k : Nat) :
    ofReports (rs ++ new.take k ++ new) = ofReports (rs ++ new) := by
  have hmem : ∀ r ∈ new.take k, r ∈ new := fun _ hr => List.mem_of_mem_take hr
  have hagain : ofReports (rs ++ new.take k ++ new.take k) = ofReports (rs ++ new.take k) :=
    ofReports_append_again (fun x hx y hy => hroom x (hmem x hx) y (hmem y hy)) fun _ hr => hr
  calc ofReports (rs ++ new.take k ++ new)
      = ofReports (rs ++ new.take k ++ new.take k ++ new.drop k) := by
        rw [List.append_assoc _ _ (new.drop k), List.take_append_drop]
    _ = ofReports (rs ++ new.take k ++ new.drop k) := by
        rw [ofReports, List.foldl_append, ← ofReports, hagain, ofReports, ← List.foldl_append]
        rfl
    _ = ofReports (rs ++ new) := by
        rw [List.append_assoc, List.take_append_drop]

end SpanMap

end TraceArchive
