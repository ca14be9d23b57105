import Mathlib.Data.List.Induction
import TraceArchive.Proofs.Trace.Family

set_option autoImplicit false

/-!
Which traces are corrected. Putting the spans of a trace into a tree one after the other reports
nothing exactly if they are compatible, and the tree has a root of its own exactly if one of them is
without a parent. So a trace is corrected if it fits into one tree, and is left alone otherwise.
-/

namespace TraceArchive.Trace

variable {name : String} {p : Placed} {trace rs : Trace} {r : Report}

/-- The spans fit into one tree, which may be without a root. -/
structure Compatible (rs : Trace) : Prop where
  wellFormed : Assembly.WellFormed (rs.map Report.entry)
  root : (rs.filter (·.parentId.isNone)).length ≤ 1

theorem Compatible.of_append_left {after : Trace} (h : Compatible (rs ++ after)) :
    Compatible rs := by
  refine ⟨?_, ?_⟩
  · have := h.wellFormed
    rw [List.map_append] at this
    exact this.of_append_left
  · have := h.root
    rw [List.filter_append, List.length_append] at this
    omega

theorem FitsTree.compatible (h : FitsTree trace) : Compatible trace :=
  ⟨h.wellFormed, Nat.le_of_eq h.root⟩

theorem root?_eq_none_iff : root? rs = none ↔ rs.filter (·.parentId.isNone) = [] := by
  simp [root?]

/-- All spans so far were put into the tree. -/
structure Placed.Holds (p : Placed) (name : String) (rs : Trace) : Prop where
  assembly : p.assembly = { trace := name, entries := rs.map Report.entry }
  root : p.root = (root? rs).map (·.id)
  diagnostics : p.diagnostics = []

theorem diagnostics_place_ne_nil (h : p.diagnostics ≠ []) : (place p r).diagnostics ≠ [] := by
  unfold place
  split
  · simp
  · dsimp only
    split
    · exact h
    · simp

/-- A second span without a parent is not compatible with the first one. -/
theorem not_compatible_of_redundant {root : Report} (hroot : root? rs = some root)
    (hr : r.parentId = none) : ¬ Compatible (rs ++ [r]) := fun h => by
  obtain ⟨hmem, hnone⟩ := mem_of_root? hroot
  have hpos : 0 < (rs.filter (·.parentId.isNone)).length :=
    List.length_pos_of_mem (List.mem_filter.2 ⟨hmem, by rw [hnone]; rfl⟩)
  have hlast : [r].filter (·.parentId.isNone) = [r] := by simp [hr]
  have := h.root
  rw [List.filter_append, List.length_append, hlast, List.length_singleton] at this
  omega

theorem length_filter_root (hroot : r.parentId = none → root? rs = none)
    (h : (rs.filter (·.parentId.isNone)).length ≤ 1) :
    ((rs ++ [r]).filter (·.parentId.isNone)).length ≤ 1 := by
  rw [List.filter_append, List.length_append]
  cases hr : r.parentId with
  | none => simp [root?_eq_none_iff.1 (hroot hr), hr]
  | some q => simpa [hr] using h

theorem root?_append (hroot : r.parentId = none → root? rs = none) :
    (root? (rs ++ [r])).map (·.id)
      = if r.parentId.isNone then some r.id else (root? rs).map (·.id) := by
  rw [root?, List.find?_append, ← root?]
  cases hr : r.parentId with
  | none => simp [hroot hr, hr]
  | some q => simp [hr]

/-- The next span is put into the tree exactly if it is compatible with those before it. -/
theorem Placed.Holds.place (h : p.Holds name rs) (hrs : Compatible rs) (r : Report) :
    (Compatible (rs ++ [r]) → (place p r).Holds name (rs ++ [r]))
      ∧ (¬ Compatible (rs ++ [r]) → (Trace.place p r).diagnostics ≠ []) := by
  obtain ⟨hassembly, hroot, hnone⟩ := h
  have hentries : p.assembly.entries ++ [r.entry] = (rs ++ [r]).map Report.entry := by
    rw [hassembly, List.map_append, List.map_singleton]
  unfold Trace.place
  split
  · next root hr hproot =>
    obtain ⟨found, hfound, -⟩ := Option.map_eq_some_iff.1 (hroot.symm.trans hproot)
    exact ⟨fun hc => absurd hc (not_compatible_of_redundant hfound hr), fun _ => by simp⟩
  · next hcase =>
    have hfree : r.parentId = none → root? rs = none := by
      intro hr
      cases hfound : root? rs with
      | none => rfl
      | some root => exact (hcase root.id hr (by rw [hroot, hfound]; rfl)).elim
    dsimp only
    split
    · next a hadd =>
      have hadd : p.assembly.add r.entry = .ok a := hadd
      have hconsistent : p.assembly.Consistent := by
        apply Assembly.WellFormed.consistent
        rw [hassembly]
        exact hrs.wellFormed
      have hcompatible : Compatible (rs ++ [r]) := by
        refine ⟨?_, length_filter_root hfree hrs.root⟩
        have := (hconsistent.add hadd).wellFormed
        obtain ⟨-, -, rfl⟩ := Assembly.add_eq_ok_iff.1 hadd
        rwa [hentries] at this
      refine ⟨fun _ => ⟨?_, ?_, hnone⟩, fun hc => absurd hcompatible hc⟩
      · obtain ⟨-, -, rfl⟩ := Assembly.add_eq_ok_iff.1 hadd
        rw [hentries, hassembly]
      · rw [root?_append hfree, hroot]
    · next d hadd =>
      refine ⟨fun hc => ?_, fun _ => by simp⟩
      have hadd : p.assembly.add r.entry = .error d := hadd
      rw [Assembly.WellFormed.add (hentries ▸ hc.wellFormed)] at hadd
      cases hadd

/-- Nothing is reported exactly if all spans are compatible. -/
theorem holds_foldl_place (name : String) (trace : Trace) :
    (Compatible trace →
        (trace.foldl place { assembly := { trace := name } }).Holds name trace)
      ∧ (¬ Compatible trace →
        (trace.foldl place { assembly := { trace := name } }).diagnostics ≠ []) := by
  -- From the end: whether the last span finds its place hangs on all those before it.
  induction trace using List.reverseRecOn with
  | nil =>
    refine ⟨fun _ => ⟨rfl, rfl, rfl⟩, fun h => absurd ⟨⟨List.nodup_nil, ?_⟩, Nat.zero_le 1⟩ h⟩
    intro id limit
    simp [Assembly.declared]
  | append_singleton rs r ih =>
    rw [List.foldl_append, List.foldl_cons, List.foldl_nil]
    by_cases hrs : Compatible rs
    · exact (ih.1 hrs).place hrs r
    · exact ⟨fun h => absurd h.of_append_left hrs, fun _ => diagnostics_place_ne_nil (ih.2 hrs)⟩

theorem fitsTree_iff : FitsTree trace
    ↔ (trace.foldl place { assembly := { trace := "" } }).diagnostics = []
      ∧ (trace.filter (·.parentId.isNone)).length = 1 := by
  have hplaced := holds_foldl_place "" trace
  constructor
  · exact fun h => ⟨(hplaced.1 h.compatible).diagnostics, h.root⟩
  · rintro ⟨hnone, hroot⟩
    by_cases hc : Compatible trace
    · exact ⟨hc.wellFormed, hroot⟩
    · exact absurd hnone (hplaced.2 hc)

instance : DecidablePred FitsTree := fun _ => decidable_of_iff _ fitsTree_iff.symm

/-- The root of the tree is made up exactly if no span is without a parent. -/
theorem Placed.Holds.isPartial_iff (h : p.Holds name rs) :
    p.assembly.tree.isPartial = true ↔ root? rs = none := by
  have hentries : p.assembly.entries = rs.map Report.entry := by rw [h.assembly]
  rw [Assembly.isPartial_tree_iff, ← Assembly.root?_eq_none_iff, root?_of_entries hentries,
    Option.map_eq_none_iff]

/-- A trace that does not fit into one tree stays as it is. -/
theorem correctSkew_of_not_fitsTree (h : ¬ FitsTree trace) : (correctSkew trace).value = trace := by
  cases trace with
  | nil => rfl
  | cons first rest =>
    have hplaced := holds_foldl_place first.traceId.toHex (first :: rest)
    simp only [correctSkew]
    generalize (first :: rest).foldl place { assembly := { trace := first.traceId.toHex } } = placed
      at hplaced ⊢
    split
    · rfl
    · next hnone =>
      have hc : Compatible (first :: rest) := by
        by_contra hc
        simp [hplaced.2 hc] at hnone
      have hholds := hplaced.1 hc
      have hpartial : placed.assembly.tree.isPartial = true := by
        rw [hholds.isPartial_iff, root?_eq_none_iff]
        by_contra hroot
        have hpos := List.length_pos_iff.2 hroot
        exact h ⟨hc.wellFormed, Nat.le_antisymm hc.root hpos⟩
      rw [if_pos (by exact hpartial)]

/-- A trace that fits into one tree is corrected along it. -/
theorem correctSkew_of_fitsTree (h : FitsTree trace) :
    ∃ a : Assembly Report, a.entries = trace.map Report.entry
      ∧ (correctSkew trace).value = correctNodes a.tree [] a.tree.order := by
  obtain ⟨root, hroot, hmem, -⟩ := h.exists_root
  cases trace with
  | nil => cases hmem
  | cons first rest =>
    have hholds := (holds_foldl_place first.traceId.toHex (first :: rest)).1 h.compatible
    refine ⟨{ trace := first.traceId.toHex, entries := (first :: rest).map Report.entry }, rfl, ?_⟩
    simp only [correctSkew]
    generalize (first :: rest).foldl place { assembly := { trace := first.traceId.toHex } } = placed
      at hholds ⊢
    have hpartial : placed.assembly.tree.isPartial = false := by
      rw [Bool.eq_false_iff, Ne, hholds.isPartial_iff, hroot]
      exact Option.some_ne_none root
    rw [if_neg (by simp [hholds.diagnostics]), if_neg (by exact Bool.eq_false_iff.1 hpartial),
      hholds.assembly]
    rfl

end TraceArchive.Trace
