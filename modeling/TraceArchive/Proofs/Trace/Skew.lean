import Mathlib.Data.List.Forall2
import TraceArchive.Proofs.Report.Contents
import TraceArchive.Proofs.Trace.Placing

set_option autoImplicit false

/-!
Correcting clocks changes times only. A trace that fits into one tree comes back in breadth-first
order, each span corrected by the skew that reaches it from above, and any other trace comes back
as it was. Either way each span still tells what it told.
-/

namespace TraceArchive

namespace Report

/-- Two reports that are the same but for the times of events and of the span. -/
structure Retimed (a b : Report) : Prop extends Alike a b where
  traceId : a.traceId = b.traceId
  parentId : a.parentId = b.parentId
  name : a.name = b.name
  duration : a.duration = b.duration
  debug : a.debug = b.debug

variable {a b c : Report}

theorem Retimed.refl (a : Report) : Retimed a a := ⟨.refl a, rfl, rfl, rfl, rfl, rfl⟩

theorem Retimed.trans (hab : Retimed a b) (hbc : Retimed b c) : Retimed a c :=
  ⟨hab.toAlike.trans hbc.toAlike, hab.traceId.trans hbc.traceId,
    hab.parentId.trans hbc.parentId, hab.name.trans hbc.name, hab.duration.trans hbc.duration,
    hab.debug.trans hbc.debug⟩

theorem retimed_adjust (r : Report) (skew : Skew) : (r.adjust skew).Retimed r := by
  unfold adjust
  simp only
  split
  · refine ⟨(Alike.tidy _).trans (.of_map rfl rfl rfl fun e => ?_), rfl, rfl, rfl, rfl, rfl⟩
    split <;> exact ⟨rfl, rfl⟩
  · split
    · split
      · exact ⟨(Alike.tidy _).trans (.of_mem_iff rfl (fun _ => .rfl) fun _ => .rfl),
          rfl, rfl, rfl, rfl, rfl⟩
      · exact .refl r
    · exact .refl r

/-- The report after the skew from above, if there is one, was taken from it. -/
def setBelow (above : Option Skew) (r : Report) : Report :=
  match above with
  | some skew => r.adjust skew
  | none => r

theorem retimed_setBelow (above : Option Skew) (r : Report) : (r.setBelow above).Retimed r := by
  cases above with
  | none => exact .refl r
  | some skew => exact retimed_adjust r skew

/-- A report is corrected twice: by the skew from above and then by what is left of its own. -/
theorem correct_eq (above : Option Skew) (r : Report) :
    r.correct above = match (r.setBelow above).skew? with
      | some own => ((r.setBelow above).adjust own, some own)
      | none => (r.setBelow above, if (r.setBelow above).isLocal then above else none) := by
  cases above <;> rfl

theorem retimed_correct (above : Option Skew) (r : Report) : (r.correct above).1.Retimed r := by
  rw [correct_eq]
  split
  · exact (retimed_adjust _ _).trans (retimed_setBelow above r)
  · exact retimed_setBelow above r

end Report

namespace Trace

/-- The skew that reaches a span from above. -/
inductive Reaches (trace : Trace) : Report → Option Skew → Prop where
  | root {r : Report} : parentOf? trace r = none → Reaches trace r none
  | child {r p : Report} {above : Option Skew} : parentOf? trace r = some p →
      Reaches trace p above → Reaches trace r (p.correct above).2

variable {trace : Trace} {r : Report}

theorem Reaches.unique {above above' : Option Skew} (h : Reaches trace r above)
    (h' : Reaches trace r above') : above = above' := by
  induction h generalizing above' with
  | root hnone =>
    cases h' with
    | root => rfl
    | child hp => rw [hnone] at hp; cases hp
  | child hp hreach ih =>
    cases h' with
    | root hnone => rw [hnone] at hp; cases hp
    | child hp' hreach' =>
      obtain rfl := Option.some.inj (hp.symm.trans hp')
      rw [ih hreach']

/-- What a walk has recorded for the nodes that it met: the skews that their spans pass on. -/
structure PassedOn (trace : Trace) (t : Tree Report) (met : List Nat)
    (skews : List (Nat × Skew)) : Prop where
  passed : ∀ i ∈ met, ∀ r, t.value? i = some r →
    ∃ above, Reaches trace r above ∧ skews.lookup i = (r.correct above).2
  unmet : ∀ i, i ∉ met → skews.lookup i = none

theorem passedOn_nil (trace : Trace) (t : Tree Report) : PassedOn trace t [] [] :=
  ⟨fun _ hi => absurd hi List.not_mem_nil, fun _ _ => rfl⟩

theorem lookup_record {skews : List (Nat × Skew)} {i : Nat} (hnew : skews.lookup i = none)
    (skew? : Option Skew) (j : Nat) :
    (match skew? with
      | some skew => (i, skew) :: skews
      | none => skews).lookup j = if j = i then skew? else skews.lookup j := by
  by_cases hj : j = i
  · subst hj
    cases skew? <;> simp [hnew]
  · have hne : (j == i) = false := beq_false_of_ne hj
    cases skew? <;> simp [List.lookup_cons, hj, hne]

/-- One more node is met. -/
theorem PassedOn.step {t : Tree Report} {met : List Nat} {skews skews' : List (Nat × Skew)}
    (h : PassedOn trace t met skews) {i : Nat} (hi : i ∉ met) {above : Option Skew}
    (hr : t.value? i = some r) (hreach : Reaches trace r above)
    (hskews : ∀ j, skews'.lookup j = if j = i then (r.correct above).2 else skews.lookup j) :
    PassedOn trace t (met ++ [i]) skews' := by
  refine ⟨fun j hj s hs => ?_, fun j hj => ?_⟩
  · rw [hskews]
    rcases List.mem_append.1 hj with hj | hj
    · rw [if_neg fun hji : j = i => hi (hji ▸ hj)]
      exact h.passed j hj s hs
    · obtain rfl := List.mem_singleton.1 hj
      obtain rfl := Option.some.inj (hr.symm.trans hs)
      exact ⟨above, hreach, if_pos rfl⟩
  · rw [List.mem_append, List.mem_singleton, not_or] at hj
    rw [hskews, if_neg hj.2]
    exact h.unmet j hj.1

section

variable {a : Assembly Report} (h : FitsTree trace) (ha : a.entries = trace.map Report.entry)

include h ha

/-- The skew that a walk finds recorded for the parent of a node is the one from above. -/
theorem reaches_of_passedOn {met rest : List Nat} {skews : List (Nat × Skew)} {i : Nat}
    (horder : a.tree.order = met ++ i :: rest) (hpassed : PassedOn trace a.tree met skews)
    (hr : a.tree.value? i = some r) :
    Reaches trace r ((a.tree.parent? i).bind (skews.lookup ·)) := by
  have hparent := parent?_bind_value? h ha hr
  cases hp : a.tree.parent? i with
  | none =>
    rw [hp, Option.bind_none] at hparent
    exact .root hparent.symm
  | some j =>
    have hlinked := (consistent_of_entries h ha).linked_tree
    have hj : j ∈ met := hlinked.parent_before horder hp
    obtain ⟨p, hvalue⟩ := exists_value? h ha (hlinked.parent_lt i j hp)
    rw [hp, Option.bind_some, hvalue] at hparent
    obtain ⟨above, hreach, hlookup⟩ := hpassed.passed j hj p hvalue
    rw [Option.bind_some, hlookup]
    exact .child hparent.symm hreach

/-- Every span that a walk meets is corrected by the skew that reaches it. -/
theorem forall₂_correctNodes {met is : List Nat} {skews : List (Nat × Skew)}
    (horder : a.tree.order = met ++ is) (hpassed : PassedOn trace a.tree met skews) :
    List.Forall₂ (fun r s => ∃ above, Reaches trace r above ∧ s = (r.correct above).1)
      (is.filterMap a.tree.value?) (correctNodes a.tree skews is) := by
  have hlinked := (consistent_of_entries h ha).linked_tree
  -- On what is left of the walk; `PassedOn` tells what was recorded so far.
  induction is generalizing met skews with
  | nil => exact .nil
  | cons i is ih =>
    have hmem : i ∈ a.tree.order := horder ▸ List.mem_append_right met List.mem_cons_self
    obtain ⟨r, hr⟩ := exists_value? h ha (hlinked.lt_size_of_mem_walk hmem)
    obtain ⟨⟨value, parent, children⟩, hnode, rfl⟩ := Option.bind_eq_some_iff.1 hr
    have hreach := reaches_of_passedOn h ha horder hpassed hr
    have hparent : a.tree.parent? i = parent := by rw [Tree.parent?, hnode, Option.bind_some]
    have hnew : i ∉ met := by
      have := hlinked.nodup_walk a.tree.size
      rw [← Tree.order, horder] at this
      exact fun hi => List.disjoint_of_nodup_append this hi List.mem_cons_self
    rw [hparent] at hreach
    rw [correctNodes, List.filterMap_cons_some hr]
    simp only [hnode]
    have horder' : a.tree.order = (met ++ [i]) ++ is := by rw [horder, List.append_assoc]; rfl
    refine .cons ⟨_, hreach, rfl⟩ (ih horder' ?_)
    exact hpassed.step hnew hr hreach (lookup_record (hpassed.unmet i hnew) _)

end

/-- A trace that fits into one tree comes back in breadth-first order, each span corrected by the
skew that reaches it. -/
theorem FitsTree.correctSkew_eq (h : FitsTree trace) :
    ∃ (rs : Trace) (above : Report → Option Skew), BreadthFirst trace rs
      ∧ (∀ r ∈ trace, Reaches trace r (above r))
      ∧ (correctSkew trace).value = rs.map fun r => (r.correct (above r)).1 := by
  obtain ⟨a, ha, hvalue⟩ := correctSkew_of_fitsTree h
  have horder := breadthFirst_order h ha
  have hcorrected := forall₂_correctNodes h ha (List.nil_append _).symm (passedOn_nil trace a.tree)
  rw [← hvalue] at hcorrected
  generalize a.tree.order.filterMap a.tree.value? = rs at horder hcorrected
  have hunique : ∀ r, ∃ above, ∀ x, Reaches trace r x → x = above := by
    intro r
    by_cases hr : ∃ above, Reaches trace r above
    · obtain ⟨above, habove⟩ := hr
      exact ⟨above, fun x hx => hx.unique habove⟩
    · exact ⟨none, fun x hx => absurd ⟨x, hx⟩ hr⟩
  choose above habove using hunique
  have hcorrect : List.Forall₂ (fun r s => Reaches trace r (above r) ∧ (r.correct (above r)).1 = s)
      rs (correctSkew trace).value := by
    refine hcorrected.imp fun r s ⟨x, hx, hs⟩ => ?_
    obtain rfl := habove r x hx
    exact ⟨hx, hs.symm⟩
  rw [List.forall₂_and_left] at hcorrect
  refine ⟨rs, above, horder, fun r hr => hcorrect.1 r (horder.perm.mem_iff.2 hr), ?_⟩
  have hmap := hcorrect.2
  rw [← List.forall₂_map_left_iff (R := Eq), List.forall₂_eq_eq_eq] at hmap
  exact hmap.symm

/-- A corrected trace is the trace again, up to its order and the times of its reports. -/
theorem correctSkew_alike (trace : Trace) :
    ∃ rs, rs.Perm trace ∧ List.Forall₂ Report.Alike (correctSkew trace).value rs := by
  by_cases h : FitsTree trace
  · obtain ⟨rs, above, horder, -, hvalue⟩ := h.correctSkew_eq
    refine ⟨rs, horder.perm, ?_⟩
    rw [hvalue, List.forall₂_map_left_iff, List.forall₂_same]
    exact fun r _ => (Report.retimed_correct (above r) r).toAlike
  · refine ⟨trace, .refl _, ?_⟩
    rw [correctSkew_of_not_fitsTree h, List.forall₂_same]
    exact fun r _ => .refl r

/-- Correcting clocks touches nothing but the times of events and of spans, and no span is lost: a
trace that fits into one tree comes back in breadth-first order, and any other trace unchanged. -/
theorem correctSkew_retimed (trace : Trace) :
    (¬ FitsTree trace → (correctSkew trace).value = trace)
      ∧ (FitsTree trace → ∃ rs, BreadthFirst trace rs
        ∧ List.Forall₂ Report.Retimed (correctSkew trace).value rs) := by
  refine ⟨correctSkew_of_not_fitsTree, fun h => ?_⟩
  obtain ⟨rs, above, horder, -, hvalue⟩ := h.correctSkew_eq
  refine ⟨rs, horder, ?_⟩
  rw [hvalue, List.forall₂_map_left_iff, List.forall₂_same]
  exact fun r _ => Report.retimed_correct (above r) r

/-- Children before their parents, and a span whose parent is not there. -/
def scattered : Trace :=
  [(4, some 2), (3, some 9), (2, some 1), (1, none)].map fun (id, parentId) =>
    { traceId := ⟨0, 1⟩, id, parentId }

theorem correctSkew_retimed_scattered :
    FitsTree scattered ∧ (∃ rs, BreadthFirst scattered rs
        ∧ List.Forall₂ Report.Retimed (correctSkew scattered).value rs)
      ∧ ¬ FitsTree scattered.dropLast
      ∧ (correctSkew scattered.dropLast).value = scattered.dropLast := by
  have hfits : FitsTree scattered := by decide +kernel
  have hrootless : ¬ FitsTree scattered.dropLast := by decide +kernel
  exact ⟨hfits, (correctSkew_retimed scattered).2 hfits, hrootless,
    (correctSkew_retimed scattered.dropLast).1 hrootless⟩

/-- A span whose parent is not there comes below the root. -/
example : (correctSkew scattered).value.map (·.id) = [1, 3, 2, 4] := by
  decide +kernel

end Trace

end TraceArchive
