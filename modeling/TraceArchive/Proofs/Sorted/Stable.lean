import Mathlib.Data.List.Basic

set_option autoImplicit false

/-!
Ties. What compares equal may stand in a sorted list in any order, but a stable sort leaves it in
the order in which it came, and that settles the list.
-/

namespace TraceArchive

section

variable {α : Type} {cmp : α → α → Ordering} {a b x : α} {l xs ys : List α}

/-- The elements that tie with one. -/
def ties (cmp : α → α → Ordering) (a : α) (l : List α) : List α := l.filter fun b => cmp a b = .eq

theorem mem_ties : b ∈ ties cmp a l ↔ b ∈ l ∧ cmp a b = .eq := by
  simp [ties]

variable [Std.TransCmp cmp]

theorem pairwise_ties (cmp : α → α → Ordering) [Std.TransCmp cmp] (a : α) (l : List α) :
    (ties cmp a l).Pairwise fun b c => (cmp b c).isLE = true := by
  refine List.pairwise_of_forall_mem_list fun b hb c hc => ?_
  have hba : cmp b a = .eq := Std.OrientedCmp.eq_symm (mem_ties.1 hb).2
  rw [Std.TransCmp.eq_trans hba (mem_ties.1 hc).2]
  rfl

end

end TraceArchive
