import TraceArchive.Report

set_option autoImplicit false

/-!
The order in which a search returns what it found. Storage promises no order, so an arrangement
is any way to permute, which may be another one for each predicate.
-/

namespace TraceArchive

structure Arrangement (α : Type) where
  order : α → List Report → List Report
  perm : ∀ a rs, (order a rs).Perm rs

namespace Arrangement

variable {α : Type}

/-- By key; reports of one key keep their order. -/
def sortByKey (rs : List Report) : List Report :=
  rs.mergeSort fun a b => (compare a.key b.key).isLE

def asFound : Arrangement α := ⟨fun _ rs => rs, fun _ _ => .refl _⟩

def ascending : Arrangement α := ⟨fun _ rs => sortByKey rs, fun _ _ => List.mergeSort_perm ..⟩

def descending : Arrangement α :=
  ⟨fun _ rs => (sortByKey rs).reverse,
    fun _ _ => (List.reverse_perm _).trans (List.mergeSort_perm ..)⟩

instance : Inhabited (Arrangement α) := ⟨asFound⟩

end Arrangement

end TraceArchive
