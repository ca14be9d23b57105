import TraceArchive.Sorted.List

set_option autoImplicit false

/-!
Finite sets that list their members in ascending order. Two sets with the same members are equal.
-/

namespace TraceArchive

structure SortedSet (α : Type) [Ord α] where
  toList : List α
  ascending : Ascending toList

namespace SortedSet

variable {α : Type} [Ord α]

instance : Membership α (SortedSet α) := ⟨fun s a => a ∈ s.toList⟩

instance [DecidableEq α] : DecidableEq (SortedSet α) := fun s t =>
  if h : s.toList = t.toList then .isTrue (by cases s; cases t; simp_all)
  else .isFalse fun e => h (e ▸ rfl)

def empty : SortedSet α := ⟨[], Ascending.nil⟩

instance : Inhabited (SortedSet α) := ⟨empty⟩

def isEmpty (s : SortedSet α) : Bool := s.toList.isEmpty

def contains [DecidableEq α] (s : SortedSet α) (a : α) : Bool := decide (a ∈ s.toList)

variable [Std.TransOrd α] [Std.LawfulEqOrd α]

def insert (s : SortedSet α) (a : α) : SortedSet α :=
  ⟨Ascending.insert a s.toList, Ascending.ascending_insert a s.ascending⟩

def ofList (l : List α) : SortedSet α := ⟨Ascending.ofList l, Ascending.ascending_ofList l⟩

theorem mem_insert {s : SortedSet α} {a b : α} : b ∈ s.insert a ↔ b = a ∨ b ∈ s :=
  Ascending.mem_insert

theorem mem_ofList {l : List α} {a : α} : a ∈ ofList l ↔ a ∈ l := Ascending.mem_ofList

omit [Std.LawfulEqOrd α] in
theorem ext_mem {s t : SortedSet α} (h : ∀ a, a ∈ s ↔ a ∈ t) : s = t := by
  have := Ascending.eq_of_mem_iff s.ascending t.ascending h
  cases s; cases t; simp_all

end SortedSet

end TraceArchive
