set_option autoImplicit false

/-!
Strictly ascending lists: each value once, in the order of its type. Inserting keeps a list
ascending, and `Ascending.ofList` sorts any list and drops what occurs twice.
-/

namespace TraceArchive

def Ascending {α : Type} [Ord α] (l : List α) : Prop :=
  l.Pairwise fun a b => compare a b = .lt

instance {α : Type} [Ord α] (l : List α) : Decidable (Ascending l) :=
  inferInstanceAs (Decidable (l.Pairwise fun a b => compare a b = .lt))

namespace Ascending

variable {α : Type} [Ord α]

/-- A value that is already there is not inserted again. -/
def insert (a : α) : List α → List α
  | [] => [a]
  | b :: l =>
    match compare a b with
    | .lt => a :: b :: l
    | .eq => b :: l
    | .gt => b :: insert a l

def ofList (l : List α) : List α := l.foldr insert []

theorem nil : Ascending ([] : List α) := List.Pairwise.nil

theorem mem_insert [Std.LawfulEqOrd α] {a b : α} {l : List α} :
    b ∈ insert a l ↔ b = a ∨ b ∈ l := by
  induction l with
  | nil => simp [insert]
  | cons c l ih =>
    simp only [insert]
    split
    · simp
    · next h =>
      have : a = c := Std.LawfulEqCmp.eq_of_compare h
      simp [this]
    · simp [ih, or_left_comm]

theorem ascending_insert [Std.TransOrd α] [Std.LawfulEqOrd α] (a : α) {l : List α}
    (h : Ascending l) : Ascending (insert a l) := by
  induction l with
  | nil => simp [insert, Ascending]
  | cons b l ih =>
    have hb := List.pairwise_cons.1 h
    simp only [insert]
    split
    · next hab =>
      refine List.pairwise_cons.2 ⟨fun c hc => ?_, h⟩
      rcases List.mem_cons.1 hc with rfl | hc
      · exact hab
      · exact Std.TransCmp.lt_trans hab (hb.1 c hc)
    · exact h
    · next hab =>
      refine List.pairwise_cons.2 ⟨fun c hc => ?_, ih hb.2⟩
      rcases mem_insert.1 hc with rfl | hc
      · exact Std.OrientedCmp.gt_iff_lt.1 hab
      · exact hb.1 c hc

theorem mem_ofList [Std.LawfulEqOrd α] {a : α} {l : List α} : a ∈ ofList l ↔ a ∈ l := by
  induction l with
  | nil => simp [ofList]
  | cons b l ih => simp [ofList, mem_insert, ← ih]

theorem ascending_ofList [Std.TransOrd α] [Std.LawfulEqOrd α] (l : List α) :
    Ascending (ofList l) := by
  induction l with
  | nil => exact List.Pairwise.nil
  | cons b l ih => exact ascending_insert b ih

theorem insert_eq_cons {a : α} {l : List α} (h : Ascending (a :: l)) : insert a l = a :: l := by
  cases l with
  | nil => rfl
  | cons b l => simp [insert, (List.pairwise_cons.1 h).1 b (by simp)]

/-- A list that is ascending already stays as it is. -/
theorem ofList_of_ascending {l : List α} (h : Ascending l) : ofList l = l := by
  induction l with
  | nil => rfl
  | cons a l ih =>
    have ha := List.pairwise_cons.1 h
    show insert a (ofList l) = a :: l
    rw [ih ha.2, insert_eq_cons h]

/-- Two ascending lists with the same members are equal. -/
theorem eq_of_mem_iff [Std.TransOrd α] {l m : List α} (hl : Ascending l) (hm : Ascending m)
    (h : ∀ a, a ∈ l ↔ a ∈ m) : l = m := by
  induction l generalizing m with
  | nil =>
    cases m with
    | nil => rfl
    | cons b m => simpa using h b
  | cons a l ih =>
    cases m with
    | nil => simpa using h a
    | cons b m =>
      have hla := List.pairwise_cons.1 hl
      have hmb := List.pairwise_cons.1 hm
      have irrefl : ∀ c : α, compare c c ≠ .lt := fun c hc => by
        simp [Std.ReflCmp.compare_self] at hc
      have hab : a = b := by
        rcases List.mem_cons.1 ((h a).1 (by simp)) with e | e
        · exact e
        · rcases List.mem_cons.1 ((h b).2 (by simp)) with e' | e'
          · exact e'.symm
          · exact absurd (Std.TransCmp.lt_trans (hmb.1 a e) (hla.1 b e')) (irrefl b)
      subst hab
      congr 1
      refine ih hla.2 hmb.2 fun c => ⟨fun hc => ?_, fun hc => ?_⟩
      · rcases List.mem_cons.1 ((h c).1 (List.mem_cons_of_mem _ hc)) with rfl | e
        · exact absurd (hla.1 c hc) (irrefl c)
        · exact e
      · rcases List.mem_cons.1 ((h c).2 (List.mem_cons_of_mem _ hc)) with rfl | e
        · exact absurd (hmb.1 c hc) (irrefl c)
        · exact e

end Ascending

end TraceArchive
