import Mathlib.Data.List.Nodup
import TraceArchive.Proofs.Chain
import TraceArchive.Tree

set_option autoImplicit false

/-!
Walks over linked trees. If the links of all nodes agree and following parents never comes back,
a breadth-first walk ends by itself and meets every node once, and the ancestors of a node end at
the root.
-/

namespace TraceArchive.Tree

variable {α : Type} {t : Tree α}

def parent? (t : Tree α) (i : Nat) : Option Nat := (t.get? i).bind (·.parent)

def value? (t : Tree α) (i : Nat) : Option α := (t.get? i).bind (·.value)

/-- The nodes in breadth-first order. -/
def order (t : Tree α) : List Nat := t.walk t.size

/-- Links that make up one tree below node 0. -/
structure Linked (t : Tree α) : Prop where
  child_iff : ∀ p i, i ∈ t.childrenOf p ↔ t.parent? i = some p
  nodup_children : ∀ p, (t.childrenOf p).Nodup
  parent_lt : ∀ i p, t.parent? i = some p → p < t.size
  parent_none : ∀ i, i < t.size → (t.parent? i = none ↔ i = 0)
  acyclic : Acyclic t.parent?

theorem size_pos (t : Tree α) : 0 < t.size := List.length_pos_iff.2 t.nonempty

theorem lt_size_of_parent? {i p : Nat} (h : t.parent? i = some p) : i < t.size := by
  obtain ⟨n, hn, -⟩ := Option.bind_eq_some_iff.1 h
  exact (List.getElem?_eq_some_iff.1 hn).1

/-! A walk consists of the nodes it starts at and the children of what it met before. -/

theorem take_walkFrom {m n : Nat} (h : m ≤ n) (queue : List Nat) :
    (t.walkFrom n queue).take m = t.walkFrom m queue := by
  induction m generalizing n queue with
  | zero => simp [walkFrom]
  | succ m ih =>
    obtain ⟨n, rfl⟩ : ∃ k, n = k + 1 := ⟨n - 1, by omega⟩
    cases queue with
    | nil => simp [walkFrom]
    | cons i queue => simp [walkFrom, ih (Nat.le_of_succ_le_succ h)]

theorem walkFrom_succ (n : Nat) (queue : List Nat) :
    t.walkFrom (n + 1) queue
      = (queue ++ (t.walkFrom n queue).flatMap t.childrenOf).take (n + 1) := by
  induction n generalizing queue with
  | zero => cases queue <;> simp [walkFrom]
  | succ n ih =>
    cases queue with
    | nil => simp [walkFrom]
    | cons i queue => rw [walkFrom, ih, walkFrom]; simp

theorem take_walk {m n : Nat} (h : m ≤ n) : (t.walk n).take m = t.walk m := take_walkFrom h [0]

theorem walk_succ (n : Nat) :
    t.walk (n + 1) = 0 :: ((t.walk n).flatMap t.childrenOf).take n := by
  rw [walk, walkFrom_succ]
  rfl

/-! The ancestors of a node are the chain of its parents. -/

theorem ancestors_eq (t : Tree α) (n i : Nat) :
    t.ancestors n i = follow t.parent? n (t.parent? i) := by
  induction n generalizing i with
  | zero => rfl
  | succ n ih =>
    rw [ancestors, parent?]
    cases (t.get? i).bind (·.parent) with
    | none => simp
    | some p => simp [ih]

namespace Linked

theorem not_mem_childrenOf_zero (h : t.Linked) (p : Nat) : 0 ∉ t.childrenOf p := fun h0 => by
  have := (h.parent_none 0 t.size_pos).2 rfl
  rw [(h.child_iff p 0).1 h0] at this
  cases this

theorem nodup_flatMap_childrenOf (h : t.Linked) {is : List Nat} (his : is.Nodup) :
    (is.flatMap t.childrenOf).Nodup := by
  refine List.nodup_flatMap.2 ⟨fun p _ => h.nodup_children p, his.imp fun {p q} hpq i hp hq => ?_⟩
  rw [h.child_iff] at hp hq
  exact hpq (Option.some.inj (hp.symm.trans hq))

theorem nodup_walk (h : t.Linked) (n : Nat) : (t.walk n).Nodup := by
  induction n with
  | zero => simp [walk, walkFrom]
  | succ n ih =>
    rw [walk_succ]
    refine List.nodup_cons.2 ⟨fun h0 => ?_, (h.nodup_flatMap_childrenOf ih).take⟩
    obtain ⟨p, -, h0⟩ := List.mem_flatMap.1 (List.mem_of_mem_take h0)
    exact h.not_mem_childrenOf_zero p h0

theorem lt_size_of_mem_walk (h : t.Linked) {n i : Nat} (hi : i ∈ t.walk n) : i < t.size := by
  cases n with
  | zero => simp [walk, walkFrom] at hi
  | succ n =>
    rw [walk_succ] at hi
    rcases List.mem_cons.1 hi with rfl | hi
    · exact t.size_pos
    · obtain ⟨p, -, hi⟩ := List.mem_flatMap.1 (List.mem_of_mem_take hi)
      exact lt_size_of_parent? ((h.child_iff p i).1 hi)

theorem length_walk_le (h : t.Linked) (n : Nat) : (t.walk n).length ≤ t.size := by
  have : (t.walk n).length ≤ (List.range t.size).length :=
    (h.nodup_walk n).length_le_of_subset fun i hi => List.mem_range.2 (h.lt_size_of_mem_walk hi)
  simpa using this

/-- A walk ends by itself: a higher limit changes nothing. -/
theorem walk_of_size_le (h : t.Linked) {n : Nat} (hn : t.size ≤ n) : t.walk n = t.order := by
  rw [order, ← take_walk hn, List.take_of_length_le (h.length_walk_le n)]

theorem order_eq (h : t.Linked) : t.order = 0 :: t.order.flatMap t.childrenOf := by
  have walked : t.order = 0 :: (t.order.flatMap t.childrenOf).take t.size := by
    conv_lhs => rw [← h.walk_of_size_le (Nat.le_succ t.size), walk_succ]
    rfl
  have short : (t.order.flatMap t.childrenOf).length ≤ t.size := by
    have hle := h.length_walk_le (t.size + 1)
    rw [walk_succ, List.length_cons, List.length_take] at hle
    have : (t.order.flatMap t.childrenOf).length = ((t.walk t.size).flatMap t.childrenOf).length :=
      rfl
    omega
  rwa [List.take_of_length_le short] at walked

theorem mem_order_of_parent (h : t.Linked) {i p : Nat} (hp : t.parent? i = some p)
    (ho : p ∈ t.order) : i ∈ t.order := by
  rw [h.order_eq]
  exact List.mem_cons_of_mem _ (List.mem_flatMap.2 ⟨p, ho, (h.child_iff p i).2 hp⟩)

/-- Every node is met, because its parent is. -/
theorem mem_order (h : t.Linked) {i : Nat} (hi : i < t.size) : i ∈ t.order := by
  induction i using h.acyclic.induction with
  | _ i ih =>
    cases hp : t.parent? i with
    | none =>
      rw [(h.parent_none i hi).1 hp, h.order_eq]
      simp
    | some p => exact h.mem_order_of_parent hp (ih p hp (h.parent_lt i p hp))

theorem order_perm (h : t.Linked) : t.order.Perm (List.range t.size) := by
  apply (List.perm_ext_iff_of_nodup (h.nodup_walk _) List.nodup_range).2
  intro i
  rw [List.mem_range]
  exact ⟨h.lt_size_of_mem_walk, h.mem_order⟩

/-- What stands before a node in the order was met before it, its parent included. -/
theorem parent_before (h : t.Linked) {before after : List Nat} {i p : Nat}
    (ho : t.order = before ++ i :: after) (hp : t.parent? i = some p) : p ∈ before := by
  have hlen : before.length + 1 ≤ t.size := by
    have := h.length_walk_le t.size
    rw [← order, ho, List.length_append, List.length_cons] at this
    omega
  have hbefore : t.walk before.length = before := by
    rw [← take_walk (Nat.le_of_succ_le hlen), ← order, ho]
    simp
  have hi : i ∈ t.walk (before.length + 1) := by
    rw [← take_walk hlen, ← order, ho, List.take_length_add_append]
    simp
  rw [walk_succ, hbefore] at hi
  rcases List.mem_cons.1 hi with rfl | hi
  · exact absurd hp (by simp [(h.parent_none 0 t.size_pos).2 rfl])
  · obtain ⟨q, hq, hi⟩ := List.mem_flatMap.1 (List.mem_of_mem_take hi)
    rw [h.child_iff, hp] at hi
    exact Option.some.inj hi ▸ hq

/-- The children of a node are met in their own order. -/
theorem childrenOf_sublist_order (h : t.Linked) (p : Nat) :
    (t.childrenOf p).Sublist t.order := by
  by_cases hp : p < t.size
  · obtain ⟨before, after, ho⟩ := List.append_of_mem (h.mem_order hp)
    have : (t.childrenOf p).Sublist (t.order.flatMap t.childrenOf) := by
      rw [ho, List.flatMap_append, List.flatMap_cons]
      exact ((List.sublist_append_left ..).trans (List.sublist_append_right ..))
    rw [h.order_eq]
    exact this.cons 0
  · simp [childrenOf, get?, List.getElem?_eq_none (Nat.le_of_not_lt hp)]

theorem mem_range'_of_isSome_parent? (h : t.Linked) {i : Nat} (hi : (t.parent? i).isSome) :
    i ∈ List.range' 1 (t.size - 1) := by
  obtain ⟨p, hp⟩ := Option.isSome_iff_exists.1 hi
  have hlt := lt_size_of_parent? hp
  have hne : i ≠ 0 := fun e => by simp [(h.parent_none i hlt).2 e] at hi
  rw [List.mem_range'_1]
  omega

theorem length_follow_parent?_le (h : t.Linked) (n : Nat) (start : Option Nat) :
    (follow t.parent? n start).length ≤ t.size := by
  have := h.acyclic.length_follow_le (fun _ => h.mem_range'_of_isSome_parent?) n start
  have := t.size_pos
  rw [List.length_range'] at *
  omega

/-- The way up ends by itself. -/
theorem ancestors_of_size_le (h : t.Linked) {n : Nat} (hn : t.size ≤ n) (i : Nat) :
    t.ancestors n i = t.ancestors t.size i := by
  rw [ancestors_eq, ancestors_eq]
  exact follow_eq_of_length_le hn (h.length_follow_parent?_le n _)

/-- The way up ends at the root. -/
theorem getLast?_ancestors (h : t.Linked) {i : Nat} (hi : i < t.size) :
    (i :: t.ancestors t.size i).getLast? = some 0 := by
  have up : i :: t.ancestors t.size i = follow t.parent? (t.size + 1) (some i) := by
    rw [ancestors_eq, follow_succ_some]
  obtain ⟨j, hj⟩ : ∃ j, (i :: t.ancestors t.size i).getLast? = some j := by
    simp [List.getLast?_cons]
  have short := h.length_follow_parent?_le (t.size + 1) (some i)
  have top : t.parent? j = none :=
    getLast?_follow (Nat.lt_succ_of_le short) (up ▸ hj)
  have hlt : j < t.size := by
    rcases List.mem_cons.1 (List.mem_of_getLast? hj) with rfl | hm
    · exact hi
    · rw [ancestors_eq] at hm
      obtain ⟨c, hc⟩ := exists_next_of_mem_follow hm
      exact h.parent_lt c j hc
  rw [hj, (h.parent_none j hlt).1 top]

end Linked

/-- A walk without repetitions never has to pass over a node. -/
theorem meet_eq_walkFrom {n : Nat} {met queue : List Nat}
    (short : (t.walkFrom n queue).length < n) (nodup : (t.walkFrom n queue).Nodup)
    (fresh : ∀ i ∈ t.walkFrom n queue, i < t.size ∧ i ∉ met) :
    t.meet met queue = t.walkFrom n queue := by
  induction n generalizing met queue with
  | zero => simp at short
  | succ n ih =>
    cases queue with
    | nil => simp [meet, walkFrom]
    | cons i queue =>
      rw [walkFrom] at short nodup fresh ⊢
      have hi := fresh i (by simp)
      rw [meet, dif_pos hi]
      congr 1
      apply ih (by simpa using short) (List.nodup_cons.1 nodup).2
      intro j hj
      refine ⟨(fresh j (List.mem_cons_of_mem _ hj)).1, fun hm => ?_⟩
      rcases List.mem_cons.1 hm with rfl | hm
      · exact (List.nodup_cons.1 nodup).1 hj
      · exact (fresh j (List.mem_cons_of_mem _ hj)).2 hm

theorem Linked.values_eq (h : t.Linked) : t.values = t.order.filterMap t.value? := by
  have ends := h.walk_of_size_le (Nat.le_succ t.size)
  have short : (t.walk (t.size + 1)).length < t.size + 1 :=
    Nat.lt_succ_of_le (h.length_walk_le _)
  have met : t.meet [] [0] = t.walk (t.size + 1) :=
    meet_eq_walkFrom short (h.nodup_walk _) fun i hi => ⟨h.lt_size_of_mem_walk hi, by simp⟩
  rw [values, met, ends]
  rfl

end TraceArchive.Tree
