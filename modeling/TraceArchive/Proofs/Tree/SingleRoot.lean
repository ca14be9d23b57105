import TraceArchive.Proofs.Tree.Assembly

set_option autoImplicit false

/-!
Whatever spans are added in whatever order, with circles, taken ids, unknown parents or several
roots among them, the built tree is one tree below one root, and it holds the accepted spans and
nothing else.
-/

namespace TraceArchive

/-- One tree below node 0, as walks over it show it. -/
structure Tree.SingleRooted {α : Type} (t : Tree α) : Prop where
  /-- The breadth-first walk ends by itself. -/
  walk_ends : ∀ n, t.size ≤ n → t.walk n = t.order
  meets_once : t.order.Perm (List.range t.size)
  root_first : t.order.head? = some 0
  parent_first : ∀ before i after p,
    t.order = before ++ i :: after → t.parent? i = some p → p ∈ before
  child_iff : ∀ i p, t.parent? i = some p ↔ i ∈ t.childrenOf p
  child_once : ∀ i p, i ∈ t.childrenOf p → (t.childrenOf p).count i = 1
  /-- The walk upwards ends by itself, at the root. -/
  ancestors_end : ∀ i, i < t.size →
    (∀ n, t.size ≤ n → t.ancestors n i = t.ancestors t.size i)
      ∧ (i :: t.ancestors t.size i).getLast? = some 0

theorem Tree.Linked.singleRooted {α : Type} {t : Tree α} (h : t.Linked) : t.SingleRooted where
  walk_ends _ := h.walk_of_size_le
  meets_once := h.order_perm
  root_first := by rw [h.order_eq, List.head?_cons]
  parent_first _ _ _ _ := h.parent_before
  child_iff i p := (h.child_iff p i).symm
  child_once _ p := List.count_eq_one_of_mem (h.nodup_children p)
  ancestors_end i hi := ⟨fun _ hn => h.ancestors_of_size_le hn i, h.getLast?_ancestors hi⟩

namespace Assembly

variable {α : Type} {a : Assembly α} {e f : Entry α}

/-! What the tree holds, and in which order siblings are met. -/

theorem isPartial_tree_iff : a.tree.isPartial = true ↔ ∀ e ∈ a.entries, e.parentId ≠ none := by
  rw [← root?_eq_none_iff, Tree.isPartial]
  change (a.root?.map (·.value)).isNone = true ↔ _
  simp

theorem map_value?_range (a : Assembly α) : (List.range a.tree.size).map a.tree.value?
    = a.root?.map (·.value) :: a.others.map fun e => some e.value := by
  rw [size_tree, List.range_succ_eq_map, List.map_cons, List.map_map]
  congr 1
  apply List.ext_getElem (by simp)
  intro k hk hk'
  have : k < a.others.length := by simpa using hk
  simp [List.getElem?_eq_getElem this]

/-- The values that a walk meets are those of the accepted spans, and one place without a value
where the root is missing. -/
theorem Consistent.values_perm (h : a.Consistent) : (a.tree.order.map a.tree.value?).Perm
    ((if a.tree.isPartial then [none] else []) ++ a.entries.map fun e => some e.value) := by
  apply (h.linked_tree.order_perm.map _).trans
  rw [map_value?_range]
  have held := h.entries_perm.map fun e => some e.value
  cases hr : a.root? with
  | none =>
    have hp : a.tree.isPartial = true := by
      rw [isPartial_tree_iff, ← root?_eq_none_iff]
      exact hr
    rw [hr] at held
    simpa [hp] using held.symm
  | some root =>
    have hp : a.tree.isPartial = false := by
      rw [Bool.eq_false_iff, Ne, isPartial_tree_iff, ← root?_eq_none_iff, hr]
      simp
    rw [hr] at held
    simpa [hp] using held.symm

theorem Consistent.exists_nodeOf? (h : a.Consistent) (he : e ∈ a.entries) :
    ∃ i, a.nodeOf? e.id = some i ∧ a.tree.value? i = some e.value := by
  by_cases hr : ∀ root, a.root? = some root → e.id ≠ root.id
  · obtain ⟨k, hk⟩ := List.mem_iff_getElem?.1 (mem_others he hr)
    exact ⟨k + 1, h.nodeOf?_others hk, by simp [hk]⟩
  · push Not at hr
    obtain ⟨root, hr, hid⟩ := hr
    obtain rfl := h.eq_of_id_eq he (mem_of_root? hr) hid
    exact ⟨0, nodeOf?_root hr, by simp [hr]⟩

theorem Consistent.nodeOf?_zero (h : a.Consistent) (he : e ∈ a.entries)
    (hi : a.nodeOf? e.id = some 0) : a.root? = some e := by
  cases hr : a.root? with
  | none =>
    obtain ⟨k, hk⟩ := List.mem_iff_getElem?.1
      (mem_others he fun root hroot => by simp [hr] at hroot)
    simp [h.nodeOf?_others hk] at hi
  | some root =>
    by_cases hid : e.id = root.id
    · rw [h.eq_of_id_eq he (mem_of_root? hr) hid]
    · obtain ⟨k, hk⟩ := List.mem_iff_getElem?.1
        (mem_others he fun root' hroot => by rw [hr] at hroot; exact Option.some.inj hroot ▸ hid)
      simp [h.nodeOf?_others hk] at hi

theorem Consistent.getElem?_others (h : a.Consistent) (he : e ∈ a.entries) {k : Nat}
    (hk : a.nodeOf? e.id = some (k + 1)) : a.others[k]? = some e := by
  obtain ⟨f, hf, hid⟩ := exists_of_nodeOf?_succ hk
  rw [hf, h.eq_of_id_eq (others_sublist.subset (List.mem_of_getElem? hf)) he hid]

/-- Nodes have the order in which their spans were accepted. -/
theorem Consistent.lt_of_sublist (h : a.Consistent) {k m : Nat} (hk : a.others[k]? = some e)
    (hm : a.others[m]? = some f) (hef : [e, f].Sublist a.entries) : k < m := by
  have inOthers : [e, f].Sublist a.others := by
    cases hr : a.root? with
    | none => simpa [others, hr] using hef
    | some root =>
      have he := id_ne_of_mem_others (List.mem_of_getElem? hk) hr
      have hf := id_ne_of_mem_others (List.mem_of_getElem? hm) hr
      have := hef.filter (·.id != root.id)
      simpa [others, hr, he, hf] using this
  obtain ⟨before, after, hsplit, hb, ha⟩ := List.cons_sublist_iff.1 inOthers
  obtain ⟨i, hi⟩ := List.mem_iff_getElem?.1 hb
  obtain ⟨j, hj⟩ := List.mem_iff_getElem?.1 (List.singleton_sublist.1 ha)
  have hlt := (List.getElem?_eq_some_iff.1 hi).1
  have nodup := List.Nodup.of_map _ h.nodup_others
  have hki : k = i := by
    refine (List.getElem?_inj (List.getElem?_eq_some_iff.1 hk).1 nodup).1 ?_
    rw [hk, hsplit, List.getElem?_append_left hlt, hi]
  have hmj : m = before.length + j := by
    refine (List.getElem?_inj (List.getElem?_eq_some_iff.1 hm).1 nodup).1 ?_
    rw [hm, hsplit, List.getElem?_append_right (Nat.le_add_right ..), Nat.add_sub_cancel_left, hj]
  omega

theorem pair_sublist_of_lt {l : List Nat} (h : l.Pairwise (· < ·)) {i j : Nat} (hi : i ∈ l)
    (hj : j ∈ l) (hij : i < j) : [i, j].Sublist l := by
  induction l with
  | nil => cases hi
  | cons k l ih =>
    have hk := List.pairwise_cons.1 h
    rcases List.mem_cons.1 hi with hik | hil
    · have hjl : j ∈ l := (List.mem_cons.1 hj).resolve_left (by omega)
      exact hik ▸ (List.singleton_sublist.2 hjl).cons_cons i
    · have hjl : j ∈ l := (List.mem_cons.1 hj).resolve_left fun hjk => by
        have := hk.1 i hil
        omega
      exact (ih hk.2 hil hjl).cons k

/-- Spans under one parent are its children in the order in which they were accepted. -/
theorem Consistent.siblings_sublist_childrenOf (h : a.Consistent) {i j p : Nat}
    (hef : [e, f].Sublist a.entries) (hi : a.nodeOf? e.id = some i) (hj : a.nodeOf? f.id = some j)
    (hip : a.tree.parent? i = some p) (hjp : a.tree.parent? j = some p) :
    [i, j].Sublist (a.tree.childrenOf p) := by
  have he : e ∈ a.entries := hef.subset (by simp)
  have hf : f ∈ a.entries := hef.subset (by simp)
  cases i with
  | zero => simp at hip
  | succ k =>
    cases j with
    | zero => simp at hjp
    | succ m =>
      have hlt := h.lt_of_sublist (h.getElem?_others he hi) (h.getElem?_others hf hj) hef
      exact pair_sublist_of_lt (a.pairwise_childrenOf_tree p) ((a.mem_childrenOf_tree ..).2 hip)
        ((a.mem_childrenOf_tree ..).2 hjp) (Nat.succ_lt_succ hlt)

/-- Spans under one parent are met in the order in which they were accepted. -/
theorem Consistent.siblings_sublist_order (h : a.Consistent) {i j : Nat}
    (hef : [e, f].Sublist a.entries) (hi : a.nodeOf? e.id = some i) (hj : a.nodeOf? f.id = some j)
    (hp : a.tree.parent? i = a.tree.parent? j) : [i, j].Sublist a.tree.order := by
  cases hparent : a.tree.parent? i with
  | some p =>
    exact (h.siblings_sublist_childrenOf hef hi hj hparent (hp ▸ hparent)).trans
      (h.linked_tree.childrenOf_sublist_order p)
  | none =>
    have he : e ∈ a.entries := hef.subset (by simp)
    have hf : f ∈ a.entries := hef.subset (by simp)
    -- Only the root has no parent, so both would be the root.
    have root : ∀ {x : Entry α} {n : Nat}, x ∈ a.entries → a.nodeOf? x.id = some n →
        a.tree.parent? n = none → a.root? = some x := by
      intro x n hx hn hnone
      have hlt : n < a.tree.size := size_tree a ▸ nodeOf?_lt hn
      rw [(h.linked_tree.parent_none n hlt).1 hnone] at hn
      exact h.nodeOf?_zero hx hn
    have := (root he hi hparent).symm.trans (root hf hj (hp ▸ hparent))
    obtain rfl := Option.some.inj this
    have := (List.Nodup.of_map _ h.distinct).sublist hef
    simp at this

/-- The values of a tree are those of the accepted spans, each once, in the order of the walk. -/
theorem Consistent.values_tree_perm (h : a.Consistent) :
    a.tree.values.Perm (a.entries.map (·.value)) := by
  rw [h.linked_tree.values_eq]
  have := h.values_perm.filterMap id
  rw [List.filterMap_map, List.filterMap_append, List.filterMap_map] at this
  cases hp : a.tree.isPartial with
  | true => simpa [hp] using this
  | false => simpa [hp] using this

/-- For every run of additions the built tree is single-rooted and holds the accepted spans: its
root stands for a missing one exactly if no accepted span is without a parent, and spans under one
parent are met in the order in which they were added. -/
theorem ofList_singleRooted (trace : String) (es : List (Entry α)) :
    let accepted := Assembly.accepted { trace } es
    let a := (Assembly.addAll { trace } es).value
    let t := (Assembly.ofList trace es).value
    t.SingleRooted
      ∧ (t.isPartial = true ↔ ∀ e ∈ accepted, e.parentId ≠ none)
      ∧ (t.order.map t.value?).Perm
          ((if t.isPartial then [none] else []) ++ accepted.map fun e => some e.value)
      ∧ (∀ e ∈ accepted, ∃ i, a.nodeOf? e.id = some i ∧ t.value? i = some e.value)
      ∧ (∀ e f i j, [e, f].Sublist accepted → a.nodeOf? e.id = some i → a.nodeOf? f.id = some j →
          t.parent? i = t.parent? j → [i, j].Sublist t.order)
      ∧ t.values = t.order.filterMap t.value?
      ∧ t.values.Perm (accepted.map (·.value)) := by
  intro accepted a t
  have h : a.Consistent := (consistent_empty trace).addAll es
  have entries : a.entries = accepted := entries_addAll { trace } es
  rw [← entries]
  exact ⟨h.linked_tree.singleRooted, isPartial_tree_iff, h.values_perm, fun _ => h.exists_nodeOf?,
    fun _ _ _ _ => h.siblings_sublist_order, h.linked_tree.values_eq, h.values_tree_perm⟩

end Assembly

end TraceArchive
