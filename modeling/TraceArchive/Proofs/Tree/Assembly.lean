import Mathlib.Data.List.Pairwise
import TraceArchive.Proofs.Tree.Consistency

set_option autoImplicit false

/-!
Assembled trees, node by node. The tree of a consistent assembly is linked: parents and children
agree, and following parents leads to the root.
-/

namespace TraceArchive.Assembly

variable {α : Type} {a b : Assembly α} {e f : Entry α}

/-! The nodes: the root has number 0, the other entries follow in the order they were accepted. -/

theorem mem_of_root? (h : a.root? = some e) : e ∈ a.entries := List.mem_of_find?_eq_some h

theorem root?_eq_none_iff : a.root? = none ↔ ∀ e ∈ a.entries, e.parentId ≠ none := by
  simp [root?]

theorem others_sublist : a.others.Sublist a.entries := by
  unfold others
  split
  · exact List.filter_sublist
  · exact List.Sublist.refl _

theorem mem_others (he : e ∈ a.entries) (hr : ∀ root, a.root? = some root → e.id ≠ root.id) :
    e ∈ a.others := by
  unfold others
  split
  · next root h => simpa [he] using hr root h
  · exact he

theorem id_ne_of_mem_others (he : e ∈ a.others) {root : Entry α} (hr : a.root? = some root) :
    e.id ≠ root.id := by
  simp only [others, hr, List.mem_filter] at he
  simpa using he.2

theorem Consistent.nodup_others (h : a.Consistent) : (a.others.map (·.id)).Nodup :=
  h.distinct.sublist (others_sublist.map _)

/-- The root and the others are all that was accepted. -/
theorem Consistent.entries_perm (h : a.Consistent) :
    a.entries.Perm (a.root?.toList ++ a.others) := by
  cases hr : a.root? with
  | none => simp [others, hr]
  | some root =>
    obtain ⟨before, after, hsplit⟩ := List.append_of_mem (mem_of_root? hr)
    have distinct := h.distinct
    rw [hsplit, List.map_append, List.map_cons] at distinct
    have hne := (List.nodup_cons.1 (List.nodup_middle.1 distinct)).1
    rw [List.mem_append, not_or] at hne
    have hothers : a.others = before ++ after := by
      have keeps : ∀ l : List (Entry α), root.id ∉ l.map (·.id) →
          l.filter (·.id != root.id) = l := fun l hl =>
        List.filter_eq_self.2 fun e he => bne_iff_ne.2 fun hid =>
          hl (List.mem_map.2 ⟨e, he, hid⟩)
      simp [others, hr, hsplit, keeps _ hne.1, keeps _ hne.2]
    rw [hothers, hsplit]
    exact List.perm_middle

theorem nodeOf?_root (h : a.root? = some e) : a.nodeOf? e.id = some 0 := by
  simp [nodeOf?, h]

theorem Consistent.nodeOf?_others (h : a.Consistent) {k : Nat} (hk : a.others[k]? = some e) :
    a.nodeOf? e.id = some (k + 1) := by
  have hmem : e ∈ a.others := List.mem_of_getElem? hk
  have hroot : a.root?.any (·.id == e.id) = false := by
    cases hr : a.root? with
    | none => rfl
    | some root => simpa using fun hid => id_ne_of_mem_others hmem hr hid.symm
  obtain ⟨hlt, rfl⟩ := List.getElem?_eq_some_iff.1 hk
  have hidx : a.others.findIdx? (·.id == a.others[k].id) = some k := by
    refine List.findIdx?_eq_some_iff_getElem.2 ⟨hlt, by simp, fun j hj => ?_⟩
    have := List.pairwise_iff_getElem.1 h.nodup_others j k (by simp; omega) (by simpa) hj
    simpa using this
  rw [nodeOf?, if_neg (by simp [hroot]), hidx, Option.map_some]

theorem exists_of_nodeOf?_succ {id : UInt64} {k : Nat} (h : a.nodeOf? id = some (k + 1)) :
    ∃ e, a.others[k]? = some e ∧ e.id = id := by
  unfold nodeOf? at h
  split at h
  · cases h
  · obtain ⟨j, hj, hjk⟩ := Option.map_eq_some_iff.1 h
    obtain rfl : j = k := by omega
    obtain ⟨hlt, hid, -⟩ := List.findIdx?_eq_some_iff_getElem.1 hj
    exact ⟨a.others[j], List.getElem?_eq_getElem hlt, by simpa using hid⟩

theorem nodeOf?_lt {id : UInt64} {i : Nat} (h : a.nodeOf? id = some i) :
    i < a.others.length + 1 := by
  cases i with
  | zero => omega
  | succ k =>
    obtain ⟨e, he, -⟩ := exists_of_nodeOf?_succ h
    have := (List.getElem?_eq_some_iff.1 he).1
    omega

/-- Where a node is put: under the node of its parent, or under the root. -/
def parentNode (a : Assembly α) (e : Entry α) : Nat := (a.parentNode? e).getD 0

theorem parentNode_lt (a : Assembly α) (e : Entry α) : a.parentNode e < a.others.length + 1 := by
  rw [parentNode]
  cases h : a.parentNode? e with
  | none => simp
  | some i =>
    obtain ⟨p, -, hp⟩ := Option.bind_eq_some_iff.1 h
    exact nodeOf?_lt hp

/-! The tree, node by node. -/

theorem mem_childrenOf {parents : List Nat} {p i : Nat} :
    i ∈ childrenOf parents p ↔ 1 ≤ i ∧ parents[i - 1]? = some p := by
  simp only [childrenOf, List.mem_filterMap, Option.ite_none_right_eq_some, Option.some.injEq]
  constructor
  · rintro ⟨⟨q, j⟩, hm, rfl, rfl⟩
    exact List.mk_mem_zipIdx_iff_le_and_getElem?_sub.1 hm
  · exact fun h => ⟨(p, i), List.mk_mem_zipIdx_iff_le_and_getElem?_sub.2 h, rfl, rfl⟩

theorem pairwise_childrenOf (parents : List Nat) (p : Nat) :
    (childrenOf parents p).Pairwise (· < ·) := by
  have ascending : (parents.zipIdx 1).Pairwise fun x y => x.2 < y.2 := by
    rw [← List.pairwise_map, List.zipIdx_map_snd]
    exact List.pairwise_lt_range'
  refine List.pairwise_filterMap.2 (ascending.imp fun {x y} hxy i hi j hj => ?_)
  simp only [Option.ite_none_right_eq_some, Option.some.injEq] at hi hj
  omega

theorem getElem?_parents (a : Assembly α) (k : Nat) :
    a.parents[k]? = a.others[k]?.map a.parentNode := by
  rw [parents, List.getElem?_map]
  rfl

theorem size_tree (a : Assembly α) : a.tree.size = a.others.length + 1 := by
  simp [tree, Tree.size, parents]

theorem get?_tree_succ (a : Assembly α) (k : Nat) : a.tree.get? (k + 1)
    = a.others[k]?.map fun e => {
        value := some e.value
        parent := some (a.parentNode e)
        children := childrenOf a.parents (k + 1) } := by
  have hp : (a.parents.zipIdx 1)[k]? = a.others[k]?.map fun e => (a.parentNode e, k + 1) := by
    rw [List.getElem?_zipIdx, getElem?_parents, Option.map_map, Nat.add_comm 1 k]
    rfl
  simp only [tree, Tree.get?, List.getElem?_cons_succ, List.getElem?_map]
  cases hk : a.others[k]? with
  | none =>
    have := List.getElem?_eq_none_iff.1 hk
    simp
    omega
  | some e =>
    rw [hk, Option.map_some] at hp
    have hz : (a.others.zip (a.parents.zipIdx 1))[k]? = some (e, a.parentNode e, k + 1) :=
      List.getElem?_zip_eq_some.2 ⟨hk, hp⟩
    rw [hz]
    rfl

@[simp] theorem value?_tree_zero (a : Assembly α) : a.tree.value? 0 = a.root?.map (·.value) := rfl

@[simp] theorem value?_tree_succ (a : Assembly α) (k : Nat) :
    a.tree.value? (k + 1) = a.others[k]?.map (·.value) := by
  rw [Tree.value?, get?_tree_succ]
  cases a.others[k]? <;> rfl

@[simp] theorem parent?_tree_zero (a : Assembly α) : a.tree.parent? 0 = none := rfl

@[simp] theorem parent?_tree_succ (a : Assembly α) (k : Nat) :
    a.tree.parent? (k + 1) = a.others[k]?.map a.parentNode := by
  rw [Tree.parent?, get?_tree_succ]
  cases a.others[k]? <;> rfl

theorem childrenOf_tree {a : Assembly α} {p : Nat} (hp : p < a.tree.size) :
    a.tree.childrenOf p = childrenOf a.parents p := by
  rw [size_tree] at hp
  cases p with
  | zero => rfl
  | succ k =>
    have hk : k < a.others.length := by omega
    simp [Tree.childrenOf, get?_tree_succ, List.getElem?_eq_getElem hk]

theorem childrenOf_tree_of_le {a : Assembly α} {p : Nat} (hp : a.tree.size ≤ p) :
    a.tree.childrenOf p = [] := by
  simp [Tree.childrenOf, Tree.get?, List.getElem?_eq_none hp]

theorem pairwise_childrenOf_tree (a : Assembly α) (p : Nat) :
    (a.tree.childrenOf p).Pairwise (· < ·) := by
  rcases Nat.lt_or_ge p a.tree.size with hp | hp
  · exact childrenOf_tree hp ▸ pairwise_childrenOf ..
  · exact childrenOf_tree_of_le hp ▸ List.Pairwise.nil

theorem parent?_tree_lt {i p : Nat} (h : a.tree.parent? i = some p) : p < a.tree.size := by
  cases i with
  | zero => cases h
  | succ k =>
    rw [parent?_tree_succ] at h
    obtain ⟨e, -, rfl⟩ := Option.map_eq_some_iff.1 h
    exact size_tree a ▸ a.parentNode_lt e

theorem mem_childrenOf_tree (a : Assembly α) (p i : Nat) :
    i ∈ a.tree.childrenOf p ↔ a.tree.parent? i = some p := by
  rcases Nat.lt_or_ge p a.tree.size with hp | hp
  · rw [childrenOf_tree hp, mem_childrenOf]
    cases i with
    | zero => simp
    | succ k => simp [getElem?_parents]
  · rw [childrenOf_tree_of_le hp]
    exact ⟨fun h => absurd h List.not_mem_nil, fun h => absurd (parent?_tree_lt h) (by omega)⟩

/-- What is at a node was accepted under the id of the node. -/
theorem Consistent.exists_entry (h : a.Consistent) {i : Nat} {v : α}
    (hv : a.tree.value? i = some v) :
    ∃ e ∈ a.entries, e.value = v ∧ a.nodeOf? e.id = some i := by
  cases i with
  | zero =>
    obtain ⟨e, hroot, rfl⟩ := Option.map_eq_some_iff.1 hv
    exact ⟨e, mem_of_root? hroot, rfl, nodeOf?_root hroot⟩
  | succ k =>
    rw [value?_tree_succ] at hv
    obtain ⟨e, he, rfl⟩ := Option.map_eq_some_iff.1 hv
    exact ⟨e, others_sublist.subset (List.mem_of_getElem? he), rfl, h.nodeOf?_others he⟩

theorem tree_congr (h : a.entries = b.entries) : a.tree = b.tree := by
  cases a
  cases b
  cases h
  rfl

theorem value_ofList_eq (trace trace' : String) (es : List (Entry α)) :
    (ofList trace es).value = (ofList trace' es).value := by
  apply tree_congr
  rw [entries_addAll, entries_addAll]
  exact accepted_withTrace { trace := trace' } trace es

theorem Consistent.parentIdOf?_others (h : a.Consistent) {k : Nat} (hk : a.others[k]? = some e) :
    a.parentIdOf? e.id = e.parentId := by
  have := h.find?_of_mem (others_sublist.subset (List.mem_of_getElem? hk))
  simp [parentIdOf?, this]

/-- Parents never lead back in the tree, because recorded parents do not. A node below the root by
default adds nothing: the root has no parent. -/
theorem Consistent.acyclic_tree (h : a.Consistent) : Acyclic a.tree.parent? := by
  have root : Acc (fun p i => a.tree.parent? i = some p) 0 :=
    .intro _ fun p hp => by cases hp
  have others : ∀ id k, (∃ e, a.others[k]? = some e ∧ e.id = id) →
      Acc (fun p i => a.tree.parent? i = some p) (k + 1) := by
    intro id
    induction id using h.acyclic.induction with
    | _ id ih =>
      rintro k ⟨e, hk, rfl⟩
      refine .intro _ fun p hp => ?_
      rw [parent?_tree_succ, hk] at hp
      obtain rfl := Option.some.inj hp
      cases hn : a.parentNode e with
      | zero => exact root
      | succ m =>
        have hpn : a.parentNode? e = some (m + 1) := by
          rw [parentNode] at hn
          cases hq : a.parentNode? e with
          | none => simp [hq] at hn
          | some i => simpa [hq] using hn
        obtain ⟨pid, hpid, hnode⟩ := Option.bind_eq_some_iff.1 hpn
        exact ih pid (by rw [h.parentIdOf?_others hk, hpid]) m (exists_of_nodeOf?_succ hnode)
  refine ⟨fun i => ?_⟩
  cases i with
  | zero => exact root
  | succ k =>
    cases hk : a.others[k]? with
    | none => exact .intro _ fun p hp => by simp [hk] at hp
    | some e => exact others e.id k ⟨e, hk, rfl⟩

theorem Consistent.linked_tree (h : a.Consistent) : a.tree.Linked where
  child_iff := a.mem_childrenOf_tree
  nodup_children p := (a.pairwise_childrenOf_tree p).imp Nat.ne_of_lt
  parent_lt _ _ := parent?_tree_lt
  parent_none i hi := by
    cases i with
    | zero => simp
    | succ k =>
      rw [size_tree] at hi
      have hk : k < a.others.length := by omega
      simp [List.getElem?_eq_getElem hk]
  acyclic := h.acyclic_tree

end TraceArchive.Assembly
