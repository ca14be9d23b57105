import TraceArchive.Proofs.Tree.Arrival
import TraceArchive.Trace.Skew

set_option autoImplicit false

/-!
The spans of a trace as a family, told by their parents' ids alone. Where one span is without a
parent, no id is taken twice and parents never lead back, the spans fit into one tree, and this tree
shows the family: its nodes are the spans, and the walk over it meets them level by level.
-/

namespace TraceArchive

/-- The values of the nodes below a node, in the order in which they were accepted. -/
theorem Assembly.filterMap_value?_childrenOf {α : Type} (a : Assembly α) (p : Nat) :
    (childrenOf a.parents p).filterMap a.tree.value?
      = (a.others.filter fun e => a.parentNode e = p).map (·.value) := by
  have hparents : a.parents.zipIdx 1
      = (a.others.zipIdx 1).map fun e => (a.parentNode e.1, e.2) := by
    rw [parents, List.zipIdx_map]
    rfl
  have hvalues : ∀ e ∈ a.others.zipIdx 1, a.tree.value? e.2 = some e.1.value := by
    intro e he
    obtain ⟨hle, hget⟩ := List.mk_mem_zipIdx_iff_le_and_getElem?_sub.1 he
    obtain ⟨k, hk⟩ : ∃ k, e.2 = k + 1 := ⟨e.2 - 1, by omega⟩
    rw [hk, value?_tree_succ]
    rw [hk, Nat.add_sub_cancel] at hget
    rw [hget, Option.map_some]
  have hnodes : ∀ e ∈ a.others.zipIdx 1,
      ((if a.parentNode e.1 = p then some e.2 else none).bind a.tree.value?)
        = if a.parentNode e.1 = p then some e.1.value else none := by
    intro e he
    split
    · exact hvalues e he
    · rfl
  rw [childrenOf, hparents, List.filterMap_map, List.filterMap_filterMap,
    ← List.filterMap_eq_map, List.filterMap_filter]
  conv_rhs => rw [← List.zipIdx_map_fst 1 a.others, List.filterMap_map]
  simpa using List.filterMap_congr hnodes

/-- A report as it is put into a tree. -/
def Report.entry (r : Report) : Assembly.Entry Report :=
  { parentId := r.parentId, id := r.id, value := r }

namespace Trace

/-- The first span without a parent. -/
def root? (trace : Trace) : Option Report := trace.find? (·.parentId.isNone)

/-- The span above a span: its parent, or the root if the parent is not there. -/
def parentOf? (trace : Trace) (r : Report) : Option Report :=
  r.parentId.bind fun p => (trace.find? (·.id == p)).or (root? trace)

/-- The spans below a span, in the order of the trace. -/
def childrenOf (trace : Trace) (p : Report) : List Report :=
  trace.filter fun r => parentOf? trace r = some p

/-- One span is without a parent, no id is taken twice, and parents never lead back. -/
structure FitsTree (trace : Trace) : Prop where
  wellFormed : Assembly.WellFormed (trace.map Report.entry)
  root : (trace.filter (·.parentId.isNone)).length = 1

/-- The spans of a trace in breadth-first order: after the root come the spans below it, then the
spans below each of these in turn. -/
structure BreadthFirst (trace rs : Trace) : Prop where
  perm : rs.Perm trace
  levels : ∃ root, root.parentId = none ∧ rs = root :: rs.flatMap (childrenOf trace)
  parent_first : ∀ before r after p,
    rs = before ++ r :: after → parentOf? trace r = some p → p ∈ before

variable {trace : Trace} {p r : Report}

theorem mem_of_root? (h : root? trace = some r) : r ∈ trace ∧ r.parentId = none :=
  ⟨List.mem_of_find?_eq_some h, by simpa using List.find?_some h⟩

theorem parentOf?_eq_none (h : r.parentId = none) : parentOf? trace r = none := by
  rw [parentOf?, h, Option.bind_none]

theorem mem_childrenOf : r ∈ childrenOf trace p ↔ r ∈ trace ∧ parentOf? trace r = some p := by
  simp [childrenOf]

namespace FitsTree

variable (h : FitsTree trace)

include h

theorem nodup_ids : (trace.map (·.id)).Nodup := by
  have := h.wellFormed.distinct
  rwa [List.map_map] at this

theorem eq_of_id_eq {s : Report} (hr : r ∈ trace) (hs : s ∈ trace) (hid : r.id = s.id) : r = s :=
  List.inj_on_of_nodup_map h.nodup_ids hr hs hid

/-- The root is the only span without a parent. -/
theorem exists_root : ∃ root, root? trace = some root ∧ root ∈ trace ∧ root.parentId = none
    ∧ ∀ r ∈ trace, r.parentId = none → r = root := by
  obtain ⟨root, hroot⟩ := List.length_eq_one_iff.1 h.root
  have sole : ∀ r, r ∈ trace ∧ r.parentId = none ↔ r = root := by
    intro r
    have : r ∈ trace.filter (·.parentId.isNone) ↔ r ∈ [root] := by rw [hroot]
    simpa using this
  obtain ⟨hmem, hnone⟩ := (sole root).2 rfl
  cases hfind : root? trace with
  | none => exact absurd hnone (by simpa using List.find?_eq_none.1 hfind root hmem)
  | some found =>
    obtain rfl := (sole found).1 (mem_of_root? hfind)
    exact ⟨found, rfl, hmem, hnone, fun r hr hr' => (sole r).1 ⟨hr, hr'⟩⟩

theorem mem_of_parentOf? (hp : parentOf? trace r = some p) : p ∈ trace := by
  obtain ⟨root, hroot, hmem, -, -⟩ := h.exists_root
  obtain ⟨id, -, hp⟩ := Option.bind_eq_some_iff.1 hp
  cases hfind : trace.find? (·.id == id) with
  | some q =>
    rw [hfind, Option.some_or] at hp
    exact Option.some.inj hp ▸ List.mem_of_find?_eq_some hfind
  | none =>
    rw [hfind, Option.none_or, hroot] at hp
    exact Option.some.inj hp ▸ hmem

end FitsTree

/-- What hangs on the values of some nodes hangs on the nodes themselves. -/
theorem flatMap_eq_flatMap_filterMap {α β γ : Type} {f : α → Option β} {g : α → List γ}
    {g' : β → List γ} {l : List α} (h : ∀ a ∈ l, ∃ b, f a = some b ∧ g a = g' b) :
    l.flatMap g = (l.filterMap f).flatMap g' := by
  induction l with
  | nil => rfl
  | cons a l ih =>
    obtain ⟨b, hb, hg⟩ := h a List.mem_cons_self
    rw [List.filterMap_cons_some hb, List.flatMap_cons, List.flatMap_cons, hg,
      ih fun c hc => h c (List.mem_cons_of_mem a hc)]

/-! The nodes of the tree into which the spans were put, and the spans at them. -/

section

variable {a : Assembly Report} (h : FitsTree trace) (ha : a.entries = trace.map Report.entry)

include ha

theorem root?_of_entries : a.root? = (root? trace).map Report.entry := by
  rw [Assembly.root?, ha, List.find?_map]
  rfl

theorem entry_mem (hr : r ∈ trace) : r.entry ∈ a.entries := ha ▸ List.mem_map_of_mem hr

theorem eq_entry_of_mem {e : Assembly.Entry Report} (he : e ∈ a.entries) :
    e = e.value.entry ∧ e.value ∈ trace := by
  obtain ⟨r, hr, rfl⟩ := List.mem_map.1 (ha ▸ he)
  exact ⟨rfl, hr⟩

include h

theorem consistent_of_entries : a.Consistent :=
  Assembly.WellFormed.consistent (ha ▸ h.wellFormed)

/-- A span is at the node of its id. -/
theorem value?_tree_iff {i : Nat} :
    a.tree.value? i = some r ↔ r ∈ trace ∧ a.nodeOf? r.id = some i := by
  have hconsistent := consistent_of_entries h ha
  constructor
  · intro hvalue
    obtain ⟨e, he, rfl, hnode⟩ := hconsistent.exists_entry hvalue
    obtain ⟨heq, hmem⟩ := eq_entry_of_mem ha he
    rw [heq] at hnode
    exact ⟨hmem, hnode⟩
  · rintro ⟨hr, hnode⟩
    obtain ⟨j, hj, hvalue⟩ := hconsistent.exists_nodeOf? (entry_mem ha hr)
    obtain rfl : j = i := Option.some.inj (hj.symm.trans hnode)
    exact hvalue

/-- A span is put below the span above it. -/
theorem value?_parentNode {q : UInt64} (hq : r.parentId = some q) :
    a.tree.value? (a.parentNode r.entry) = parentOf? trace r := by
  have hnode : a.parentNode? r.entry = a.nodeOf? q := by
    show r.parentId.bind a.nodeOf? = _
    rw [hq, Option.bind_some]
  rw [Assembly.parentNode, hnode, parentOf?, hq, Option.bind_some]
  cases hfind : trace.find? (·.id == q) with
  | some p =>
    have hp : p ∈ trace := List.mem_of_find?_eq_some hfind
    obtain rfl : p.id = q := by simpa using List.find?_some hfind
    obtain ⟨i, hi, hvalue⟩ :=
      (consistent_of_entries h ha).exists_nodeOf? (entry_mem ha hp)
    have hi : a.nodeOf? p.id = some i := hi
    rw [hi, Option.getD_some, Option.some_or]
    exact hvalue
  | none =>
    have hunknown : a.nodeOf? q = none := by
      apply Assembly.nodeOf?_eq_none
      intro e he hid
      obtain ⟨heq, hmem⟩ := eq_entry_of_mem ha he
      have hother : e.value.id ≠ q := by simpa using List.find?_eq_none.1 hfind e.value hmem
      rw [heq] at hid
      exact hother hid
    rw [hunknown, Option.getD_none, Option.none_or, Assembly.value?_tree_zero,
      root?_of_entries ha, Option.map_map]
    exact congrFun Option.map_id _

theorem parentId_of_others {k : Nat} {e : Assembly.Entry Report} (he : a.others[k]? = some e) :
    ∃ q, e.parentId = some q := by
  obtain ⟨root, hroot, -, -, sole⟩ := h.exists_root
  have hothers := List.mem_of_getElem? he
  obtain ⟨heq, hmem⟩ := eq_entry_of_mem ha (Assembly.others_sublist.subset hothers)
  have haroot : a.root? = some root.entry := by rw [root?_of_entries ha, hroot]; rfl
  cases hq : e.parentId with
  | some q => exact ⟨q, rfl⟩
  | none =>
    have hvalue : e.value.parentId = none := by rw [heq] at hq; exact hq
    have hid : e.id = root.entry.id := by rw [heq, ← sole e.value hmem hvalue]
    exact absurd hid (Assembly.id_ne_of_mem_others hothers haroot)

/-- The node above a node has the span above its span. -/
theorem parent?_bind_value? {i : Nat} (hr : a.tree.value? i = some r) :
    (a.tree.parent? i).bind a.tree.value? = parentOf? trace r := by
  cases i with
  | zero =>
    obtain ⟨e, hroot, rfl⟩ := Option.map_eq_some_iff.1 hr
    have hnone : e.parentId = none := by simpa using List.find?_some hroot
    obtain ⟨heq, -⟩ := eq_entry_of_mem ha (Assembly.mem_of_root? hroot)
    rw [heq] at hnone
    rw [Assembly.parent?_tree_zero, Option.bind_none, parentOf?_eq_none hnone]
  | succ k =>
    rw [Assembly.value?_tree_succ] at hr
    obtain ⟨e, he, rfl⟩ := Option.map_eq_some_iff.1 hr
    obtain ⟨q, hq⟩ := parentId_of_others h ha he
    obtain ⟨heq, -⟩ := eq_entry_of_mem ha
      (Assembly.others_sublist.subset (List.mem_of_getElem? he))
    rw [heq] at hq
    rw [Assembly.parent?_tree_succ, he, Option.map_some, Option.bind_some, heq]
    exact value?_parentNode h ha hq

/-- The nodes below a node have the spans below its span, in the order of the trace. -/
theorem filterMap_value?_childrenOf {i : Nat} (hr : a.tree.value? i = some r) :
    (a.tree.childrenOf i).filterMap a.tree.value? = childrenOf trace r := by
  have hconsistent := consistent_of_entries h ha
  obtain ⟨root, hroot, -, hnone, sole⟩ := h.exists_root
  have haroot : a.root? = some root.entry := by rw [root?_of_entries ha, hroot]; rfl
  have hi : i < a.tree.size :=
    Assembly.size_tree a ▸ Assembly.nodeOf?_lt ((value?_tree_iff h ha).1 hr).2
  rw [Assembly.childrenOf_tree hi, Assembly.filterMap_value?_childrenOf, Assembly.others, haroot,
    List.filter_filter, ha, List.filter_map, List.map_map, childrenOf]
  change List.map id _ = _
  rw [List.map_id]
  apply List.filter_congr
  intro s hs
  cases hq : s.parentId with
  | none =>
    obtain rfl := sole s hs hq
    simp [parentOf?_eq_none hq]
  | some q =>
    have hne : s.entry.id ≠ root.entry.id := fun hid => by
      have := h.eq_of_id_eq hs (List.mem_of_find?_eq_some hroot) hid
      rw [this, hnone] at hq
      cases hq
    have hparent := value?_parentNode h ha hq
    have : a.parentNode s.entry = i ↔ parentOf? trace s = some r := by
      rw [← hparent]
      refine ⟨fun hp => hp ▸ hr, fun hp => ?_⟩
      have hp := ((value?_tree_iff h ha).1 hp).2
      exact Option.some.inj (hp.symm.trans ((value?_tree_iff h ha).1 hr).2)
    simp [this, hne]

theorem exists_value? {i : Nat} (hi : i < a.tree.size) : ∃ r, a.tree.value? i = some r := by
  obtain ⟨root, hroot, -⟩ := h.exists_root
  cases i with
  | zero => exact ⟨root, by rw [Assembly.value?_tree_zero, root?_of_entries ha, hroot]; rfl⟩
  | succ k =>
    rw [Assembly.size_tree] at hi
    exact ⟨_, by rw [Assembly.value?_tree_succ,
      List.getElem?_eq_getElem (Nat.lt_of_succ_lt_succ hi), Option.map_some]⟩

/-- The walk over the tree meets the spans in breadth-first order. -/
theorem breadthFirst_order :
    BreadthFirst trace (a.tree.order.filterMap a.tree.value?) := by
  have hlinked := (consistent_of_entries h ha).linked_tree
  obtain ⟨root, hroot, -, hnone, -⟩ := h.exists_root
  refine ⟨?_, ⟨root, hnone, ?_⟩, ?_⟩
  · have := (consistent_of_entries h ha).values_tree_perm
    rwa [hlinked.values_eq, ha, List.map_map, List.map_id''] at this
    exact fun r => rfl
  · have hzero : a.tree.value? 0 = some root := by
      rw [Assembly.value?_tree_zero, root?_of_entries ha, hroot]
      rfl
    conv_lhs => rw [hlinked.order_eq]
    rw [List.filterMap_cons_some hzero, List.filterMap_flatMap]
    congr 1
    apply flatMap_eq_flatMap_filterMap
    intro i hi
    obtain ⟨s, hs⟩ := exists_value? h ha (hlinked.lt_size_of_mem_walk hi)
    exact ⟨s, hs, filterMap_value?_childrenOf h ha hs⟩
  · intro before s after p hsplit hp
    obtain ⟨first, rest, horder, rfl, hrest⟩ := List.filterMap_eq_append_iff.1 hsplit
    obtain ⟨skipped, i, last, rfl, hskipped, hs, -⟩ := List.filterMap_eq_cons_iff.1 hrest
    rw [← parent?_bind_value? h ha hs] at hp
    obtain ⟨j, hj, hvalue⟩ := Option.bind_eq_some_iff.1 hp
    rw [← List.append_assoc] at horder
    rcases List.mem_append.1 (hlinked.parent_before horder hj) with hfirst | hskip
    · exact List.mem_filterMap.2 ⟨j, hfirst, hvalue⟩
    · rw [hskipped j hskip] at hvalue
      cases hvalue

end

end Trace

end TraceArchive
