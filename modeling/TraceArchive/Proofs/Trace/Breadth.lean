import TraceArchive.Proofs.Sorted.Map
import TraceArchive.Proofs.Trace.Family

set_option autoImplicit false

/-!
There is one breadth-first order of a family, and a family that is told in it keeps it. Neither
depends on more than the ids of the spans and of their parents.
-/

namespace TraceArchive

section

variable {α : Type} {below : α → List α} {queue rest rest' : List α} {x : α}

/-- Nothing hangs below itself or below a later member. -/
def TopDown (below : α → List α) (l : List α) : Prop :=
  ∀ before x after, l = before ++ x :: after → ∀ y ∈ x :: after, x ∉ below y

theorem TopDown.tail (h : TopDown below (x :: rest)) : TopDown below rest :=
  fun before y after hrest => h (x :: before) y after (by rw [hrest, List.cons_append])

/-- What comes first was in the queue, as it hangs below nothing that comes. -/
theorem TopDown.exists_queue (h : TopDown below (x :: rest))
    (hlevels : x :: rest = queue ++ (x :: rest).flatMap below) : ∃ tail, queue = x :: tail := by
  cases queue with
  | nil =>
    have hmem : x ∈ (x :: rest).flatMap below := by
      rw [List.nil_append] at hlevels
      exact hlevels ▸ List.mem_cons_self
    obtain ⟨y, hy, hbelow⟩ := List.mem_flatMap.1 hmem
    exact absurd hbelow (h [] x rest rfl y hy)
  | cons y tail => exact ⟨tail, by rw [(List.cons.inj hlevels).1]⟩

/-- The queue alone tells what comes level by level. -/
theorem TopDown.eq_of_levels (h : TopDown below rest) (h' : TopDown below rest')
    (hlevels : rest = queue ++ rest.flatMap below)
    (hlevels' : rest' = queue ++ rest'.flatMap below) : rest = rest' := by
  induction rest generalizing queue rest' with
  | nil =>
    cases rest' with
    | nil => rfl
    | cons x l =>
      obtain ⟨tail, rfl⟩ := h'.exists_queue hlevels'
      cases hlevels
  | cons x l ih =>
    obtain ⟨tail, rfl⟩ := h.exists_queue hlevels
    cases rest' with
    | nil => cases hlevels'
    | cons x' l' =>
      -- The first one leaves the queue, and what hangs below it joins at the end.
      rw [List.cons_append, List.flatMap_cons, ← List.append_assoc, List.cons.injEq]
        at hlevels hlevels'
      obtain ⟨rfl, hlevels'⟩ := hlevels'
      rw [ih h.tail h'.tail hlevels.2 hlevels']

/-- Only one member contributes. -/
theorem flatMap_ite_eq {β : Type} [DecidableEq α] {f : α → List β} (hnodup : rest.Nodup)
    (hx : x ∈ rest) : (rest.flatMap fun y => if y = x then f y else []) = f x := by
  obtain ⟨before, after, rfl⟩ := List.append_of_mem hx
  have hothers : ∀ l : List α, x ∉ l → (l.flatMap fun y => if y = x then f y else []) = [] := by
    intro l hl
    rw [List.flatMap_eq_nil_iff]
    exact fun y hy => if_neg fun hyx : y = x => hl (hyx ▸ hy)
  have hbefore : x ∉ before := fun hmem =>
    List.disjoint_of_nodup_append hnodup hmem List.mem_cons_self
  have hafter : x ∉ after := (List.nodup_cons.1 (List.nodup_append.1 hnodup).2.1).1
  rw [List.flatMap_append, List.flatMap_cons, if_pos rfl, hothers before hbefore,
    hothers after hafter, List.nil_append, List.append_nil]

end

namespace Trace

variable {trace rs rs' : Trace} {p r : Report}

theorem FitsTree.perm (h : FitsTree trace) (hperm : rs.Perm trace) : FitsTree rs :=
  ⟨h.wellFormed.perm (hperm.map _), (hperm.filter _).length_eq.trans h.root⟩

theorem BreadthFirst.topDown (h : BreadthFirst trace rs) (hnodup : rs.Nodup) :
    TopDown (childrenOf trace) rs := by
  intro before x after hsplit y hy hbelow
  have hmem := h.parent_first before x after y hsplit (mem_childrenOf.1 hbelow).2
  rw [hsplit] at hnodup
  exact List.disjoint_of_nodup_append hnodup hmem hy

/-- A family has one breadth-first order. -/
theorem FitsTree.breadthFirst_unique (h : FitsTree trace) (hrs : BreadthFirst trace rs)
    (hrs' : BreadthFirst trace rs') : rs = rs' := by
  have hnodup : trace.Nodup := h.nodup_ids.of_map
  obtain ⟨root, hroot, hlevels⟩ := hrs.levels
  obtain ⟨root', hroot', hlevels'⟩ := hrs'.levels
  obtain ⟨_, -, -, -, sole⟩ := h.exists_root
  have hmem : root ∈ trace := hrs.perm.subset (hlevels ▸ List.mem_cons_self)
  have hmem' : root' ∈ trace := hrs'.perm.subset (hlevels' ▸ List.mem_cons_self)
  obtain rfl : root = root' := (sole root hmem hroot).trans (sole root' hmem' hroot').symm
  have hlevels : rs = [root] ++ rs.flatMap (childrenOf trace) := hlevels
  exact (hrs.topDown (hrs.perm.nodup_iff.2 hnodup)).eq_of_levels
    (hrs'.topDown (hrs'.perm.nodup_iff.2 hnodup)) hlevels hlevels'

/-- A span is found by its id. -/
theorem FitsTree.find?_id_iff (h : FitsTree trace) {id : UInt64} :
    trace.find? (·.id == id) = some r ↔ r ∈ trace ∧ r.id = id :=
  find?_eq_some_iff_of_nodup (fun _ => beq_iff_eq) h.nodup_ids

/-- The span above a span does not hang on the order of the trace. -/
theorem FitsTree.parentOf?_perm (h : FitsTree trace) (hperm : rs.Perm trace) :
    parentOf? rs = parentOf? trace := by
  have hfind : ∀ id : UInt64, rs.find? (·.id == id) = trace.find? (·.id == id) := by
    intro id
    apply Option.ext
    intro r
    rw [(h.perm hperm).find?_id_iff, h.find?_id_iff, hperm.mem_iff]
  have hroot : root? rs = root? trace := by
    obtain ⟨root, hroot, -, -, sole⟩ := h.exists_root
    obtain ⟨root', hroot', hmem, hnone, -⟩ := (h.perm hperm).exists_root
    rw [hroot, hroot', sole root' (hperm.subset hmem) hnone]
  funext r
  rw [parentOf?, parentOf?, hroot]
  simp only [hfind]

/-- The spans below a span, in a family that is told in breadth-first order. -/
theorem FitsTree.childrenOf_breadthFirst (h : FitsTree trace) (hrs : BreadthFirst trace rs)
    (hp : p ∈ rs) : childrenOf rs p = childrenOf trace p := by
  obtain ⟨root, hroot, hlevels⟩ := hrs.levels
  have hown : ∀ q, (childrenOf trace q).filter (fun r => parentOf? trace r = some p)
      = if q = p then childrenOf trace q else [] := by
    intro q
    split
    · next hq =>
      rw [← hq, childrenOf, List.filter_filter]
      simp
    · next hq =>
      rw [List.filter_eq_nil_iff]
      intro r hr
      rw [(mem_childrenOf.1 hr).2]
      simpa using hq
  have hnodup : rs.Nodup := hrs.perm.nodup_iff.2 h.nodup_ids.of_map
  rw [childrenOf, h.parentOf?_perm hrs.perm]
  conv_lhs => rw [hlevels]
  rw [List.filter_cons_of_neg (by simp [parentOf?_eq_none hroot]), List.filter_flatMap]
  simp only [hown]
  exact flatMap_ite_eq hnodup hp

/-- A family that is told in breadth-first order is in breadth-first order itself. -/
theorem FitsTree.breadthFirst_self (h : FitsTree trace) (hrs : BreadthFirst trace rs) :
    BreadthFirst rs rs := by
  obtain ⟨root, hroot, hlevels⟩ := hrs.levels
  refine ⟨.refl rs, ⟨root, hroot, ?_⟩, ?_⟩
  · rw [List.flatMap_congr fun p hp => h.childrenOf_breadthFirst hrs hp]
    exact hlevels
  · rw [h.parentOf?_perm hrs.perm]
    exact hrs.parent_first

/-! Spans that keep their ids and their parents' ids. -/

section

variable {g : Report → Report} (hid : ∀ r, (g r).id = r.id)
  (hparent : ∀ r, (g r).parentId = r.parentId)

include hid hparent

theorem FitsTree.map (h : FitsTree trace) : FitsTree (trace.map g) := by
  have hdeclared : Assembly.declared ((trace.map g).map Report.entry)
      = Assembly.declared (trace.map Report.entry) := by
    funext id
    simp [Assembly.declared, List.find?_map, Option.bind_map, Function.comp_def, Report.entry, hid,
      hparent]
  refine ⟨⟨?_, ?_⟩, ?_⟩
  · simpa [Function.comp_def, Report.entry, hid] using h.wellFormed.distinct
  · rw [hdeclared]
    exact h.wellFormed.circleFree
  · simpa [List.filter_map, Function.comp_def, hparent] using h.root

theorem parentOf?_map (r : Report) : parentOf? (trace.map g) (g r) = (parentOf? trace r).map g := by
  have hfind : ∀ q : UInt64,
      (trace.map g).find? (·.id == q) = (trace.find? (·.id == q)).map g := by
    intro q
    rw [List.find?_map]
    simp only [Function.comp_def, hid]
  have hroot : root? (trace.map g) = (root? trace).map g := by
    rw [root?, List.find?_map, root?]
    simp only [Function.comp_def, hparent]
  rw [parentOf?, parentOf?, hparent, hroot]
  simp only [hfind, Option.map_bind, Function.comp_def, Option.map_or]

theorem FitsTree.childrenOf_map (h : FitsTree trace) (hp : p ∈ trace) :
    childrenOf (trace.map g) (g p) = (childrenOf trace p).map g := by
  rw [childrenOf, List.filter_map, childrenOf]
  congr 1
  apply List.filter_congr
  intro r hr
  simp only [Function.comp_def, parentOf?_map hid hparent, decide_eq_decide,
    Option.map_eq_some_iff]
  constructor
  · rintro ⟨q, hq, hgq⟩
    have hqp : q.id = p.id := by rw [← hid q, hgq, hid p]
    rw [hq, h.eq_of_id_eq (h.mem_of_parentOf? hq) hp hqp]
  · exact fun hr => ⟨p, hr, rfl⟩

theorem FitsTree.breadthFirst_map (h : FitsTree trace) (hself : BreadthFirst trace trace) :
    BreadthFirst (trace.map g) (trace.map g) := by
  obtain ⟨root, hroot, hlevels⟩ := hself.levels
  refine ⟨.refl _, ⟨g root, by rw [hparent, hroot], ?_⟩, ?_⟩
  · conv_lhs => rw [hlevels]
    rw [List.map_cons, List.map_flatMap, List.flatMap_map,
      List.flatMap_congr fun p hp => h.childrenOf_map hid hparent hp]
  · intro before s after q hsplit hq
    obtain ⟨before, rest, hrest, rfl, hmap⟩ := List.map_eq_append_iff.1 hsplit
    obtain ⟨r, after, rfl, rfl, rfl⟩ := List.map_eq_cons_iff.1 hmap
    rw [parentOf?_map hid hparent] at hq
    obtain ⟨p, hp, rfl⟩ := Option.map_eq_some_iff.1 hq
    exact List.mem_map_of_mem (hself.parent_first before r after p hrest hp)

end

end Trace

end TraceArchive
