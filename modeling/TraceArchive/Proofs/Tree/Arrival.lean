import TraceArchive.Proofs.Tree.SingleRoot

set_option autoImplicit false

/-!
Spans whose declared parents fit together. Where no id is taken twice and following declared parents
never comes back, every span is accepted in whatever order the spans come, because the search for a
circle only ever follows links that were declared. The tree then has the declared parents.
-/

namespace TraceArchive

/-- What is met with fewer links is met with more of them. -/
theorem mem_follow_of_imp {β : Type} {next next' : β → Option β}
    (h : ∀ a b, next a = some b → next' a = some b) {n : Nat} {start : Option β} {b : β}
    (hb : b ∈ follow next n start) : b ∈ follow next' n start := by
  induction n generalizing start with
  | zero => simp [follow] at hb
  | succ n ih =>
    cases start with
    | none => simp at hb
    | some a =>
      rw [follow_succ_some] at hb ⊢
      rcases List.mem_cons.1 hb with rfl | hb
      · exact List.mem_cons_self
      · apply List.mem_cons_of_mem
        cases ha : next a with
        | none => simp [ha] at hb
        | some c =>
          rw [ha] at hb
          rw [h a c ha]
          exact ih hb

namespace Assembly

variable {α : Type} {a : Assembly α} {es es' : List (Entry α)} {e f : Entry α}

/-- The parent that some spans declare for an id. -/
def declared (es : List (Entry α)) (id : UInt64) : Option UInt64 :=
  (es.find? (·.id == id)).bind (·.parentId)

structure WellFormed (es : List (Entry α)) : Prop where
  distinct : (es.map (·.id)).Nodup
  circleFree : ∀ id limit, id ∉ follow (declared es) limit (declared es id)

theorem declared_entries (a : Assembly α) : declared a.entries = a.parentIdOf? := rfl

theorem declared_eq_some_iff (h : (es.map (·.id)).Nodup) {id p : UInt64} :
    declared es id = some p ↔ ∃ e ∈ es, e.id = id ∧ e.parentId = some p := by
  constructor
  · intro hp
    obtain ⟨e, he, hp⟩ := Option.bind_eq_some_iff.1 hp
    exact ⟨e, List.mem_of_find?_eq_some he, by simpa using List.find?_some he, hp⟩
  · rintro ⟨e, he, rfl, hp⟩
    rw [declared, find?_id_eq_some h he]
    exact hp

/-- Some of the spans, in any order, fit together if all of them do. -/
theorem WellFormed.of_subset (h : WellFormed es) (distinct : (es'.map (·.id)).Nodup)
    (hsub : es' ⊆ es) : WellFormed es' := by
  refine ⟨distinct, fun id limit hid => ?_⟩
  have links : ∀ x y, declared es' x = some y → declared es x = some y := by
    intro x y hxy
    obtain ⟨e, he, hx, hy⟩ := (declared_eq_some_iff distinct).1 hxy
    exact (declared_eq_some_iff h.distinct).2 ⟨e, hsub he, hx, hy⟩
  cases hp : declared es' id with
  | none => simp [hp] at hid
  | some p =>
    apply h.circleFree id limit
    rw [links id p hp, ← hp]
    exact mem_follow_of_imp links hid

theorem WellFormed.perm (h : WellFormed es) (hperm : es'.Perm es) : WellFormed es' :=
  h.of_subset ((hperm.map _).nodup_iff.2 h.distinct) hperm.subset

theorem WellFormed.of_append_left {before after : List (Entry α)}
    (h : WellFormed (before ++ after)) : WellFormed before := by
  apply h.of_subset _ (List.subset_append_left before after)
  exact h.distinct.sublist ((List.sublist_append_left before after).map _)

/-- The next span is accepted if it fits together with those before it. -/
theorem WellFormed.add (h : WellFormed (a.entries ++ [e])) :
    a.add e = .ok { a with entries := a.entries ++ [e] } := by
  have distinct := h.distinct
  rw [List.map_append, List.map_singleton] at distinct
  have hnew : e.id ∉ a.entries.map (·.id) := fun hid =>
    (List.nodup_append.1 distinct).2.2 _ hid _ (List.mem_singleton.2 rfl) rfl
  refine add_eq_ok_iff.2 ⟨fun hid => ?_, find?_eq_none_iff.2 hnew, rfl⟩
  have links : ∀ x y, a.parentIdOf? x = some y → declared (a.entries ++ [e]) x = some y := by
    intro x y hxy
    rw [← declared_entries, declared_eq_some_iff (List.nodup_append.1 distinct).1] at hxy
    obtain ⟨f, hf, hx, hy⟩ := hxy
    exact (declared_eq_some_iff h.distinct).2 ⟨f, List.mem_append_left _ hf, hx, hy⟩
  have own : declared (a.entries ++ [e]) e.id = e.parentId := by
    cases hp : e.parentId with
    | some p => exact (declared_eq_some_iff h.distinct).2 ⟨e, by simp, rfl, hp⟩
    | none =>
      rw [Option.eq_none_iff_forall_ne_some]
      intro p hfound
      obtain ⟨f, hf, hid', hp'⟩ := (declared_eq_some_iff h.distinct).1 hfound
      rw [List.inj_on_of_nodup_map h.distinct hf (by simp) hid', hp] at hp'
      cases hp'
  rw [chainFrom, chain_eq] at hid
  apply h.circleFree e.id (a.entries.length + 1)
  rw [own]
  exact mem_follow_of_imp links hid

theorem WellFormed.addAll (h : WellFormed (a.entries ++ es)) :
    a.addAll es = ⟨{ a with entries := a.entries ++ es }, []⟩ := by
  induction es generalizing a with
  | nil => simp [Assembly.addAll]
  | cons e es ih =>
    rw [← List.singleton_append, ← List.append_assoc] at h
    rw [Assembly.addAll, h.of_append_left.add]
    simp [ih (a := { a with entries := a.entries ++ [e] }) h]

/-- Spans that fit together are those of a consistent assembly. -/
theorem WellFormed.consistent (h : WellFormed a.entries) : a.Consistent := by
  have hadded := (consistent_empty a.trace).addAll a.entries
  rwa [WellFormed.addAll (a := { trace := a.trace }) h] at hadded

/-- Spans that were all accepted fit together. -/
theorem Consistent.wellFormed (h : a.Consistent) : WellFormed a.entries :=
  ⟨h.distinct, fun id limit => h.acyclic.not_mem_follow limit id⟩

/-! The nodes of spans that fit together. -/

theorem nodeOf?_eq_none {id : UInt64} (h : ∀ e ∈ a.entries, e.id ≠ id) : a.nodeOf? id = none := by
  cases hi : a.nodeOf? id with
  | none => rfl
  | some i =>
    cases i with
    | zero =>
      unfold nodeOf? at hi
      split at hi
      · next hroot =>
        obtain ⟨root, hr, hid⟩ := (Option.any_eq_true _ _).1 hroot
        exact absurd (by simpa using hid) (h root (mem_of_root? hr))
      · simp at hi
    | succ k =>
      obtain ⟨e, he, hid⟩ := exists_of_nodeOf?_succ hi
      exact absurd hid (h e (others_sublist.subset (List.mem_of_getElem? he)))

theorem Consistent.parent?_node (h : a.Consistent) (he : e ∈ a.entries) (hne : a.root? ≠ some e)
    {i : Nat} (hi : a.nodeOf? e.id = some i) : a.tree.parent? i = some (a.parentNode e) := by
  cases i with
  | zero => exact absurd (h.nodeOf?_zero he hi) hne
  | succ k => rw [parent?_tree_succ, h.getElem?_others he hi, Option.map_some]

theorem Consistent.eq_of_nodeOf?_eq (h : a.Consistent) (he : e ∈ a.entries) (hf : f ∈ a.entries)
    {i : Nat} (hei : a.nodeOf? e.id = some i) (hfi : a.nodeOf? f.id = some i) : e = f := by
  cases i with
  | zero =>
    have := (h.nodeOf?_zero he hei).symm.trans (h.nodeOf?_zero hf hfi)
    exact Option.some.inj this
  | succ k =>
    have := (h.getElem?_others he hei).symm.trans (h.getElem?_others hf hfi)
    exact Option.some.inj this

theorem Consistent.size_eq (h : a.Consistent) :
    a.tree.size = a.entries.length + if a.tree.isPartial then 1 else 0 := by
  have := h.entries_perm.length_eq
  rw [List.length_append] at this
  rw [size_tree, this, Tree.isPartial]
  change _ = _ + if (a.root?.map (·.value)).isNone = true then 1 else 0
  cases a.root? <;> simp [Nat.add_comm]

/-! What the tree of spans that fit together looks like. -/

/-- A tree with the declared parents. Every span has a node, and a root without a span is there only
if all spans declare a parent. -/
structure Arranged (t : Tree α) (es : List (Entry α)) (node : UInt64 → Nat) : Prop where
  value : ∀ e ∈ es, t.value? (node e.id) = some e.value
  apart : ∀ e ∈ es, ∀ f ∈ es, node e.id = node f.id → e = f
  size : t.size = es.length + if t.isPartial then 1 else 0
  isPartial_iff : t.isPartial = true ↔ ∀ e ∈ es, e.parentId ≠ none
  parent : ∀ e ∈ es, ∀ f ∈ es, e.parentId = some f.id →
    t.parent? (node e.id) = some (node f.id)
  /-- The first span without a parent is the root. -/
  root : ∀ e, es.find? (·.parentId.isNone) = some e →
    node e.id = 0 ∧ t.parent? (node e.id) = none
  /-- Other spans whose parents are not there are below the root. -/
  below_root : ∀ e ∈ es, (∀ f ∈ es, e.parentId ≠ some f.id) →
    es.find? (·.parentId.isNone) ≠ some e → t.parent? (node e.id) = some 0
  siblings : ∀ e f p, [e, f].Sublist es → t.parent? (node e.id) = some p →
    t.parent? (node f.id) = some p → [node e.id, node f.id].Sublist (t.childrenOf p)

theorem Consistent.arranged_tree (h : a.Consistent) :
    Arranged a.tree a.entries fun id => (a.nodeOf? id).getD 0 := by
  have known : ∀ e ∈ a.entries, a.nodeOf? e.id = some ((a.nodeOf? e.id).getD 0) := by
    intro e he
    obtain ⟨i, hi, -⟩ := h.exists_nodeOf? he
    rw [hi, Option.getD_some]
  constructor
  · intro e he
    obtain ⟨i, hi, hvalue⟩ := h.exists_nodeOf? he
    rw [hi, Option.getD_some, hvalue]
  · intro e he f hf hnode
    exact h.eq_of_nodeOf?_eq he hf (known e he) (hnode ▸ known f hf)
  · exact h.size_eq
  · exact isPartial_tree_iff
  · intro e he f hf hparent
    have hne : a.root? ≠ some e := by
      intro hroot
      have := List.find?_some hroot
      simp [hparent] at this
    rw [h.parent?_node he hne (known e he), parentNode, parentNode?, hparent, Option.bind_some]
  · intro e hroot
    have hnode : a.nodeOf? e.id = some 0 := nodeOf?_root hroot
    rw [hnode]
    exact ⟨rfl, rfl⟩
  · intro e he hunknown hne
    have hparent : a.parentNode? e = none := by
      rw [parentNode?]
      cases hp : e.parentId with
      | none => rfl
      | some p =>
        apply nodeOf?_eq_none
        intro f hf hid
        exact hunknown f hf (hp.trans (congrArg some hid.symm))
    rw [h.parent?_node he hne (known e he), parentNode, hparent, Option.getD_none]
  · intro e f p hef hep hfp
    exact h.siblings_sublist_childrenOf hef (known e (hef.subset (by simp)))
      (known f (hef.subset (by simp))) hep hfp

/-- Spans of one tree: one of them is its root, and the parents of the others are among them. -/
structure OneTree (es : List (Entry α)) : Prop where
  root : (es.filter (·.parentId.isNone)).length = 1
  parents : ∀ e ∈ es, ∀ p, e.parentId = some p → ∃ f ∈ es, f.id = p

theorem OneTree.perm (h : OneTree es) (hperm : es'.Perm es) : OneTree es' where
  root := (hperm.filter _).length_eq.trans h.root
  parents e he p hp := by
    obtain ⟨f, hf, hid⟩ := h.parents e (hperm.mem_iff.1 he) p hp
    exact ⟨f, hperm.mem_iff.2 hf, hid⟩

theorem OneTree.exists_root? (h : OneTree a.entries) : ∃ root, a.root? = some root := by
  obtain ⟨root, hroot⟩ := List.length_eq_one_iff.1 h.root
  have hmem : root ∈ a.entries.filter (·.parentId.isNone) := by simp [hroot]
  rw [List.mem_filter] at hmem
  rw [← Option.isSome_iff_exists, root?, List.find?_isSome]
  exact ⟨root, hmem.1, hmem.2⟩

theorem OneTree.not_isPartial (h : OneTree a.entries) : a.tree.isPartial = false := by
  obtain ⟨root, hroot⟩ := h.exists_root?
  rw [Bool.eq_false_iff, Ne, isPartial_tree_iff, ← root?_eq_none_iff, hroot]
  simp

/-- Nothing is missing in one tree. -/
theorem OneTree.buildDiagnostics_eq_nil (h : OneTree a.entries) (ha : a.Consistent) :
    a.buildDiagnostics = [] := by
  obtain ⟨root, hroot⟩ := h.exists_root?
  rw [buildDiagnostics, hroot]
  apply List.filterMap_eq_nil_iff.2
  intro e he
  have hmem : e ∈ a.entries := others_sublist.subset he
  cases hp : e.parentId with
  | some p =>
    obtain ⟨f, hf, rfl⟩ := h.parents e hmem p hp
    obtain ⟨i, hi, -⟩ := ha.exists_nodeOf? hf
    simp [parentNode?, hp, hi]
  | none =>
    obtain ⟨only, honly⟩ := List.length_eq_one_iff.1 h.root
    have sole : ∀ x ∈ a.entries, x.parentId = none → x = only := by
      intro x hx hnone
      have : x ∈ a.entries.filter (·.parentId.isNone) := by simp [hx, hnone]
      simpa [honly] using this
    have hrootNone : root.parentId = none := by simpa using List.find?_some hroot
    have heq : e = root :=
      (sole e hmem hp).trans (sole root (mem_of_root? hroot) hrootNone).symm
    exact absurd (congrArg (·.id) heq) (id_ne_of_mem_others he hroot)

/-- In whatever order spans come that fit together, each of them is accepted and the tree has the
declared parents. Spans of one tree leave nothing to report. -/
theorem ofList_arranged (trace : String) (h : WellFormed es) (hperm : es'.Perm es) :
    (∀ before e after, es' = before ++ e :: after →
        ∃ b, (Assembly.addAll { trace } before).value.add e = .ok b)
      ∧ (∃ node, Arranged (Assembly.ofList trace es').value es' node)
      ∧ (OneTree es → (Assembly.ofList trace es').diagnostics = []
          ∧ (Assembly.ofList trace es').value.size = es.length) := by
  have hes' := h.perm hperm
  have hadded : ∀ fs : List (Entry α), WellFormed fs →
      Assembly.addAll { trace } fs = ⟨{ trace, entries := fs }, []⟩ :=
    fun fs hfs => WellFormed.addAll (a := { trace }) hfs
  have hconsistent : ({ trace, entries := es' } : Assembly α).Consistent := by
    have := (consistent_empty trace).addAll es'
    rwa [hadded es' hes'] at this
  refine ⟨?_, ?_, fun hone => ?_⟩
  · rintro before e after rfl
    rw [← List.singleton_append, ← List.append_assoc] at hes'
    have hbefore := hes'.of_append_left
    rw [hadded before hbefore.of_append_left]
    exact ⟨_, WellFormed.add (a := { trace, entries := before }) hbefore⟩
  · rw [ofList, hadded es' hes']
    exact ⟨_, hconsistent.arranged_tree⟩
  · have hone' : OneTree es' := hone.perm hperm
    rw [ofList, hadded es' hes']
    refine ⟨?_, ?_⟩
    · exact OneTree.buildDiagnostics_eq_nil hone' hconsistent
    · have hsize := hconsistent.size_eq
      rw [OneTree.not_isPartial hone'] at hsize
      exact hsize.trans hperm.length_eq

/-- A call, a call that was made for it, and one that was made for that. -/
def generations : List (Entry String) := [⟨none, 1, "web"⟩, ⟨some 1, 2, "app"⟩, ⟨some 2, 3, "db"⟩]

/-- The last generation comes first. -/
theorem ofList_arranged_generations :
    WellFormed generations ∧ OneTree generations ∧ generations.reverse.Perm generations
      ∧ (∃ b, (Assembly.addAll { trace := "1" } [⟨some 2, 3, "db"⟩]).value.add ⟨some 1, 2, "app"⟩
          = .ok b)
      ∧ (∃ node, Arranged (Assembly.ofList "1" generations.reverse).value generations.reverse node)
      ∧ (Assembly.ofList "1" generations.reverse).diagnostics = []
      ∧ (Assembly.ofList "1" generations.reverse).value.size = 3 := by
  have hfit : WellFormed generations :=
    ((consistent_empty "1").addAll generations).wellFormed
  have hone : OneTree generations := ⟨rfl, by simp [generations]⟩
  have hperm := List.reverse_perm generations
  obtain ⟨haccepted, harranged, hreported⟩ := ofList_arranged "1" hfit hperm
  exact ⟨hfit, hone, hperm, haccepted [⟨some 2, 3, "db"⟩] ⟨some 1, 2, "app"⟩ _ rfl, harranged,
    hreported hone⟩

end Assembly

end TraceArchive
