import TraceArchive.Proofs.Sorted.Map
import TraceArchive.Proofs.Tree.Traversal
import TraceArchive.Tree.Assembly

set_option autoImplicit false

/-!
The invariant of an assembly: no id is taken twice, and recorded parents never lead back to where
they started. Accepting a span keeps it, since the bounded search for a circle misses none.
-/

namespace TraceArchive.Assembly

variable {α : Type} {a b : Assembly α} {e f : Entry α}

/-- The recorded parent of an id. -/
def parentIdOf? (a : Assembly α) (id : UInt64) : Option UInt64 := (a.find? id).bind (·.parentId)

structure Consistent (a : Assembly α) : Prop where
  distinct : (a.entries.map (·.id)).Nodup
  acyclic : Acyclic a.parentIdOf?

theorem chain_eq (a : Assembly α) (n : Nat) (start : Option UInt64) :
    a.chain n start = follow a.parentIdOf? n start := by
  induction n generalizing start with
  | zero => rfl
  | succ n ih =>
    cases start with
    | none => rfl
    | some id => simp only [chain, follow_succ_some, ih]; rfl

theorem add_eq_ok_iff : a.add e = .ok b ↔
    e.id ∉ a.chainFrom e.parentId ∧ a.find? e.id = none
      ∧ b = { a with entries := a.entries ++ [e] } := by
  unfold add
  by_cases hc : e.id ∈ a.chainFrom e.parentId
  · simp [hc]
  · cases hf : a.find? e.id with
    | some f => simp [hc]
    | none => simp [hc, eq_comm]

theorem mem_of_find? {id : UInt64} (h : a.find? id = some e) : e ∈ a.entries ∧ e.id = id :=
  ⟨List.mem_of_find?_eq_some h, by simpa using List.find?_some h⟩

theorem find?_eq_none_iff {id : UInt64} : a.find? id = none ↔ id ∉ a.entries.map (·.id) := by
  simp [find?]

theorem find?_id_eq_some {es : List (Entry α)} (distinct : (es.map (·.id)).Nodup) (he : e ∈ es) :
    es.find? (·.id == e.id) = some e :=
  (find?_eq_some_iff_of_nodup (fun _ => beq_iff_eq) distinct).2 ⟨he, rfl⟩

theorem Consistent.find?_of_mem (h : a.Consistent) (he : e ∈ a.entries) :
    a.find? e.id = some e := find?_id_eq_some h.distinct he

theorem Consistent.eq_of_id_eq (h : a.Consistent) (he : e ∈ a.entries) (hf : f ∈ a.entries)
    (hid : e.id = f.id) : e = f :=
  List.inj_on_of_nodup_map h.distinct he hf hid

theorem mem_ids_of_isSome_parentIdOf? {id : UInt64} (h : (a.parentIdOf? id).isSome) :
    id ∈ a.entries.map (·.id) := by
  rw [parentIdOf?] at h
  cases hf : a.find? id with
  | none => simp [hf] at h
  | some e =>
    obtain ⟨hm, hid⟩ := mem_of_find? hf
    exact List.mem_map.2 ⟨e, hm, hid⟩

/-- The limit of a chain is high enough: an id that is met at all is met within it. -/
theorem Consistent.mem_chainFrom (h : a.Consistent) {n : Nat} {start : Option UInt64} {id : UInt64}
    (hid : id ∈ follow a.parentIdOf? n start) : id ∈ a.chainFrom start := by
  have := h.acyclic.mem_follow_support (fun _ => mem_ids_of_isSome_parentIdOf?) hid
  rwa [List.length_map, ← chain_eq] at this

theorem consistent_empty (trace : String) : ({ trace } : Assembly α).Consistent where
  distinct := List.nodup_nil
  acyclic := ⟨fun _ => .intro _ fun _ h => by simp [parentIdOf?, find?] at h⟩

theorem parentIdOf?_append (hn : a.find? e.id = none) (id : UInt64) :
    ({ a with entries := a.entries ++ [e] } : Assembly α).parentIdOf? id
      = if id = e.id then e.parentId else a.parentIdOf? id := by
  by_cases h : id = e.id
  · subst h
    rw [find?] at hn
    simp [parentIdOf?, find?, List.find?_append, hn]
  · have : ¬ e.id = id := fun e => h e.symm
    simp [parentIdOf?, find?, List.find?_append, h, this]

/-- A span that is accepted neither takes an id twice nor closes a circle. -/
theorem Consistent.add (h : a.Consistent) (hb : a.add e = .ok b) : b.Consistent := by
  obtain ⟨hchain, hfind, rfl⟩ := add_eq_ok_iff.1 hb
  constructor
  · rw [List.map_append, List.nodup_append]
    refine ⟨h.distinct, by simp, fun id hid id' hid' => ?_⟩
    simp only [List.map_cons, List.map_nil, List.mem_singleton] at hid'
    rintro rfl
    exact find?_eq_none_iff.1 hfind (hid' ▸ hid)
  · have := h.acyclic.update fun n => mt h.mem_chainFrom hchain
    rwa [← funext (parentIdOf?_append hfind)] at this

/-- The spans of a run that are accepted. -/
def accepted (a : Assembly α) : List (Entry α) → List (Entry α)
  | [] => []
  | e :: es =>
    match a.add e with
    | .ok b => e :: b.accepted es
    | .error _ => a.accepted es

theorem entries_addAll (a : Assembly α) (es : List (Entry α)) :
    (a.addAll es).value.entries = a.entries ++ a.accepted es := by
  induction es generalizing a with
  | nil => simp [addAll, accepted]
  | cons e es ih =>
    simp only [addAll, accepted]
    cases hb : a.add e with
    | error d => exact ih a
    | ok b =>
      obtain ⟨-, -, rfl⟩ := add_eq_ok_iff.1 hb
      simp [ih]

theorem accepted_sublist (a : Assembly α) (es : List (Entry α)) : (a.accepted es).Sublist es := by
  induction es generalizing a with
  | nil => exact .slnil
  | cons e es ih =>
    rw [accepted]
    cases a.add e with
    | ok b => exact (ih b).cons_cons e
    | error d => exact (ih a).cons e

theorem Consistent.addAll (h : a.Consistent) (es : List (Entry α)) :
    (a.addAll es).value.Consistent := by
  induction es generalizing a with
  | nil => exact h
  | cons e es ih =>
    simp only [Assembly.addAll]
    cases hb : a.add e with
    | error d => exact ih h
    | ok b => exact ih (h.add hb)

/-! The name of the trace is only told in diagnostics. -/

theorem add_withTrace (h : a.add e = .ok b) (trace : String) :
    ({ a with trace } : Assembly α).add e = .ok { b with trace } := by
  obtain ⟨hchain, hfind, rfl⟩ := add_eq_ok_iff.1 h
  refine add_eq_ok_iff.2 ⟨?_, hfind, rfl⟩
  rw [chainFrom, chain_eq] at hchain ⊢
  exact hchain

theorem accepted_withTrace (a : Assembly α) (trace : String) (es : List (Entry α)) :
    ({ a with trace } : Assembly α).accepted es = a.accepted es := by
  induction es generalizing a with
  | nil => rfl
  | cons e es ih =>
    simp only [accepted]
    cases h : a.add e with
    | ok b =>
      rw [add_withTrace h trace]
      exact congrArg (e :: ·) (ih b)
    | error d =>
      cases h' : ({ a with trace } : Assembly α).add e with
      | ok b =>
        rw [add_withTrace h' a.trace] at h
        cases h
      | error d' => exact ih a

end TraceArchive.Assembly
