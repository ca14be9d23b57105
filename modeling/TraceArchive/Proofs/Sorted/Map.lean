import Mathlib.Data.List.Nodup
import TraceArchive.Sorted.Map

set_option autoImplicit false

/-!
A sorted map is its look-ups: its entries are the pairs of a key and the value found under it, so
two maps with the same entries are equal, and of the entries of a list the last one of a key counts.
-/

namespace TraceArchive

theorem Ascending.nodup {α : Type} [Ord α] [Std.TransOrd α] {l : List α} (h : Ascending l) :
    l.Nodup :=
  List.Pairwise.imp (fun {a b} hab e => by simp [e, Std.ReflCmp.compare_self] at hab) h

/-- Where no key is taken twice, a member is found by its key. -/
theorem find?_eq_some_iff_of_nodup {α κ : Type} {key : α → κ} {k : κ} {p : α → Bool}
    (hp : ∀ a, p a = true ↔ key a = k) {l : List α} (distinct : (l.map key).Nodup) {a : α} :
    l.find? p = some a ↔ a ∈ l ∧ key a = k := by
  refine ⟨fun h => ⟨List.mem_of_find?_eq_some h, (hp a).1 (List.find?_some h)⟩, ?_⟩
  rintro ⟨ha, hk⟩
  cases hfind : l.find? p with
  | none => exact absurd ((hp a).2 hk) (List.find?_eq_none.1 hfind a ha)
  | some b =>
    have hb : key b = k := (hp b).1 (List.find?_some hfind)
    rw [List.inj_on_of_nodup_map distinct (List.mem_of_find?_eq_some hfind) ha (hb.trans hk.symm)]

namespace SortedMap

variable {κ α : Type} [Ord κ] [Std.TransOrd κ] {m n : SortedMap κ α} {k : κ} {v : α}

theorem nodup_keys (m : SortedMap κ α) : m.keys.Nodup := m.ascending.nodup

theorem nodup_entries (m : SortedMap κ α) : m.entries.Nodup :=
  List.Pairwise.of_map Prod.fst (fun _ _ h e => h (e ▸ rfl)) m.nodup_keys

omit [Std.TransOrd κ] in
theorem isEmpty_iff : m.isEmpty = true ↔ m = empty := by
  obtain ⟨entries, ascending⟩ := m
  simp [isEmpty, empty]

theorem get?_eq_some_iff [DecidableEq κ] : m.get? k = some v ↔ (k, v) ∈ m.entries := by
  have hfind : ∀ e, m.entries.find? (fun e => e.1 = k) = some e ↔ e ∈ m.entries ∧ e.1 = k :=
    fun _ => find?_eq_some_iff_of_nodup (fun _ => decide_eq_true_iff) m.nodup_keys
  simp [get?, hfind]

omit [Std.TransOrd κ] in
theorem get?_eq_none_iff [DecidableEq κ] : m.get? k = none ↔ k ∉ m.keys := by
  simp only [get?, keys, Option.map_eq_none_iff, List.find?_eq_none, decide_eq_true_eq,
    List.mem_map, not_exists, not_and]

omit [Std.TransOrd κ] in
theorem mem_keys_iff [DecidableEq κ] : k ∈ m.keys ↔ ∃ v, m.get? k = some v := by
  rw [← Option.isSome_iff_exists, Option.isSome_iff_ne_none, Ne, get?_eq_none_iff,
    Classical.not_not]

theorem mem_values_iff [DecidableEq κ] : v ∈ m.values ↔ ∃ k, m.get? k = some v := by
  simp [values, get?_eq_some_iff]

theorem values_eq_filterMap_keys [DecidableEq κ] (m : SortedMap κ α) :
    m.values = m.keys.filterMap m.get? := by
  have : ∀ l : List (κ × α), (∀ e ∈ l, m.get? e.1 = some e.2) →
      l.map Prod.snd = (l.map Prod.fst).filterMap m.get? := by
    intro l
    induction l with
    | nil => exact fun _ => rfl
    | cons e l ih =>
      intro h
      rw [List.map_cons, List.map_cons, List.filterMap_cons, h e (by simp),
        ih fun f hf => h f (List.mem_cons_of_mem _ hf)]
  exact this m.entries fun e he => get?_eq_some_iff.2 he

theorem ext_entries (h : ∀ e, e ∈ m.entries ↔ e ∈ n.entries) : m = n := by
  have perm : m.entries.Perm n.entries :=
    (List.perm_ext_iff_of_nodup m.nodup_entries n.nodup_entries).2 h
  have same : m.entries = n.entries := by
    refine perm.eq_of_pairwise (fun a b _ _ hab hba => ?_)
      (List.pairwise_map.1 m.ascending) (List.pairwise_map.1 n.ascending)
    rw [Std.OrientedCmp.gt_iff_lt.symm.1 hab] at hba
    cases hba
  cases m
  cases n
  simpa using same

variable [Std.LawfulEqOrd κ]

theorem insert_eq_self [DecidableEq κ] (h : m.get? k = some v) : m.insert k v = m := by
  apply ext_entries
  intro ⟨j, w⟩
  rw [← get?_eq_some_iff, ← get?_eq_some_iff, get?_insert]
  by_cases hj : j = k
  · rw [if_pos hj, hj, h]
  · rw [if_neg hj]

/-- After an insertion the key has its new value, and the other entries are as before. -/
theorem entries_insert_perm [DecidableEq κ] (m : SortedMap κ α) (k : κ) (v : α) :
    (m.insert k v).entries.Perm ((k, v) :: m.entries.filter fun e => e.1 ≠ k) := by
  have hnodup : ((k, v) :: m.entries.filter fun e => e.1 ≠ k).Nodup :=
    List.nodup_cons.2 ⟨by simp, m.nodup_entries.filter _⟩
  apply (List.perm_ext_iff_of_nodup (nodup_entries _) hnodup).2
  intro ⟨j, w⟩
  rw [← get?_eq_some_iff, get?_insert, List.mem_cons, List.mem_filter, ← get?_eq_some_iff]
  by_cases hj : j = k
  · simp [hj, eq_comm]
  · simp [hj]

theorem get?_foldl_insert [DecidableEq κ] (l : List (κ × α)) (m : SortedMap κ α) (k : κ) :
    (l.foldl (fun m e => m.insert e.1 e.2) m).get? k
      = ((l.reverse.find? fun e => e.1 = k).map Prod.snd).or (m.get? k) := by
  induction l generalizing m with
  | nil => simp
  | cons e l ih =>
    rw [List.foldl_cons, ih, List.reverse_cons, List.find?_append, get?_insert]
    cases l.reverse.find? fun e => e.1 = k with
    | some f => simp
    | none =>
      by_cases h : k = e.1
      · simp [h]
      · have : ¬ e.1 = k := fun e' => h e'.symm
        simp [h, this]

theorem get?_ofList [DecidableEq κ] (l : List (κ × α)) (k : κ) :
    (ofList l).get? k = (l.reverse.find? fun e => e.1 = k).map Prod.snd := by
  rw [ofList, get?_foldl_insert]
  simp

/-- A list without two values for one key lists the entries of its map, in whatever order and how
often they stand. -/
theorem mem_entries_ofList [DecidableEq κ] {l : List (κ × α)}
    (hl : ∀ e ∈ l, ∀ f ∈ l, e.1 = f.1 → e = f) {e : κ × α} :
    e ∈ (ofList l).entries ↔ e ∈ l := by
  obtain ⟨k, v⟩ := e
  rw [← get?_eq_some_iff, get?_ofList, Option.map_eq_some_iff]
  constructor
  · rintro ⟨f, hf, rfl⟩
    have hk : f.1 = k := by simpa using List.find?_some hf
    rw [← hk]
    exact List.mem_reverse.1 (List.mem_of_find?_eq_some hf)
  · intro he
    cases hf : l.reverse.find? fun f => f.1 = k with
    | none =>
      have := List.find?_eq_none.1 hf (k, v) (List.mem_reverse.2 he)
      simp at this
    | some f =>
      have hk : f.1 = k := by simpa using List.find?_some hf
      have hmem : f ∈ l := List.mem_reverse.1 (List.mem_of_find?_eq_some hf)
      exact ⟨f, rfl, by rw [hl f hmem (k, v) he hk]⟩

/-- A map is what its entries make. -/
theorem ofList_eq_of_mem_iff [DecidableEq κ] {l : List (κ × α)}
    (h : ∀ e, e ∈ l ↔ e ∈ m.entries) : ofList l = m := by
  apply ext_entries
  intro e
  rw [mem_entries_ofList, h]
  intro e he f hf hk
  have he := get?_eq_some_iff.2 ((h e).1 he)
  have hf := get?_eq_some_iff.2 ((h f).1 hf)
  rw [hk, hf] at he
  exact Prod.ext hk (Option.some.inj he).symm

end SortedMap

end TraceArchive
