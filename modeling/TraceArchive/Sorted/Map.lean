import TraceArchive.Sorted.Set

set_option autoImplicit false

/-!
Finite maps that list their entries in ascending order of the keys. Two maps that answer every
look-up alike are equal.
-/

namespace TraceArchive

structure SortedMap (κ α : Type) [Ord κ] where
  entries : List (κ × α)
  ascending : Ascending (entries.map Prod.fst)

namespace SortedMap

variable {κ α : Type} [Ord κ]

instance [DecidableEq κ] [DecidableEq α] : DecidableEq (SortedMap κ α) := fun s t =>
  if h : s.entries = t.entries then .isTrue (by cases s; cases t; simp_all)
  else .isFalse fun e => h (e ▸ rfl)

def empty : SortedMap κ α := ⟨[], Ascending.nil⟩

instance : Inhabited (SortedMap κ α) := ⟨empty⟩

def isEmpty (m : SortedMap κ α) : Bool := m.entries.isEmpty

def size (m : SortedMap κ α) : Nat := m.entries.length

def keys (m : SortedMap κ α) : List κ := m.entries.map Prod.fst

def values (m : SortedMap κ α) : List α := m.entries.map Prod.snd

def get? [DecidableEq κ] (m : SortedMap κ α) (k : κ) : Option α :=
  (m.entries.find? fun e => e.1 = k).map Prod.snd

def contains [DecidableEq κ] (m : SortedMap κ α) (k : κ) : Bool := (m.get? k).isSome

/-- The value of a key that is already there is replaced. -/
def insertEntry (k : κ) (v : α) : List (κ × α) → List (κ × α)
  | [] => [(k, v)]
  | e :: l =>
    match compare k e.1 with
    | .lt => (k, v) :: e :: l
    | .eq => (e.1, v) :: l
    | .gt => e :: insertEntry k v l

theorem map_fst_insertEntry (k : κ) (v : α) (l : List (κ × α)) :
    (insertEntry k v l).map Prod.fst = Ascending.insert k (l.map Prod.fst) := by
  induction l with
  | nil => rfl
  | cons e l ih =>
    simp only [insertEntry, List.map_cons, Ascending.insert]
    cases compare k e.1 <;> simp [ih]

theorem mem_of_get? [DecidableEq κ] {m : SortedMap κ α} {k : κ} {v : α} (h : m.get? k = some v) :
    (k, v) ∈ m.entries := by
  obtain ⟨e, he, rfl⟩ := Option.map_eq_some_iff.1 h
  have hk := List.find?_some he
  simp only [decide_eq_true_eq] at hk
  exact hk ▸ List.mem_of_find?_eq_some he

variable [Std.TransOrd κ] [Std.LawfulEqOrd κ]

def insert (m : SortedMap κ α) (k : κ) (v : α) : SortedMap κ α :=
  ⟨insertEntry k v m.entries, by
    rw [map_fst_insertEntry]; exact Ascending.ascending_insert k m.ascending⟩

omit [Std.TransOrd κ] in
theorem mem_of_mem_insertEntry {k : κ} {v : α} {l : List (κ × α)} {e : κ × α}
    (h : e ∈ insertEntry k v l) : e = (k, v) ∨ e ∈ l := by
  induction l with
  | nil => simpa [insertEntry] using h
  | cons f l ih =>
    simp only [insertEntry] at h
    split at h
    · simpa using h
    · next he =>
      have hk : k = f.1 := Std.LawfulEqCmp.eq_of_compare he
      rcases List.mem_cons.1 h with h | h
      · exact .inl (by rw [h, hk])
      · exact .inr (List.mem_cons_of_mem _ h)
    · rcases List.mem_cons.1 h with h | h
      · exact .inr (by simp [h])
      · exact (ih h).imp_right (List.mem_cons_of_mem _)

theorem mem_of_mem_insert {m : SortedMap κ α} {k : κ} {v : α} {e : κ × α}
    (h : e ∈ (m.insert k v).entries) : e = (k, v) ∨ e ∈ m.entries :=
  mem_of_mem_insertEntry h

theorem insert_entries_ne_nil (m : SortedMap κ α) (k : κ) (v : α) :
    (m.insert k v).entries ≠ [] := by
  simp only [insert]
  cases m.entries with
  | nil => simp [insertEntry]
  | cons e l => simp only [insertEntry]; split <;> simp

theorem mem_keys_insert {m : SortedMap κ α} {k j : κ} {v : α} :
    j ∈ (m.insert k v).keys ↔ j = k ∨ j ∈ m.keys := by
  simp only [keys, insert, map_fst_insertEntry]
  exact Ascending.mem_insert

/-- Of two entries with one key the later one wins. -/
def ofList (l : List (κ × α)) : SortedMap κ α :=
  l.foldl (fun m e => m.insert e.1 e.2) empty

/-- Changes the value of a key, where `none` stands for no value before. -/
def modify [DecidableEq κ] (m : SortedMap κ α) (k : κ) (f : Option α → α) : SortedMap κ α :=
  m.insert k (f (m.get? k))

omit [Std.TransOrd κ] in
theorem find?_insertEntry [DecidableEq κ] (k : κ) (v : α) (l : List (κ × α)) (j : κ) :
    ((insertEntry k v l).find? fun e => e.1 = j).map Prod.snd
      = if j = k then some v else (l.find? fun e => e.1 = j).map Prod.snd := by
  induction l with
  | nil =>
    by_cases h : j = k
    · simp [insertEntry, h]
    · have : ¬ k = j := fun e => h e.symm
      simp [insertEntry, h, this]
  | cons e l ih =>
    simp only [insertEntry]
    split
    · by_cases h : j = k
      · simp [h]
      · have : ¬ k = j := fun e => h e.symm
        simp [h, this]
    · next he =>
      have hk : k = e.1 := Std.LawfulEqCmp.eq_of_compare he
      by_cases h : j = k
      · simp [h, hk]
      · have : ¬ e.1 = j := fun e' => h (e'.symm.trans hk.symm)
        simp [h, this]
    · next he =>
      by_cases h : e.1 = j
      · have : ¬ j = k := by
          intro hj
          have : compare k k = .eq := Std.ReflCmp.compare_self
          rw [h, hj, this] at he
          cases he
        simp [h, this]
      · simp [h, ih]

@[simp] theorem get?_insert [DecidableEq κ] (m : SortedMap κ α) (k j : κ) (v : α) :
    (m.insert k v).get? j = if j = k then some v else m.get? j :=
  find?_insertEntry k v m.entries j

omit [Std.TransOrd κ] [Std.LawfulEqOrd κ] in
@[simp] theorem get?_empty [DecidableEq κ] (k : κ) : (empty : SortedMap κ α).get? k = none := rfl

end SortedMap

end TraceArchive
