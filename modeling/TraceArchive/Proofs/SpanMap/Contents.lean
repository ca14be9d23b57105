import Mathlib.Data.List.Nodup
import TraceArchive.Proofs.Predicate.Meaning
import TraceArchive.Proofs.Sorted.Map
import TraceArchive.SpanMap

set_option autoImplicit false

/-!
A span map is its look-ups. A search finds the stored reports that satisfy its predicate, each
once, although a hint keeps it from most of the parts.
-/

namespace TraceArchive

namespace SpanMap

variable {m : SpanMap}

/-- Every report is stored under its own key. -/
def Keyed (m : SpanMap) : Prop := ∀ k r, m.get? k = some r → r.key = k

theorem part_put (m : SpanMap) (k : Key) (r : Report) (low : UInt64) :
    (m.put k r).part low
      = if low = k.traceId.low then (m.part k.traceId.low).insert k r else m.part low := by
  rw [part, put, SortedMap.get?_insert]
  split <;> rfl

@[simp] theorem get?_put (m : SpanMap) (k j : Key) (r : Report) :
    (m.put k r).get? j = if j = k then some r else m.get? j := by
  rw [get?, part_put]
  by_cases hlow : j.traceId.low = k.traceId.low
  · rw [if_pos hlow, SortedMap.get?_insert, ← hlow]
    rfl
  · have : j ≠ k := fun e => hlow (by rw [e])
    rw [if_neg hlow, if_neg this]
    rfl

@[simp] theorem get?_empty (k : Key) : empty.get? k = none := rfl

/-- Every report is stored under a key with the low half of its trace id. -/
def Aligned (m : SpanMap) : Prop := ∀ k r, m.get? k = some r → r.traceId.low = k.traceId.low

theorem Keyed.aligned (hm : m.Keyed) : m.Aligned := by
  intro k r h
  rw [← hm k r h]
  rfl

theorem keyed_empty : empty.Keyed := fun k r h => by simp at h

theorem Keyed.put (hm : m.Keyed) {k : Key} {r : Report} (hr : r.key = k) : (m.put k r).Keyed := by
  intro j s hs
  rw [get?_put] at hs
  split at hs
  · next hj => rw [← Option.some.inj hs, hr, hj]
  · exact hm j s hs

/-- The low halves under which a search looks, each once. -/
def searchedLows (m : SpanMap) (p : Predicate) : List UInt64 :=
  match p.hint? with
  | some lows => (SortedSet.ofList lows).toList
  | none => m.traces.keys

theorem searched_eq (m : SpanMap) (p : Predicate) :
    m.searched p = (m.searchedLows p).filterMap m.traces.get? := by
  unfold searched searchedLows
  cases p.hint? with
  | some lows => rfl
  | none => exact SortedMap.values_eq_filterMap_keys m.traces

theorem nodup_searchedLows (m : SpanMap) (p : Predicate) : (m.searchedLows p).Nodup := by
  unfold searchedLows
  split
  · exact (SortedSet.ascending _).nodup
  · exact m.traces.nodup_keys

theorem get?_of_part {low : UInt64} {part : SortedMap Key Report} {k : Key} {r : Report}
    (hpart : m.traces.get? low = some part) (hk : part.get? k = some r) :
    k.traceId.low = low ∧ m.get? k = some r := by
  have heq : m.part low = part := by rw [SpanMap.part, hpart, Option.getD_some]
  have hlow : k.traceId.low = low :=
    low_of_mem_part (m := m) (by rw [heq]; exact SortedMap.mem_keys_iff.2 ⟨r, hk⟩)
  exact ⟨hlow, by rw [get?, hlow, heq, hk]⟩

theorem exists_part_of_get? {k : Key} {r : Report} (h : m.get? k = some r) :
    ∃ part, m.traces.get? k.traceId.low = some part ∧ (k, r) ∈ part.entries := by
  rw [get?, part] at h
  cases hpart : m.traces.get? k.traceId.low with
  | none => simp [hpart] at h
  | some part =>
    rw [hpart, Option.getD_some] at h
    exact ⟨part, rfl, SortedMap.get?_eq_some_iff.1 h⟩

theorem low_mem_searchedLows {p : Predicate} {r : Report} {part : SortedMap Key Report}
    (hpart : m.traces.get? r.traceId.low = some part) (hp : p.test r = true) :
    r.traceId.low ∈ m.searchedLows p := by
  unfold searchedLows
  split
  · next lows hlows => exact SortedSet.mem_ofList.2 (Predicate.low_mem_of_hint? p lows hlows hp)
  · exact SortedMap.mem_keys_iff.2 ⟨part, hpart⟩

/-- The entries that a search finds. -/
def found (m : SpanMap) (p : Predicate) : List (Key × Report) :=
  (m.searched p).flatMap fun part => part.entries.filter fun e => p.test e.2

theorem values_eq_map_found (m : SpanMap) (p : Predicate) :
    m.values p = (m.found p).map Prod.snd := by
  rw [values, found, List.map_flatMap]
  apply List.flatMap_congr
  intro part _
  rw [SortedMap.values, List.filter_map]
  rfl

/-- A search finds what is stored and satisfies the predicate. -/
theorem mem_found_iff (hm : m.Aligned) {p : Predicate} {k : Key} {r : Report} :
    (k, r) ∈ m.found p ↔ m.get? k = some r ∧ p.test r = true := by
  rw [found, searched_eq, List.mem_flatMap]
  simp only [List.mem_filterMap, List.mem_filter]
  constructor
  · rintro ⟨part, ⟨low, -, hpart⟩, hr, hp⟩
    exact ⟨(get?_of_part hpart (SortedMap.get?_eq_some_iff.2 hr)).2, hp⟩
  · rintro ⟨hr, hp⟩
    obtain ⟨part, hpart, hmem⟩ := exists_part_of_get? hr
    rw [← hm k r hr] at hpart
    exact ⟨part, ⟨_, low_mem_searchedLows hpart hp, hpart⟩, hmem, hp⟩

/-- A search finds nothing twice: the parts that it visits have no key in common. -/
theorem nodup_found (m : SpanMap) (p : Predicate) : ((m.found p).map Prod.fst).Nodup := by
  rw [found, searched_eq, List.map_flatMap, List.nodup_flatMap]
  constructor
  · intro part _
    exact part.nodup_keys.sublist (List.filter_sublist.map Prod.fst)
  · rw [List.pairwise_filterMap]
    refine (m.nodup_searchedLows p).imp ?_
    intro low low' hne part hpart part' hpart' k hk hk'
    have low_eq : ∀ {low : UInt64} {part : SortedMap Key Report}, m.traces.get? low = some part →
        k ∈ (part.entries.filter fun e => p.test e.2).map Prod.fst → k.traceId.low = low := by
      intro low part hpart hk
      obtain ⟨e, he, rfl⟩ := List.mem_map.1 hk
      exact (get?_of_part hpart (SortedMap.get?_eq_some_iff.2 (List.mem_filter.1 he).1)).1
    exact hne ((low_eq hpart hk).symm.trans (low_eq hpart' hk'))

theorem mem_values_iff (hm : m.Keyed) {p : Predicate} {r : Report} :
    r ∈ m.values p ↔ m.get? r.key = some r ∧ p.test r = true := by
  rw [values_eq_map_found, List.mem_map]
  constructor
  · rintro ⟨⟨k, r⟩, he, rfl⟩
    obtain ⟨hr, hp⟩ := (mem_found_iff hm.aligned).1 he
    exact ⟨by rw [hm k r hr, hr], hp⟩
  · intro h
    exact ⟨(r.key, r), (mem_found_iff hm.aligned).2 h, rfl⟩

theorem nodup_map_key_values (hm : m.Keyed) (p : Predicate) :
    ((m.values p).map Report.key).Nodup := by
  have hkey : ∀ e ∈ m.found p, (Report.key ∘ Prod.snd) e = e.1 := by
    intro e he
    exact hm e.1 e.2 ((mem_found_iff hm.aligned).1 he).1
  rw [values_eq_map_found, List.map_map, List.map_congr_left hkey]
  exact m.nodup_found p

theorem nodup_values (hm : m.Keyed) (p : Predicate) : (m.values p).Nodup :=
  List.Nodup.of_map Report.key (nodup_map_key_values hm p)

end SpanMap

end TraceArchive
