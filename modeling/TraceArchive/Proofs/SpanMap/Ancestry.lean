import TraceArchive.Proofs.Chain.Returning
import TraceArchive.Proofs.SpanMap.Contents

set_option autoImplicit false

/-!
The stored ancestors of a span. Parents are followed by their ids until one is not stored or was
met before. What is stored may hold circles, so the walk is bounded by what it has not met yet; it
meets exactly the reports that can be reached without coming back to its start.
-/

namespace TraceArchive.SpanMap

variable {m : SpanMap} {traceId : TraceId} {met : List UInt64} {next : Option UInt64}
  {id : UInt64} {r a : Report}

/-- The stored report of an id or of one above it. An id that stops the walk is not passed. -/
inductive Above (m : SpanMap) (traceId : TraceId) (stops : List UInt64) :
    Option UInt64 → Report → Prop
  | here {id : UInt64} {r : Report} : id ∉ stops → m.get? ⟨traceId, id⟩ = some r →
      Above m traceId stops (some id) r
  | further {id : UInt64} {r s : Report} : id ∉ stops → m.get? ⟨traceId, id⟩ = some r →
      Above m traceId stops r.parentId s → Above m traceId stops (some id) s

/-- A stored report that is met by following parents from another one, without a return to it. -/
def Ancestor (m : SpanMap) (r a : Report) : Prop := m.Above r.traceId [r.id] r.parentId a

/-- The stored reports on the way up, the nearest one first. -/
def climb (m : SpanMap) (traceId : TraceId) : (limit : Nat) → (met : List UInt64) →
    (next : Option UInt64) → List Report
  | 0, _, _ => []
  | _, _, none => []
  | limit + 1, met, some id =>
    if id ∈ met then []
    else match m.get? ⟨traceId, id⟩ with
      | none => []
      | some r => r :: m.climb traceId limit (id :: met) r.parentId

def ancestors (m : SpanMap) (r : Report) : List Report :=
  m.climb r.traceId (m.size + 1) [r.id] r.parentId

theorem Above.of_cons (h : m.Above traceId (id :: met) next r) : m.Above traceId met next r := by
  induction h with
  | here hstop hget => exact .here (fun hmem => hstop (List.mem_cons_of_mem _ hmem)) hget
  | further hstop hget _ ih =>
    exact .further (fun hmem => hstop (List.mem_cons_of_mem _ hmem)) hget ih

/-- A way up either avoids an id, or goes on from the last time that it comes by this id. -/
theorem Above.avoid (h : m.Above traceId met next r) (ha : m.get? ⟨traceId, id⟩ = some a) :
    m.Above traceId (id :: met) next r ∨ r = a ∨ m.Above traceId (id :: met) a.parentId r := by
  induction h with
  | @here id' r hstop hget =>
    by_cases hid : id' = id
    · subst hid
      exact .inr (.inl (Option.some.inj (hget.symm.trans ha)))
    · exact .inl (.here (List.not_mem_cons_of_ne_of_not_mem hid hstop) hget)
  | @further id' r s hstop hget _ ih =>
    rcases ih with h | h
    · by_cases hid : id' = id
      · subst hid
        obtain rfl := Option.some.inj (hget.symm.trans ha)
        exact .inr (.inr h)
      · exact .inl (.further (List.not_mem_cons_of_ne_of_not_mem hid hstop) hget h)
    · exact .inr h

theorem above_of_mem_climb {limit : Nat} (h : r ∈ m.climb traceId limit met next) :
    m.Above traceId met next r := by
  induction limit generalizing met next with
  | zero => simp [climb] at h
  | succ limit ih =>
    cases next with
    | none => simp [climb] at h
    | some id =>
      rw [climb] at h
      split at h
      · cases h
      · next hmet =>
        split at h
        · cases h
        · next a ha =>
          rcases List.mem_cons.1 h with rfl | h
          · exact .here hmet ha
          · exact .further hmet ha (ih h).of_cons

/-- The number of stored reports whose ids were not met yet. -/
def unmet (m : SpanMap) (met : List UInt64) : Nat :=
  ((m.traces.values.flatMap (·.entries)).filter fun e => e.1.id ∉ met).length

theorem unmet_le_size (m : SpanMap) (met : List UInt64) : m.unmet met ≤ m.size :=
  List.length_filter_le ..

theorem mem_entries_of_get? {k : Key} (h : m.get? k = some r) :
    (k, r) ∈ m.traces.values.flatMap (·.entries) := by
  obtain ⟨part, hpart, hmem⟩ := exists_part_of_get? h
  exact List.mem_flatMap.2 ⟨part, SortedMap.mem_values_iff.2 ⟨_, hpart⟩, hmem⟩

theorem unmet_cons_lt (hget : m.get? ⟨traceId, id⟩ = some r) (hid : id ∉ met) :
    m.unmet (id :: met) < m.unmet met :=
  length_filter_not_mem_cons_lt (fun e : Key × Report => e.1.id) (mem_entries_of_get? hget) hid

/-- A walk whose limit exceeds what it can meet meets all that is above its start. -/
theorem mem_climb_iff {limit : Nat} (hlimit : m.unmet met < limit) :
    r ∈ m.climb traceId limit met next ↔ m.Above traceId met next r := by
  refine ⟨above_of_mem_climb, fun h => ?_⟩
  induction limit generalizing met next with
  | zero => omega
  | succ limit ih =>
    cases h with
    | @here id r hmet hget => simp [climb, hmet, hget]
    | @further id a r hmet hget h =>
      have hless := unmet_cons_lt hget hmet
      have hrest : r = a ∨ r ∈ m.climb traceId limit (id :: met) a.parentId := by
        rcases h.avoid hget with h | h | h
        · exact .inr (ih (by omega) h)
        · exact .inl h
        · exact .inr (ih (by omega) h)
      simpa [climb, hmet, hget] using hrest

theorem mem_ancestors_iff : a ∈ m.ancestors r ↔ m.Ancestor r a :=
  mem_climb_iff (Nat.lt_succ_of_le (m.unmet_le_size _))

end TraceArchive.SpanMap
