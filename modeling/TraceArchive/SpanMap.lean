import TraceArchive.Predicate
import TraceArchive.Sorted.Map

set_option autoImplicit false

/-!
Stored reports, one under each key. The map is divided by the low halves of the keys' trace ids,
so a search for known trace ids looks only at the parts of these traces.
-/

namespace TraceArchive

structure SpanMap where
  traces : SortedMap UInt64 (SortedMap Key Report)
  placed : ∀ t ∈ traces.entries, t.2.entries ≠ [] ∧ ∀ k ∈ t.2.keys, k.traceId.low = t.1

namespace SpanMap

def empty : SpanMap := ⟨.empty, by simp [SortedMap.empty]⟩

instance : Inhabited SpanMap := ⟨empty⟩

/-- What is stored under the keys with a low half. -/
def part (m : SpanMap) (low : UInt64) : SortedMap Key Report := (m.traces.get? low).getD .empty

theorem low_of_mem_part {m : SpanMap} {low : UInt64} {k : Key} (h : k ∈ (m.part low).keys) :
    k.traceId.low = low := by
  rw [part] at h
  cases hp : m.traces.get? low with
  | none => simp [hp, SortedMap.keys, SortedMap.empty] at h
  | some part => exact (m.placed _ (SortedMap.mem_of_get? hp)).2 k (by simpa [hp] using h)

def get? (m : SpanMap) (k : Key) : Option Report := (m.part k.traceId.low).get? k

/-- Stores a report, in the place of the one that the key had. -/
def put (m : SpanMap) (k : Key) (r : Report) : SpanMap where
  traces := m.traces.insert k.traceId.low ((m.part k.traceId.low).insert k r)
  placed t ht := by
    rcases SortedMap.mem_of_mem_insert ht with rfl | ht
    · refine ⟨SortedMap.insert_entries_ne_nil _ k r, fun j hj => ?_⟩
      rcases SortedMap.mem_keys_insert.1 hj with rfl | hj
      · rfl
      · exact low_of_mem_part hj
    · exact m.placed t ht

def putIfAbsent (m : SpanMap) (k : Key) (r : Report) : SpanMap :=
  if (m.get? k).isSome then m else m.put k r

/-- The parts in which a predicate can hold. -/
def searched (m : SpanMap) (p : Predicate) : List (SortedMap Key Report) :=
  match p.hint? with
  | some lows => (SortedSet.ofList lows).toList.filterMap m.traces.get?
  | none => m.traces.values

def values (m : SpanMap) (p : Predicate) : List Report :=
  (m.searched p).flatMap fun part => part.values.filter p.test

def project (m : SpanMap) (p : Predicate) (columns : List Column) : List Row :=
  (m.values p).map (·.row columns)

def size (m : SpanMap) : Nat := (m.traces.values.flatMap (·.entries)).length

def isEmpty (m : SpanMap) : Bool := m.size == 0

/-- The number of low halves under which something is stored. -/
def traceCount (m : SpanMap) : Nat := m.traces.size

def hasTrace (m : SpanMap) (low : UInt64) : Bool := m.traces.contains low

end SpanMap

end TraceArchive
