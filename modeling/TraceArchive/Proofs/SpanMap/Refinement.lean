import Mathlib.Data.List.Dedup
import Mathlib.Data.List.Forall2
import TraceArchive.Proofs.SpanMap.Contents

set_option autoImplicit false

/-!
The divided span map against one flat map from keys to reports. Whatever calls are made, both give
the same answers, search results in another order apart, as long as every report is stored under a
key with the low half of its trace id. Under any other key a hint would keep a search from the
report.
-/

namespace TraceArchive

namespace SpanMap

inductive Call where
  | get (k : Key)
  | put (k : Key) (r : Report)
  | putIfAbsent (k : Key) (r : Report)
  | values (p : Predicate)
  | project (p : Predicate) (columns : List Column)
  | size
  | clear
  | traceCount
  | hasTrace (low : UInt64)

/-- What is stored is stored with the low half of its trace id. -/
def Call.Aligned : Call → Prop
  | .put k r | .putIfAbsent k r => k.traceId.low = r.traceId.low
  | _ => True

inductive Answer where
  /-- The report of a key before the call. -/
  | report (r : Option Report)
  | reports (rs : List Report)
  | rows (cells : List Row)
  | count (n : Nat)
  | truth (b : Bool)
  | done

/-- The same answer, where searches may find in any order. -/
def Answer.Agrees : Answer → Answer → Prop
  | .reports rs, .reports rs' => rs.Perm rs'
  | .rows cells, .rows cells' => cells.Perm cells'
  | a, b => a = b

def call (m : SpanMap) : Call → Answer × SpanMap
  | .get k => (.report (m.get? k), m)
  | .put k r => (.report (m.get? k), m.put k r)
  | .putIfAbsent k r => (.report (m.get? k), m.putIfAbsent k r)
  | .values p => (.reports (m.values p), m)
  | .project p columns => (.rows (m.project p columns), m)
  | .size => (.count m.size, m)
  | .clear => (.done, .empty)
  | .traceCount => (.count m.traceCount, m)
  | .hasTrace low => (.truth (m.hasTrace low), m)

/-- The answers to calls that are made one after the other. -/
def answers {σ : Type} (call : σ → Call → Answer × σ) : σ → List Call → List Answer
  | _, [] => []
  | s, c :: cs => (call s c).1 :: answers call (call s c).2 cs

end SpanMap

/-- One map of all that is stored. Every search looks at all of it. -/
abbrev FlatMap := SortedMap Key Report

namespace FlatMap

open SpanMap (Call Answer)

def found (f : FlatMap) (p : Predicate) : List Report := f.values.filter p.test

/-- The low halves of the trace ids under which something is stored. -/
def lows (f : FlatMap) : List UInt64 := (f.keys.map (·.traceId.low)).dedup

def call (f : FlatMap) : Call → Answer × FlatMap
  | .get k => (.report (f.get? k), f)
  | .put k r => (.report (f.get? k), f.insert k r)
  | .putIfAbsent k r => (.report (f.get? k), if (f.get? k).isSome then f else f.insert k r)
  | .values p => (.reports (f.found p), f)
  | .project p columns => (.rows ((f.found p).map (·.row columns)), f)
  | .size => (.count f.size, f)
  | .clear => (.done, .empty)
  | .traceCount => (.count f.lows.length, f)
  | .hasTrace low => (.truth (decide (low ∈ f.lows)), f)

end FlatMap

namespace SpanMap

/-- Both maps hold the same, and the divided one holds it where searches look for it. -/
structure Refines (m : SpanMap) (f : FlatMap) : Prop where
  get? : ∀ k, m.get? k = f.get? k
  aligned : m.Aligned

theorem refines_empty : empty.Refines .empty := ⟨fun _ => rfl, fun k r h => by simp at h⟩

theorem Aligned.put {m : SpanMap} (hm : m.Aligned) {k : Key} {r : Report}
    (hr : k.traceId.low = r.traceId.low) : (m.put k r).Aligned := by
  intro j s hs
  rw [get?_put] at hs
  split at hs
  · next hj =>
    obtain rfl := Option.some.inj hs
    rw [hj, hr]
  · exact hm j s hs

theorem size_eq_length_found (m : SpanMap) : m.size = (m.found .always).length := by
  have hsearched : m.searched .always = m.traces.values := rfl
  rw [size, found, hsearched]
  congr 1
  apply List.flatMap_congr
  intro part _
  simp

theorem mem_traces_keys_iff {m : SpanMap} {low : UInt64} :
    low ∈ m.traces.keys ↔ ∃ k r, m.get? k = some r ∧ k.traceId.low = low := by
  rw [SortedMap.mem_keys_iff]
  constructor
  · intro ⟨part, hpart⟩
    obtain ⟨hne, -⟩ := m.placed _ (SortedMap.get?_eq_some_iff.1 hpart)
    obtain ⟨e, he⟩ := List.exists_mem_of_ne_nil _ hne
    obtain ⟨hlow, hget⟩ := get?_of_part hpart (SortedMap.get?_eq_some_iff.2 he)
    exact ⟨e.1, e.2, hget, hlow⟩
  · intro ⟨k, r, hget, hlow⟩
    obtain ⟨part, hpart, -⟩ := exists_part_of_get? hget
    exact ⟨part, hlow ▸ hpart⟩

namespace Refines

variable {m : SpanMap} {f : FlatMap} (h : m.Refines f)

include h

theorem put {k : Key} {r : Report} (hr : k.traceId.low = r.traceId.low) :
    (m.put k r).Refines (f.insert k r) where
  get? j := by rw [get?_put, SortedMap.get?_insert, h.get?]
  aligned := h.aligned.put hr

theorem found_perm (p : Predicate) :
    (m.found p).Perm (f.entries.filter fun e => p.test e.2) := by
  have nodup : (m.found p).Nodup := List.Nodup.of_map Prod.fst (m.nodup_found p)
  apply (List.perm_ext_iff_of_nodup nodup (f.nodup_entries.filter _)).2
  intro ⟨k, r⟩
  rw [mem_found_iff h.aligned, h.get?, List.mem_filter, SortedMap.get?_eq_some_iff]

theorem values_perm (p : Predicate) : (m.values p).Perm (f.found p) := by
  rw [values_eq_map_found, FlatMap.found, SortedMap.values, List.filter_map]
  exact (h.found_perm p).map Prod.snd

theorem size : m.size = f.size := by
  rw [size_eq_length_found, (h.found_perm .always).length_eq]
  simp [SortedMap.size]

theorem lows_perm : m.traces.keys.Perm f.lows := by
  apply (List.perm_ext_iff_of_nodup m.traces.nodup_keys (List.nodup_dedup _)).2
  intro low
  rw [mem_traces_keys_iff, List.mem_dedup, List.mem_map]
  simp only [SortedMap.mem_keys_iff, h.get?, exists_and_right]

theorem traceCount : m.traceCount = f.lows.length := by
  rw [← h.lows_perm.length_eq, SortedMap.keys, List.length_map]
  rfl

theorem hasTrace (low : UInt64) : m.hasTrace low = decide (low ∈ f.lows) := by
  rw [Bool.eq_iff_iff, decide_eq_true_iff, ← h.lows_perm.mem_iff, SortedMap.mem_keys_iff]
  exact Option.isSome_iff_exists

/-- A call gives the same answer from both maps, and leaves maps of the same contents. -/
theorem call {c : Call} (hc : c.Aligned) :
    (m.call c).1.Agrees (f.call c).1 ∧ (m.call c).2.Refines (f.call c).2 := by
  cases c with
  | get k => exact ⟨congrArg Answer.report (h.get? k), h⟩
  | put k r => exact ⟨congrArg Answer.report (h.get? k), h.put hc⟩
  | putIfAbsent k r =>
    refine ⟨congrArg Answer.report (h.get? k), ?_⟩
    simp only [SpanMap.call, FlatMap.call, putIfAbsent, h.get?]
    split
    · exact h
    · exact h.put hc
  | values p => exact ⟨h.values_perm p, h⟩
  | project p columns => exact ⟨(h.values_perm p).map _, h⟩
  | size => exact ⟨congrArg Answer.count h.size, h⟩
  | clear => exact ⟨rfl, refines_empty⟩
  | traceCount => exact ⟨congrArg Answer.count h.traceCount, h⟩
  | hasTrace low => exact ⟨congrArg Answer.truth (h.hasTrace low), h⟩

theorem answers {calls : List Call} (hcalls : ∀ c ∈ calls, c.Aligned) :
    List.Forall₂ Answer.Agrees (answers SpanMap.call m calls) (answers FlatMap.call f calls) := by
  induction calls generalizing m f with
  | nil => exact .nil
  | cons c calls ih =>
    obtain ⟨hanswer, hnext⟩ := h.call (hcalls c (by simp))
    apply List.Forall₂.cons hanswer
    apply ih hnext
    intro d hd
    exact hcalls d (List.mem_cons_of_mem _ hd)

end Refines

end SpanMap

end TraceArchive
