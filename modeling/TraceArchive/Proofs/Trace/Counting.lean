import Mathlib.Data.List.Nodup
import TraceArchive.Proofs.Sorted.Map
import TraceArchive.Trace.Linker

set_option autoImplicit false

/-!
Counting calls. The graph of services counts each call of each trace once, so traces may come in
any order, and what two parts of them count separately adds up.
-/

namespace TraceArchive

/-- The calls that some traces tell of, an edge for each call. -/
def Trace.calls (traces : List Trace) : List Edge := traces.flatMap fun trace => trace.edges.value

namespace Link

def edge (l : Link) : Edge := ⟨l.parent, l.child⟩

/-- How many calls some links tell for an edge; an edge without a link has none. -/
def callsOn (links : List Link) (e : Edge) : Nat :=
  ((links.find? (·.edge = e)).map (·.callCount.toNat)).getD 0

end Link

namespace CallCounts

/-- Each edge is counted as often as it was called, and no other edge is listed. -/
def Tally (counts : CallCounts) (calls : List Edge) : Prop :=
  ∀ e, counts.get? e = if e ∈ calls then some (calls.count e) else none

variable {counts counts' : CallCounts} {calls calls' : List Edge} {e : Edge}

theorem tally_empty : Tally .empty [] := fun _ => rfl

theorem Tally.count_eq (h : counts.Tally calls) (e : Edge) : counts.count e = calls.count e := by
  rw [count, h e]
  split
  · rfl
  · next hnot => exact (List.count_eq_zero.2 hnot).symm

theorem Tally.add (h : counts.Tally calls) (e : Edge) : (counts.add e).Tally (calls ++ [e]) := by
  intro f
  rw [CallCounts.add, SortedMap.get?_insert, h.count_eq, List.count_append]
  by_cases hf : f = e
  · simp [hf]
  · have hne : ¬ e = f := fun he => hf he.symm
    simp [hf, hne, h f]

theorem Tally.foldl_add (h : counts.Tally calls) (es : List Edge) :
    Tally (es.foldl CallCounts.add counts) (calls ++ es) := by
  induction es generalizing counts calls with
  | nil => simpa using h
  | cons e es ih => simpa using ih (h.add e)

/-- Calls are counted alike in whatever order they come. -/
theorem Tally.eq_of_perm (h : counts.Tally calls) (h' : counts'.Tally calls')
    (hperm : calls.Perm calls') : counts = counts' := by
  apply SortedMap.ext_entries
  intro ⟨e, n⟩
  rw [← SortedMap.get?_eq_some_iff, ← SortedMap.get?_eq_some_iff, h e, h' e, hperm.count_eq]
  simp only [hperm.mem_iff]

/-! What is counted in some traces. -/

theorem calls_append (left right : List Trace) :
    Trace.calls (left ++ right) = Trace.calls left ++ Trace.calls right :=
  List.flatMap_append

theorem calls_perm {traces traces' : List Trace} (h : traces.Perm traces') :
    (Trace.calls traces).Perm (Trace.calls traces') :=
  h.flatMap_right _

def ofTraces (traces : List Trace) : CallCounts := (addTraces .empty traces).value

theorem value_addTraces (counts : CallCounts) (traces : List Trace) :
    (counts.addTraces traces).value = (Trace.calls traces).foldl CallCounts.add counts := by
  have fold : ∀ (traces : List Trace) (start : Diagnosed CallCounts),
      (traces.foldl (fun acc trace =>
        let next := acc.value.addTrace trace
        (⟨next.value, acc.diagnostics ++ next.diagnostics⟩ : Diagnosed CallCounts)) start).value
        = (Trace.calls traces).foldl CallCounts.add start.value := by
    intro traces
    induction traces with
    | nil => exact fun _ => rfl
    | cons trace traces ih =>
      intro start
      rw [List.foldl_cons, ih, ← List.singleton_append, calls_append, List.foldl_append]
      simp [addTrace, Trace.calls]
  exact fold traces ⟨counts, []⟩

theorem tally_ofTraces (traces : List Trace) : (ofTraces traces).Tally (Trace.calls traces) := by
  rw [ofTraces, value_addTraces]
  exact tally_empty.foldl_add _

/-! The links that are listed. -/

theorem map_edge_links (counts : CallCounts) : counts.links.map Link.edge = counts.keys := by
  rw [links, List.map_map]
  rfl

theorem pairwise_links (counts : CallCounts) :
    counts.links.Pairwise fun l m => compare l.edge m.edge = .lt := by
  have hedges : Ascending (counts.links.map Link.edge) := by
    rw [map_edge_links]
    exact counts.ascending
  exact List.pairwise_map.1 hedges

theorem callsOn_links (counts : CallCounts) (e : Edge) :
    Link.callsOn counts.links e = (UInt64.ofNat (counts.count e)).toNat := by
  have hfind : counts.links.find? (·.edge = e)
      = (counts.entries.find? fun x => x.1 = e).map fun x =>
          { parent := x.1.parent, child := x.1.child, callCount := UInt64.ofNat x.2 } :=
    List.find?_map
  rw [Link.callsOn, hfind, count, SortedMap.get?]
  cases counts.entries.find? fun x => x.1 = e <;> rfl

theorem Tally.callsOn_links (h : counts.Tally calls) (hfits : calls.count e < UInt64.size) :
    Link.callsOn counts.links e = calls.count e := by
  rw [CallCounts.callsOn_links, h.count_eq, UInt64.toNat_ofNat_of_lt' hfits]

theorem Tally.count_edge_links (h : counts.Tally calls) (e : Edge) :
    (counts.links.map Link.edge).count e = if 0 < calls.count e then 1 else 0 := by
  rw [map_edge_links]
  split
  · next hpos =>
    apply List.count_eq_one_of_mem counts.nodup_keys
    rw [SortedMap.mem_keys_iff]
    exact ⟨_, by rw [h e, if_pos (List.count_pos_iff.1 hpos)]⟩
  · next hzero =>
    rw [List.count_eq_zero, ← SortedMap.get?_eq_none_iff, h e,
      if_neg (mt List.count_pos_iff.2 hzero)]

/-- The links of some traces are the same in whatever order the traces come. As long as a number can
tell it, they tell how often each edge was called, and the calls that two parts of the traces tell
of separately add up. Each edge that was called is listed once, in ascending order. -/
theorem links_ofTraces (traces : List Trace) :
    (∀ traces', traces'.Perm traces → (ofTraces traces').links = (ofTraces traces).links)
      ∧ (∀ e, (Trace.calls traces).count e < UInt64.size →
          Link.callsOn (ofTraces traces).links e = (Trace.calls traces).count e
            ∧ ∀ left right, (left ++ right).Perm traces →
              Link.callsOn (ofTraces traces).links e
                = Link.callsOn (ofTraces left).links e + Link.callsOn (ofTraces right).links e)
      ∧ (∀ e, ((ofTraces traces).links.map Link.edge).count e
          = if 0 < (Trace.calls traces).count e then 1 else 0)
      ∧ (ofTraces traces).links.Pairwise fun l m => compare l.edge m.edge = .lt := by
  have htally := tally_ofTraces traces
  refine ⟨?_, ?_, htally.count_edge_links, pairwise_links _⟩
  · intro traces' hperm
    rw [(tally_ofTraces traces').eq_of_perm htally (calls_perm hperm)]
  · intro e hfits
    have htold := htally.callsOn_links hfits
    refine ⟨htold, fun left right hperm => ?_⟩
    have hsum : (Trace.calls traces).count e
        = (Trace.calls left).count e + (Trace.calls right).count e := by
      rw [← (calls_perm hperm).count_eq, calls_append, List.count_append]
    rw [htold, hsum, (tally_ofTraces left).callsOn_links (by omega),
      (tally_ofTraces right).callsOn_links (by omega)]

/-- A client calls a server, which tells its side of the call too. -/
def sharedCall : Report where
  traceId := ⟨0, 1⟩
  id := 2
  timestamp := some 100
  events := [
    { timestamp := 100, value := "cs", endpoint := some { service := "web" } },
    { timestamp := 110, value := "sr", endpoint := some { service := "db" } }]

/-- A client calls a server of which only the address is known. -/
def addressedCall : Report where
  traceId := ⟨0, 2⟩
  id := 3
  timestamp := some 200
  events := [{ timestamp := 200, value := "cs", endpoint := some { service := "web" } }]
  tags := [Tag.address Tag.serverAddress { service := "db" }]

theorem links_ofTraces_twoCalls :
    (ofTraces [[sharedCall], [addressedCall]]).links = [⟨"web", "db", 2⟩]
      ∧ (ofTraces [[addressedCall], [sharedCall]]).links
          = (ofTraces [[sharedCall], [addressedCall]]).links
      ∧ (Trace.calls [[sharedCall], [addressedCall]]).count ⟨"web", "db"⟩ < UInt64.size
      ∧ Link.callsOn (ofTraces [[sharedCall], [addressedCall]]).links ⟨"web", "db"⟩
          = Link.callsOn (ofTraces [[sharedCall]]).links ⟨"web", "db"⟩
            + Link.callsOn (ofTraces [[addressedCall]]).links ⟨"web", "db"⟩ := by
  obtain ⟨hperm, hsum, -⟩ := links_ofTraces [[sharedCall], [addressedCall]]
  have hfits : (Trace.calls [[sharedCall], [addressedCall]]).count ⟨"web", "db"⟩ < UInt64.size := by
    decide +kernel
  exact ⟨by decide +kernel, hperm _ (.swap _ _ _), hfits,
    (hsum _ hfits).2 [[sharedCall]] [[addressedCall]] (.refl _)⟩

end CallCounts

end TraceArchive
