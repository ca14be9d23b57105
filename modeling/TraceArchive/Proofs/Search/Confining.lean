import Mathlib.Data.List.Induction
import TraceArchive.Proofs.Predicate.Meaning
import TraceArchive.Search

set_option autoImplicit false

/-!
Where a search has to look. A predicate with a hint holds for no report outside the traces of the
hint, and the disjunction that loads the candidates of a search names their traces and no others.
-/

namespace TraceArchive

namespace Predicate

/-- A predicate holds only for reports of some traces, which are told by the low halves of their
ids. -/
def ConfinedTo (p : Predicate) (lows : List UInt64) : Prop :=
  ∀ r : Report, p.test r = true → r.traceId.low ∈ lows

theorem allHints?_cons (p : Predicate) (ps : List Predicate) :
    allHints? (p :: ps) = p.hint?.bind fun lows => (allHints? ps).map (lows ++ ·) := by
  rw [allHints?]
  cases p.hint? <;> cases allHints? ps <;> rfl

theorem allHints?_singleton (p : Predicate) : allHints? [p] = p.hint? := by
  rw [allHints?_cons]
  cases h : p.hint? <;> simp [allHints?]

theorem allHints?_append (ps qs : List Predicate) :
    allHints? (ps ++ qs) = (allHints? ps).bind fun lows => (allHints? qs).map (lows ++ ·) := by
  induction ps with
  | nil => simp [allHints?]
  | cons p ps ih =>
    rw [List.cons_append, allHints?_cons, ih, allHints?_cons]
    cases p.hint? <;> cases allHints? ps <;> cases allHints? qs <;> simp

/-- The hint of a disjunction does not depend on which of its sides it took in. -/
theorem hint?_or (p q : Predicate) :
    (p.or q).hint? = p.hint?.bind fun lows => q.hint?.map (lows ++ ·) := by
  unfold or
  split
  · simp only [hint?, allHints?_append]
  · simp only [hint?, allHints?_append, allHints?_singleton]
  · rw [hint?, allHints?_cons, allHints?_singleton]

end Predicate

namespace TraceId

theorem hint?_predicate (strict : Bool) (id : TraceId) :
    (id.predicate strict).hint? = some [id.low] := by
  cases strict <;> rfl

theorem any_or_predicate (strict : Bool) (id : TraceId) (ps : List Predicate) :
    (Predicate.any ps).or (id.predicate strict) = .any (ps ++ [id.predicate strict]) := by
  cases strict <;> rfl

end TraceId

namespace Trace

/-- The predicates of some traces, joined one after the other. -/
def joined (strict : Bool) (ids : List TraceId) : Predicate :=
  ids.foldl (fun p id => p.or (id.predicate strict)) (.any [])

theorem joined_concat (strict : Bool) (ids : List TraceId) (id : TraceId) :
    joined strict (ids ++ [id]) = (joined strict ids).or (id.predicate strict) :=
  List.foldl_append

theorem joined_eq_any (strict : Bool) (ids : List TraceId) :
    joined strict ids = .any (ids.map (TraceId.predicate strict)) := by
  induction ids using List.reverseRecOn with
  | nil => rfl
  | append_singleton ids id ih =>
    rw [joined_concat, ih, TraceId.any_or_predicate, List.map_append, List.map_singleton]

theorem hint?_joined (strict : Bool) (ids : List TraceId) :
    (joined strict ids).hint? = some (ids.map (·.low)) := by
  induction ids using List.reverseRecOn with
  | nil => rfl
  | append_singleton ids id ih =>
    rw [joined_concat, Predicate.hint?_or, ih, TraceId.hint?_predicate, List.map_append]
    rfl

end Trace

/-- A hint names all traces that a predicate can hold for. The candidates of a search are loaded by
the disjunction of their predicates, and its hint names their traces, whatever the order in which
they are joined. -/
theorem Predicate.hint?_confines :
    (∀ (p : Predicate) (lows : List UInt64), p.hint? = some lows → p.ConfinedTo lows)
      ∧ (∀ (strict : Bool) (ids : List TraceId),
        (Trace.joined strict ids).hint? = some (ids.map (·.low)))
      ∧ ∀ (strict : Bool) (candidates : SortedSet TraceId),
        Trace.anyOf strict candidates = Trace.joined strict candidates.toList := by
  refine ⟨fun p lows hhint r ht => low_mem_of_hint? p lows hhint ht, Trace.hint?_joined, ?_⟩
  intro strict candidates
  exact (Trace.joined_eq_any strict candidates.toList).symm

namespace Predicate

/-- Named reports of two traces, the one told by both halves of its id. -/
def ofTwoTraces : Predicate :=
  .all [.always, .all [.equal .name (.text "get"),
    .any [.any [], .all [.equal .traceIdHigh (.number 1), .equal .traceId (.number 2)],
      .equal .traceId (.number 3)]]]

/-- A report of the second one. -/
def inSecondTrace : Report where
  traceId := ⟨9, 3⟩
  id := 4
  name := some "get"

theorem hint?_confines_ofTwoTraces :
    ofTwoTraces.hint? = some [2, 3] ∧ ofTwoTraces.test inSecondTrace = true
      ∧ inSecondTrace.traceId.low ∈ [(2 : UInt64), 3] := by
  have hhint : ofTwoTraces.hint? = some [2, 3] := by decide
  have htest : ofTwoTraces.test inSecondTrace = true := by decide
  exact ⟨hhint, htest, hint?_confines.1 ofTwoTraces [2, 3] hhint inSecondTrace htest⟩

end Predicate

end TraceArchive
