import TraceArchive.Predicate

set_option autoImplicit false

/-!
What predicates mean. Keeping conjunctions and disjunctions flat does not change which reports
satisfy them, and a report that satisfies a predicate is in one of the traces of its hint.
-/

namespace TraceArchive.Predicate

variable {r : Report}

@[simp] theorem test_always : always.test r = true := rfl

theorem test_equal {column : Column} {cell : Cell} :
    (equal column cell).test r = true ↔ r.cell? column = some cell := by
  simp [test]

theorem test_all {ps : List Predicate} : (all ps).test r = ps.all (·.test r) := testAll_eq ps r

theorem test_any {ps : List Predicate} : (any ps).test r = ps.any (·.test r) := testAny_eq ps r

@[simp] theorem test_and (p q : Predicate) : (p.and q).test r = (p.test r && q.test r) := by
  unfold and
  split <;> simp [test_all]

@[simp] theorem test_or (p q : Predicate) : (p.or q).test r = (p.test r || q.test r) := by
  unfold or
  split <;> simp [test_any]

theorem test_foldl_and {α : Type} (f : α → Predicate) (as : List α) (p : Predicate) :
    (as.foldl (fun p a => p.and (f a)) p).test r = (p.test r && as.all fun a => (f a).test r) := by
  induction as generalizing p with
  | nil => simp
  | cons a as ih => rw [List.foldl_cons, ih, test_and, List.all_cons, Bool.and_assoc]

/-- How a predicate is put together from others. -/
inductive Combination where
  | single (p : Predicate)
  | both (a b : Combination)
  | either (a b : Combination)

namespace Combination

/-- The predicate that is put together. -/
def predicate : Combination → Predicate
  | single p => p
  | both a b => a.predicate.and b.predicate
  | either a b => a.predicate.or b.predicate

/-- What is asked of a report, told without putting predicates together. -/
def holds : Combination → Report → Bool
  | single p, r => p.test r
  | both a b, r => a.holds r && b.holds r
  | either a b, r => a.holds r || b.holds r

theorem test_predicate (c : Combination) (r : Report) : c.predicate.test r = c.holds r := by
  induction c with
  | single p => rfl
  | both a b iha ihb => rw [predicate, test_and, iha, ihb, holds]
  | either a b iha ihb => rw [predicate, test_or, iha, ihb, holds]

end Combination

theorem traceId_of_hint?_equal {column : Column} {cell : Cell} {lows : List UInt64}
    (h : (equal column cell).hint? = some lows) :
    ∃ id, column = .traceId ∧ cell = .number id ∧ lows = [id] := by
  unfold hint? at h
  split at h <;> simp_all

mutual

/-- What satisfies a predicate with a hint is in one of the traces that the hint tells. -/
theorem low_mem_of_hint? : (p : Predicate) → (lows : List UInt64) → p.hint? = some lows →
    p.test r = true → r.traceId.low ∈ lows
  | .equal column cell, lows, h, ht => by
    obtain ⟨id, rfl, rfl, rfl⟩ := traceId_of_hint?_equal h
    have := test_equal.1 ht
    simp only [Report.cell?, Option.some.injEq, Cell.number.injEq] at this
    simp [this]
  | .all ps, lows, h, ht => by
    rw [hint?] at h
    exact low_mem_of_firstHint? ps lows h ht
  | .any ps, lows, h, ht => by
    rw [hint?] at h
    exact low_mem_of_allHints? ps lows h ht
  | .always, _, h, _ | .between .., _, h, _ | .anyEvent _, _, h, _ | .anyTagKey _, _, h, _
  | .anyTag .., _, h, _ => by simp [hint?] at h

/-- A conjunction is as narrow as the first of its parts that has a hint. -/
theorem low_mem_of_firstHint? : (ps : List Predicate) → (lows : List UInt64) →
    firstHint? ps = some lows → testAll ps r = true → r.traceId.low ∈ lows
  | [], _, h, _ => by simp [firstHint?] at h
  | p :: ps, lows, h, ht => by
    rw [testAll, Bool.and_eq_true] at ht
    rw [firstHint?, Option.or_eq_some_iff] at h
    rcases h with h | ⟨-, h⟩
    · exact low_mem_of_hint? p lows h ht.1
    · exact low_mem_of_firstHint? ps lows h ht.2

/-- A disjunction is as wide as all of its parts. -/
theorem low_mem_of_allHints? : (ps : List Predicate) → (lows : List UInt64) →
    allHints? ps = some lows → testAny ps r = true → r.traceId.low ∈ lows
  | [], _, _, ht => by simp [testAny] at ht
  | p :: ps, lows, h, ht => by
    rw [allHints?] at h
    split at h
    · next ids more hp hps =>
      obtain rfl := Option.some.inj h
      rw [testAny, Bool.or_eq_true] at ht
      rw [List.mem_append]
      exact ht.imp (low_mem_of_hint? p ids hp) (low_mem_of_allHints? ps more hps)
    · cases h

end

end TraceArchive.Predicate
