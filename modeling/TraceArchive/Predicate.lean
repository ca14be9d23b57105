import TraceArchive.Column

set_option autoImplicit false

/-!
Predicates on reports, as data that can be sent to where the reports are. Conjunctions and
disjunctions are kept flat, and a predicate may tell the only trace ids it can hold for.
-/

namespace TraceArchive

namespace Report

def hasEvent (r : Report) (value : String) : Bool := r.events.any (·.value == value)

/-- Flags are not searched, only texts. -/
def hasTagKey (r : Report) (key : String) : Bool :=
  r.tags.any fun t => t.key == key && !t.isFlag

def hasTag (r : Report) (key text : String) : Bool :=
  r.tags.any fun t => t.key == key && t.text? == some text

end Report

inductive Predicate where
  | always
  | equal (column : Column) (cell : Cell)
  /-- A number within inclusive bounds. -/
  | between (column : Column) (min max : Option UInt64)
  | anyEvent (value : String)
  | anyTagKey (key : String)
  | anyTag (key text : String)
  | all (ps : List Predicate)
  | any (ps : List Predicate)
  deriving Inhabited

def atLeast (min : Option UInt64) (n : UInt64) : Bool := min.all (· ≤ n)

def atMost (max : Option UInt64) (n : UInt64) : Bool := max.all (n ≤ ·)

namespace Predicate

mutual

def test : Predicate → Report → Bool
  | .always, _ => true
  | .equal column cell, r => r.cell? column == some cell
  | .between column min max, r =>
    ((r.cell? column).bind (·.number?)).any fun n => atLeast min n && atMost max n
  | .anyEvent value, r => r.hasEvent value
  | .anyTagKey key, r => r.hasTagKey key
  | .anyTag key text, r => r.hasTag key text
  | .all ps, r => testAll ps r
  | .any ps, r => testAny ps r

def testAll : List Predicate → Report → Bool
  | [], _ => true
  | p :: ps, r => p.test r && testAll ps r

def testAny : List Predicate → Report → Bool
  | [], _ => false
  | p :: ps, r => p.test r || testAny ps r

end

theorem testAll_eq (ps : List Predicate) (r : Report) : testAll ps r = ps.all (·.test r) := by
  induction ps with
  | nil => rfl
  | cons p ps ih => simp [testAll, ih]

theorem testAny_eq (ps : List Predicate) (r : Report) : testAny ps r = ps.any (·.test r) := by
  induction ps with
  | nil => rfl
  | cons p ps ih => simp [testAny, ih]

def and : Predicate → Predicate → Predicate
  | .always, q => q
  | p, .always => p
  | .all ps, .all qs => .all (ps ++ qs)
  | .all ps, q => .all (ps ++ [q])
  | p, .all qs => .all (p :: qs)
  | p, q => .all [p, q]

/-- Only a disjunction on the left takes in what comes from the right. -/
def or : Predicate → Predicate → Predicate
  | .any ps, .any qs => .any (ps ++ qs)
  | .any ps, q => .any (ps ++ [q])
  | p, q => .any [p, q]

mutual

/-- The low halves of the only trace ids that the predicate can hold for, if they are known. -/
def hint? : Predicate → Option (List UInt64)
  | .equal .traceId (.number id) => some [id]
  | .all ps => firstHint? ps
  | .any ps => allHints? ps
  | _ => none

def firstHint? : List Predicate → Option (List UInt64)
  | [] => none
  | p :: ps => p.hint?.or (firstHint? ps)

def allHints? : List Predicate → Option (List UInt64)
  | [] => some []
  | p :: ps =>
    match p.hint?, allHints? ps with
    | some ids, some more => some (ids ++ more)
    | _, _ => none

end

end Predicate

end TraceArchive
