import TraceArchive.Report

set_option autoImplicit false

/-!
Reports as rows of a table: the columns that can be searched and selected, and what stands in
them.
-/

namespace TraceArchive

inductive Column where
  | traceIdHigh
  | traceId
  | id
  | parentId
  | name
  | timestamp
  | duration
  deriving DecidableEq

inductive Cell where
  | number (value : UInt64)
  | text (value : String)
  deriving DecidableEq

namespace Cell

def number? : Cell → Option UInt64
  | .number n => some n
  | .text _ => none

def text? : Cell → Option String
  | .number _ => none
  | .text s => some s

/-- Numbers come before texts. -/
instance : Ord Cell := ⟨compareLex (compareOn text?) (compareOn number?)⟩

instance : Std.TransOrd Cell :=
  inferInstanceAs (Std.TransCmp (compareLex (compareOn text?) (compareOn number?)))

instance : Std.LawfulEqOrd Cell where
  eq_of_compare {a b} h := by
    obtain ⟨h₁, h₂⟩ := compareLex_eq_eq.1 h
    have : a.text? = b.text? := Std.LawfulEqCmp.eq_of_compare h₁
    have : a.number? = b.number? := Std.LawfulEqCmp.eq_of_compare h₂
    cases a <;> cases b <;> simp_all [text?, number?]

end Cell

/-- What a report has in a column; nothing where the value is absent. -/
def Report.cell? (r : Report) : Column → Option Cell
  | .traceIdHigh => some (.number r.traceId.high)
  | .traceId => some (.number r.traceId.low)
  | .id => some (.number r.id)
  | .parentId => r.parentId.map .number
  | .name => r.name.map .text
  | .timestamp => r.timestamp.map .number
  | .duration => r.duration.map .number

abbrev Row := List (Option Cell)

def Report.row (r : Report) (columns : List Column) : Row := columns.map r.cell?

end TraceArchive
