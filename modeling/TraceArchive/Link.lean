set_option autoImplicit false

/-!
Edges of the dependency graph: how often one service called another.
-/

namespace TraceArchive

structure Link where
  parent : String
  child : String
  callCount : UInt64
  deriving DecidableEq

namespace Link

instance : Ord Link :=
  ⟨compareLex (compareOn parent) (compareLex (compareOn child) (compareOn callCount))⟩

instance : Std.TransOrd Link :=
  inferInstanceAs (Std.TransCmp (compareLex (compareOn parent)
    (compareLex (compareOn child) (compareOn callCount))))

end Link

end TraceArchive
