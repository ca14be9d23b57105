import TraceArchive.Diagnostic

set_option autoImplicit false

/-!
Where notices go: they are kept, passed on, or dropped.
-/

namespace TraceArchive

inductive Sink where
  | capturing
  | forwarding
  | discarding
  deriving DecidableEq

/-- The notices that were kept and those that were passed on, in the order they came. -/
structure Delivered where
  captured : List Notice := []
  forwarded : List Notice := []
  deriving DecidableEq

namespace Sink

def deliver (sink : Sink) (notice : Notice) (d : Delivered) : Delivered :=
  match sink with
  | .capturing => { d with captured := d.captured ++ [notice] }
  | .forwarding => { d with forwarded := d.forwarded ++ [notice] }
  | .discarding => d

end Sink

namespace Delivered

/-- Forgets what was kept. -/
def clear (d : Delivered) : Delivered := { d with captured := [] }

def messages (d : Delivered) : List String := d.captured.map (·.message)

end Delivered

end TraceArchive
