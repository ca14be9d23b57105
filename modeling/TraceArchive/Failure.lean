set_option autoImplicit false

/-!
What can go wrong in the archive, malformed traces apart: the storage fails, or a caller asks for
something that makes no sense.
-/

namespace TraceArchive

/-- Each kind of failure carries the words of the part that failed. -/
inductive Failure where
  /-- The storage could not be reached. -/
  | unavailable (detail : String)
  /-- The storage was reached, but did not do what it was asked for. -/
  | storage (detail : String)
  | argument (detail : String)
  | id (detail : String)
  | serialization (detail : String)
  | internal (detail : String)
  deriving DecidableEq

namespace Failure

def message : Failure → String
  | .unavailable detail => "storage unavailable: " ++ detail
  | .storage detail => "storage error: " ++ detail
  | .argument detail => "invalid argument: " ++ detail
  | .id detail => "invalid id: " ++ detail
  | .serialization detail => "serialization error: " ++ detail
  | .internal detail => "internal error: " ++ detail

def isUnavailable : Failure → Bool
  | .unavailable _ => true
  | _ => false

/-- Whether the caller is at fault. -/
def isArgument : Failure → Bool
  | .argument _ | .id _ => true
  | _ => false

end Failure

end TraceArchive
