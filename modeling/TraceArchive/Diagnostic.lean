import TraceArchive.Id

set_option autoImplicit false

/-!
What is reported about malformed traces. A malformed trace is no error: it is put in order as far
as possible, and each thing that was passed over or made up is told in a diagnostic.
-/

namespace TraceArchive

inductive Level where
  | error
  | warn
  | info
  | debug
  | trace
  deriving DecidableEq

structure Notice where
  level : Level
  message : String
  deriving DecidableEq

/-- The trace is told by the text of its id. -/
inductive Diagnostic where
  | circularDependency (trace : String) (span : UInt64)
  | duplicateSpan (trace : String) (span : UInt64)
  | missingRoot (trace : String)
  | missingParent (trace : String) (root span : UInt64)
  | redundantRoot (trace : String) (root span : UInt64)
  /-- Clocks are not corrected in a trace whose spans do not all fit into one tree. -/
  | unfitForCorrection (trace : String)
  | rootlessForCorrection (trace : String)
  | unknownPeer (span : UInt64)
  | noCall (span : UInt64)
  | unknownService (span : UInt64)
  deriving DecidableEq

namespace Diagnostic

def message : Diagnostic → String
  | .circularDependency trace span =>
    "skipping circular dependency: " ++ inTrace trace ++ spanText span
  | .duplicateSpan trace span => "skipping duplicate span: " ++ inTrace trace ++ spanText span
  | .missingRoot trace => "substituting dummy node for missing root span: traceId=" ++ trace
  | .missingParent trace root span =>
    "attributing span missing parent to root: " ++ inTrace trace ++ rootText root ++ spanText span
  | .redundantRoot trace root span =>
    "skipping redundant root span: " ++ inTrace trace ++ rootText root ++ spanText span
  | .unfitForCorrection trace =>
    "skipping clock skew adjustment due to data errors: traceId=" ++ trace
  | .rootlessForCorrection trace =>
    "skipping clock skew adjustment due to missing root span: traceId=" ++ trace
  | .unknownPeer span => "root's peer is unknown; skipping: " ++ spanText span
  | .noCall span => "non-rpc span; skipping: " ++ spanText span
  | .unknownService span => "cannot determine parent or child; skipping: " ++ spanText span
where
  inTrace (trace : String) : String := "traceId=" ++ trace ++ ", "
  rootText (root : UInt64) : String := "rootSpanId=" ++ Id.toHex root ++ ", "
  spanText (span : UInt64) : String := "spanId=" ++ Id.toHex span

/-- All diagnostics are for debugging. -/
def notice (d : Diagnostic) : Notice := ⟨.debug, d.message⟩

end Diagnostic

/-- A result together with what was reported on the way to it. -/
structure Diagnosed (α : Type) where
  value : α
  diagnostics : List Diagnostic := []

end TraceArchive
