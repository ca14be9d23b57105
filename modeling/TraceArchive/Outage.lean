import TraceArchive.Failure

set_option autoImplicit false

/-!
Outages of the storage, told in advance: which call of which operation does not come through.
-/

namespace TraceArchive

/-- What the archive asks the storage to do. -/
inductive Operation where
  | spansGet
  | spansPut
  | spansPutIfAbsent
  | spansValues
  | spansProject
  | servicesGet
  | servicesPut
  | servicesContains
  | servicesNames
  deriving DecidableEq

def Operation.name : Operation → String
  | .spansGet => "spans.get"
  | .spansPut => "spans.put"
  | .spansPutIfAbsent => "spans.put_if_absent"
  | .spansValues => "spans.values"
  | .spansProject => "spans.project"
  | .servicesGet => "services.get"
  | .servicesPut => "services.put"
  | .servicesContains => "services.contains_entry"
  | .servicesNames => "services.key_set"

def Operation.every : List Operation := [.spansGet, .spansPut, .spansPutIfAbsent, .spansValues,
  .spansProject, .servicesGet, .servicesPut, .servicesContains, .servicesNames]

/-- Why a session does not go on: the storage failed, or broke off without an answer. -/
inductive Halt where
  | failure (failure : Failure)
  | defect
  deriving DecidableEq

inductive Outage.Kind where
  /-- The storage cannot be reached. -/
  | refusal
  | failure
  | defect
  deriving DecidableEq

structure Outage where
  operation : Operation
  /-- The number of calls that still come through. -/
  spared : Nat
  kind : Outage.Kind
  deriving DecidableEq

namespace Outage

def halt (o : Outage) : Halt :=
  match o.kind with
  | .refusal => .failure (.unavailable (o.operation.name ++ " refused"))
  | .failure => .failure (.storage (o.operation.name ++ " failed"))
  | .defect => .defect

/-- Adds an outage to those that are due, in the place of one of the same operation. -/
def arm (o : Outage) (due : List Outage) : List Outage :=
  o :: due.filter (·.operation ≠ o.operation)

/-- What a call of an operation meets: an outage that hits it, if one does, and the outages that
are due after it. -/
def call (op : Operation) : List Outage → Option Outage × List Outage
  | [] => (none, [])
  | o :: due =>
    if o.operation = op then
      if o.spared = 0 then (some o, due) else (none, { o with spared := o.spared - 1 } :: due)
    else
      let rest := call op due
      (rest.1, o :: rest.2)

end Outage

end TraceArchive
