import TraceArchive.Arrangement
import TraceArchive.Outage
import TraceArchive.ServiceIndex
import TraceArchive.SpanMap

set_option autoImplicit false

/-!
The storage behind the archive, and sessions with it. A session is a run of operations, each of
which an outage may hit; then the session ends, and what was stored before stays stored.
-/

namespace TraceArchive

structure Store where
  spans : SpanMap := .empty
  services : ServiceIndex := .empty
  arrangement : Arrangement Predicate := .asFound
  outages : List Outage := []

instance : Inhabited Store := ⟨{}⟩

namespace Store

def values (s : Store) (p : Predicate) : List Report := s.arrangement.order p (s.spans.values p)

def project (s : Store) (p : Predicate) (columns : List Column) : List Row :=
  (s.values p).map (·.row columns)

theorem values_perm (s : Store) (p : Predicate) : (s.values p).Perm (s.spans.values p) :=
  s.arrangement.perm p _

/-- Arms an outage. -/
def arm (s : Store) (o : Outage) : Store := { s with outages := o.arm s.outages }

/-- Forgets what is stored. -/
def clear (s : Store) : Store := { s with spans := .empty, services := .empty }

end Store

abbrev Session := ExceptT Halt (StateM Store)

namespace Session

/-- A call of an operation. An outage hits it before it has any effect. -/
def call (op : Operation) : Session Unit := do
  let store ← get
  let met := Outage.call op store.outages
  set { store with outages := met.2 }
  match met.1 with
  | some outage => throw outage.halt
  | none => pure ()

def getReport (k : Key) : Session (Option Report) := do
  call .spansGet
  return (← get).spans.get? k

def putReport (k : Key) (r : Report) : Session Unit := do
  call .spansPut
  modify fun s => { s with spans := s.spans.put k r }

/-- Stores a report unless the key is taken, and tells what it is taken by. -/
def putReportIfAbsent (k : Key) (r : Report) : Session (Option Report) := do
  call .spansPutIfAbsent
  let taken := (← get).spans.get? k
  modify fun s => { s with spans := s.spans.putIfAbsent k r }
  return taken

def findReports (p : Predicate) : Session (List Report) := do
  call .spansValues
  return (← get).values p

def findRows (p : Predicate) (columns : List Column) : Session (List Row) := do
  call .spansProject
  return (← get).project p columns

def spanNamesOf (service : String) : Session (List String) := do
  call .servicesGet
  return ((← get).services.get service).toList

def hasSpanName (service name : String) : Session Bool := do
  call .servicesContains
  return (← get).services.contains service name

def putSpanName (service name : String) : Session Unit := do
  call .servicesPut
  modify fun s => { s with services := s.services.put service name }

def allServices : Session (List String) := do
  call .servicesNames
  return (← get).services.names

/-- Runs a session apart from its caller, for whom a defect is then a failure like others. -/
def apart {α : Type} (session : Session α) : Session α :=
  tryCatch session fun
    | .defect => throw (.failure (.internal "a call of the storage broke off"))
    | halt => throw halt

end Session

end TraceArchive
