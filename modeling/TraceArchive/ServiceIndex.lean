import TraceArchive.Sorted.Map

set_option autoImplicit false

/-!
The names of the spans in which a service took part.
-/

namespace TraceArchive

structure ServiceIndex where
  services : SortedMap String (SortedSet String)
  deriving DecidableEq

namespace ServiceIndex

def empty : ServiceIndex := ⟨.empty⟩

instance : Inhabited ServiceIndex := ⟨empty⟩

/-- The span names of a service. -/
def get (x : ServiceIndex) (service : String) : SortedSet String :=
  (x.services.get? service).getD .empty

def contains (x : ServiceIndex) (service name : String) : Bool := (x.get service).contains name

def put (x : ServiceIndex) (service name : String) : ServiceIndex :=
  ⟨x.services.insert service ((x.get service).insert name)⟩

/-- The services with a span name, in ascending order. -/
def names (x : ServiceIndex) : List String := x.services.keys

@[simp] theorem get_put (x : ServiceIndex) (service other name : String) :
    (x.put service name).get other
      = if other = service then (x.get service).insert name else x.get other := by
  by_cases h : other = service <;> simp [get, put, h]

@[simp] theorem get_empty (service : String) : empty.get service = .empty := rfl

end ServiceIndex

end TraceArchive
