import TraceArchive.Diagnostic
import TraceArchive.Tree

set_option autoImplicit false

/-!
Assembling a tree from spans that know their parents by id and come in any order. A span that
would close a circle, or whose id is taken, is rejected. The first span without a parent is the
root; other spans without a known parent are put under it, and where there is no root an empty
one takes its place.
-/

namespace TraceArchive

structure Assembly.Entry (α : Type) where
  parentId : Option UInt64
  id : UInt64
  value : α

structure Assembly (α : Type) where
  /-- Only told in diagnostics. -/
  trace : String
  /-- The spans that were accepted, in the order they came. -/
  entries : List (Assembly.Entry α) := []

namespace Assembly

variable {α : Type}

def find? (a : Assembly α) (id : UInt64) : Option (Entry α) := a.entries.find? (·.id == id)

/-- The ids that are met by following recorded parents, starting with an id itself. -/
def chain (a : Assembly α) : (limit : Nat) → (start : Option UInt64) → List UInt64
  | 0, _ => []
  | _, none => []
  | limit + 1, some id => id :: a.chain limit ((a.find? id).bind (·.parentId))

/-- A chain without a circle meets every entry at most once, and one unknown id at its end. -/
def chainFrom (a : Assembly α) (start : Option UInt64) : List UInt64 :=
  a.chain (a.entries.length + 1) start

/-- Accepts a span, or tells why not. -/
def add (a : Assembly α) (e : Entry α) : Except Diagnostic (Assembly α) :=
  if e.id ∈ a.chainFrom e.parentId then .error (.circularDependency a.trace e.id)
  else if (a.find? e.id).isSome then .error (.duplicateSpan a.trace e.id)
  else .ok { a with entries := a.entries ++ [e] }

/-- Adds spans one after the other, passing over those that are rejected. -/
def addAll (a : Assembly α) : List (Entry α) → Diagnosed (Assembly α)
  | [] => ⟨a, []⟩
  | e :: es =>
    match a.add e with
    | .ok a => a.addAll es
    | .error d =>
      let rest := a.addAll es
      ⟨rest.value, d :: rest.diagnostics⟩

def root? (a : Assembly α) : Option (Entry α) := a.entries.find? (·.parentId.isNone)

/-- The entries below the root, whose nodes follow the root's in this order. -/
def others (a : Assembly α) : List (Entry α) :=
  match a.root? with
  | some root => a.entries.filter (·.id != root.id)
  | none => a.entries

/-- The node of an id. -/
def nodeOf? (a : Assembly α) (id : UInt64) : Option Nat :=
  if a.root?.any (·.id == id) then some 0
  else (a.others.findIdx? (·.id == id)).map (· + 1)

/-- The node of an entry's parent, if its parent is known. -/
def parentNode? (a : Assembly α) (e : Entry α) : Option Nat := e.parentId.bind a.nodeOf?

/-- The parents of the nodes after the root, in the order of the nodes. -/
def parents (a : Assembly α) : List Nat := a.others.map fun e => (a.parentNode? e).getD 0

/-- The nodes, after the root, that have a parent. -/
def childrenOf (parents : List Nat) (parent : Nat) : List Nat :=
  (parents.zipIdx 1).filterMap fun p => if p.1 = parent then some p.2 else none

def tree (a : Assembly α) : Tree α :=
  let parents := a.parents
  ⟨{ value := a.root?.map (·.value), children := childrenOf parents 0 } ::
    (a.others.zip (parents.zipIdx 1)).map fun e => {
      value := some e.1.value
      parent := some e.2.1
      children := childrenOf parents e.2.2 }, by simp⟩

def buildDiagnostics (a : Assembly α) : List Diagnostic :=
  match a.root? with
  | none => [.missingRoot a.trace]
  | some root => a.others.filterMap fun e =>
      if (a.parentNode? e).isNone then some (.missingParent a.trace root.id e.id) else none

def build (a : Assembly α) : Diagnosed (Tree α) := ⟨a.tree, a.buildDiagnostics⟩

/-- The tree of spans that come in the given order. -/
def ofList (trace : String) (es : List (Entry α)) : Diagnosed (Tree α) :=
  let added := Assembly.addAll { trace } es
  let built := added.value.build
  ⟨built.value, added.diagnostics ++ built.diagnostics⟩

end Assembly

end TraceArchive
