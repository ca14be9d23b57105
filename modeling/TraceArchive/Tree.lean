set_option autoImplicit false

/-!
Trees as numbered nodes. Node 0 is the root; a node knows its parent and its children by their
numbers. Nodes may be added first and linked later, so a tree in the making need not be one: a
walk is limited by the number of its steps.
-/

namespace TraceArchive

structure Node (α : Type) where
  /-- Absent only on a root that stands for a missing one. -/
  value : Option α
  parent : Option Nat := none
  children : List Nat := []
  deriving DecidableEq

structure Tree (α : Type) where
  nodes : List (Node α)
  nonempty : nodes ≠ []

/-- Why a node cannot be linked. -/
inductive LinkError where
  | toItself (node : Nat)
  | noSuchNode
  deriving DecidableEq

def LinkError.message : LinkError → String
  | .toItself node => "circular dependency on node " ++ node.repr
  | .noSuchNode => "no such node"

namespace Tree

variable {α : Type}

def ofRoot (value : Option α) : Tree α := ⟨[{ value }], by simp⟩

instance : Inhabited (Tree α) := ⟨ofRoot none⟩

def size (t : Tree α) : Nat := t.nodes.length

def get? (t : Tree α) (i : Nat) : Option (Node α) := t.nodes[i]?

def root (t : Tree α) : Node α := t.nodes.head t.nonempty

/-- Whether the root stands for a missing one. -/
def isPartial (t : Tree α) : Bool := t.root.value.isNone

def childrenOf (t : Tree α) (i : Nat) : List Nat := ((t.get? i).map (·.children)).getD []

/-- Adds a node without links; its number is the size of the tree before. -/
def add (t : Tree α) (value : α) : Tree α := ⟨t.nodes ++ [{ value := some value }], by simp⟩

def link (t : Tree α) (parent child : Nat) : Except LinkError (Tree α) :=
  if parent = child then .error (.toItself child)
  else if t.size ≤ child ∨ t.size ≤ parent then .error .noSuchNode
  else .ok ⟨(t.nodes.modify child fun n => { n with parent := some parent }).modify parent
    fun n => { n with children := n.children ++ [child] }, by
      have := t.nonempty
      cases t with | mk nodes h => cases nodes <;> cases child <;> cases parent <;> simp_all⟩

/-- The first nodes that a breadth-first walk meets, starting at the nodes of a queue. -/
def walkFrom (t : Tree α) : (limit : Nat) → (queue : List Nat) → List Nat
  | 0, _ => []
  | _, [] => []
  | limit + 1, i :: queue => i :: t.walkFrom limit (queue ++ t.childrenOf i)

def walk (t : Tree α) (limit : Nat) : List Nat := t.walkFrom limit [0]

/-- The nodes from a node's parent up to the root. -/
def ancestors (t : Tree α) : (limit : Nat) → (i : Nat) → List Nat
  | 0, _ => []
  | limit + 1, i =>
    match (t.get? i).bind (·.parent) with
    | none => []
    | some p => p :: t.ancestors limit p

/-- The number of nodes that were not met yet. -/
def unmet (t : Tree α) (met : List Nat) : Nat := ((List.range t.size).filter (· ∉ met)).length

theorem unmet_cons_lt {t : Tree α} {met : List Nat} {i : Nat} (hi : i < t.size) (hm : i ∉ met) :
    t.unmet (i :: met) < t.unmet met := by
  have : (List.range t.size).filter (· ∉ i :: met)
      = ((List.range t.size).filter (· ∉ met)).filter (· ≠ i) := by
    simp [List.filter_filter]
  rw [unmet, this, unmet, List.length_filter_lt_length_iff_exists]
  exact ⟨i, by simp [hi, hm], by simp⟩

/-- A breadth-first walk that passes over what it met before. -/
def meet (t : Tree α) (met : List Nat) : (queue : List Nat) → List Nat
  | [] => []
  | i :: queue =>
    if _h : i < t.size ∧ i ∉ met then i :: t.meet (i :: met) (queue ++ t.childrenOf i)
    else t.meet met queue
termination_by queue => (t.unmet met, queue.length)
decreasing_by
  · exact Prod.Lex.left _ _ (unmet_cons_lt _h.1 _h.2)
  · exact Prod.Lex.right _ (by simp)

/-- Each value once, in the order in which a breadth-first walk meets its node. -/
def values (t : Tree α) : List α :=
  (t.meet [] [0]).filterMap fun i => (t.get? i).bind (·.value)

end Tree

end TraceArchive
