import TraceArchive.Proofs.Tree.Arrival

set_option autoImplicit false

/-!
What is rejected while a tree is assembled, and what is told of it. A span that leads back to
itself by recorded parents is told as circular, however long the way is; any other span whose id is
taken is told as a duplicate. A rejection is told once and leaves nothing else behind. The built
tree tells of the accepted spans that it puts under the root for want of a parent, or once that
there is no root.
-/

namespace TraceArchive.Assembly

variable {α : Type} {a b : Assembly α} {e f : Entry α} {es : List (Entry α)}

/-- A span with this id was accepted, and that is the parent it declared. -/
def ChildOf (a : Assembly α) (id parent : UInt64) : Prop :=
  ∃ e ∈ a.entries, e.id = id ∧ e.parentId = some parent

/-- The parent of a span is the span itself, or recorded parents lead from it to the span. -/
def ClosesCircle (a : Assembly α) (e : Entry α) : Prop :=
  ∃ p, e.parentId = some p ∧ Relation.ReflTransGen a.ChildOf p e.id

theorem Consistent.parentIdOf?_eq_some_iff (h : a.Consistent) {id p : UInt64} :
    a.parentIdOf? id = some p ↔ a.ChildOf id p :=
  declared_eq_some_iff h.distinct

/-- The bounded search finds every circle. -/
theorem Consistent.mem_chainFrom_iff (h : a.Consistent) :
    e.id ∈ a.chainFrom e.parentId ↔ a.ClosesCircle e := by
  have hlinks : (fun id p => a.parentIdOf? id = some p) = a.ChildOf :=
    funext fun _ => funext fun _ => propext h.parentIdOf?_eq_some_iff
  rw [ClosesCircle, ← hlinks]
  cases hp : e.parentId with
  | none => simp [chainFrom, chain_eq]
  | some p =>
    simp only [Option.some.injEq, exists_eq_left', ← exists_mem_follow_iff]
    constructor
    · intro hid
      rw [chainFrom, chain_eq] at hid
      exact ⟨_, hid⟩
    · rintro ⟨n, hid⟩
      exact h.mem_chainFrom hid

/-- The answer to a span, told by the recorded ids and parents alone. -/
structure Judges (a : Assembly α) (e : Entry α) : Prop where
  circular : a.add e = .error (.circularDependency a.trace e.id) ↔ a.ClosesCircle e
  duplicate : a.add e = .error (.duplicateSpan a.trace e.id)
    ↔ ¬ a.ClosesCircle e ∧ ∃ f ∈ a.entries, f.id = e.id
  accepted : a.add e = .ok { a with entries := a.entries ++ [e] }
    ↔ ¬ a.ClosesCircle e ∧ ∀ f ∈ a.entries, f.id ≠ e.id

theorem Consistent.judges (h : a.Consistent) (e : Entry α) : a.Judges e := by
  have hcircle := h.mem_chainFrom_iff (e := e)
  have hknown : (a.find? e.id).isSome = true ↔ ∃ f ∈ a.entries, f.id = e.id := by
    simp [find?]
  by_cases hc : a.ClosesCircle e
  · have hadd : a.add e = .error (.circularDependency a.trace e.id) := by
      rw [Assembly.add, if_pos (hcircle.2 hc)]
    constructor <;> simp [hadd, hc]
  · by_cases hk : ∃ f ∈ a.entries, f.id = e.id
    · have hadd : a.add e = .error (.duplicateSpan a.trace e.id) := by
        rw [Assembly.add, if_neg (mt hcircle.1 hc), if_pos (hknown.2 hk)]
      constructor <;> simp [hadd, hc, hk]
    · have hadd : a.add e = .ok { a with entries := a.entries ++ [e] } := by
        rw [Assembly.add, if_neg (mt hcircle.1 hc), if_neg (mt hknown.1 hk)]
      have hnew : ∀ f ∈ a.entries, ¬ f.id = e.id := by simpa using hk
      constructor
      · simp [hadd, hc]
      · simpa [hadd, hc] using hnew
      · simpa [hadd, hc] using hnew

/-! Runs of additions: what one addition tells and leaves behind is kept by the rest of the run. -/

theorem trace_add (h : a.add e = .ok b) : b.trace = a.trace := by
  obtain ⟨-, -, rfl⟩ := add_eq_ok_iff.1 h
  rfl

theorem trace_addAll (a : Assembly α) (es : List (Entry α)) :
    (a.addAll es).value.trace = a.trace := by
  induction es generalizing a with
  | nil => rfl
  | cons e es ih =>
    rw [addAll]
    cases h : a.add e with
    | ok b => exact (ih b).trans (trace_add h)
    | error d => exact ih a

theorem addAll_append (a : Assembly α) (es more : List (Entry α)) :
    a.addAll (es ++ more) = ⟨((a.addAll es).value.addAll more).value,
      (a.addAll es).diagnostics ++ ((a.addAll es).value.addAll more).diagnostics⟩ := by
  induction es generalizing a with
  | nil => rfl
  | cons e es ih =>
    rw [List.cons_append, addAll, addAll]
    cases a.add e with
    | ok b => exact ih b
    | error d => simp [ih]

/-- A rejection is told, and the run goes on as if there had been no such span. -/
theorem addAll_append_rejected {d : Diagnostic} (h : (a.addAll es).value.add e = .error d)
    (more : List (Entry α)) : ∃ rest,
      (a.addAll (es ++ more)).diagnostics = (a.addAll es).diagnostics ++ rest
      ∧ a.addAll (es ++ e :: more)
        = ⟨(a.addAll (es ++ more)).value, (a.addAll es).diagnostics ++ d :: rest⟩ := by
  refine ⟨((a.addAll es).value.addAll more).diagnostics, ?_, ?_⟩
  · rw [addAll_append]
  · rw [addAll_append, addAll_append, addAll, h]

/-! What the built tree tells. -/

/-- The natural root is the first accepted span without a parent. -/
def firstParentless (es : List (Entry α)) : Option (Entry α) := es.find? fun e => e.parentId = none

theorem root?_eq_firstParentless (a : Assembly α) : a.root? = firstParentless a.entries := by
  rw [root?, firstParentless]
  congr 1
  funext e
  cases e.parentId <;> rfl

/-- Spans other than the root whose parents are not among the accepted spans. -/
def orphans (es : List (Entry α)) (root : Entry α) : List (Entry α) :=
  es.filter fun e => e.id ≠ root.id ∧ ∀ f ∈ es, e.parentId ≠ some f.id

theorem Consistent.isNone_parentNode?_iff (h : a.Consistent) :
    (a.parentNode? e).isNone = true ↔ ∀ f ∈ a.entries, e.parentId ≠ some f.id := by
  rw [parentNode?]
  cases e.parentId with
  | none => simp
  | some p =>
    rw [Option.bind_some]
    constructor
    · intro hnone f hf hp
      obtain ⟨i, hi, -⟩ := h.exists_nodeOf? hf
      rw [Option.some.inj hp, hi] at hnone
      cases hnone
    · intro hunknown
      rw [nodeOf?_eq_none fun f hf hid => hunknown f hf (congrArg some hid.symm)]
      rfl

theorem Consistent.buildDiagnostics_eq (h : a.Consistent) :
    a.buildDiagnostics = match firstParentless a.entries with
      | some root => (orphans a.entries root).map fun e => .missingParent a.trace root.id e.id
      | none => [.missingRoot a.trace] := by
  rw [buildDiagnostics, ← root?_eq_firstParentless]
  cases hroot : a.root? with
  | none => rfl
  | some root =>
    have hkept : orphans a.entries root
        = a.others.filter fun e => (a.parentNode? e).isNone := by
      rw [others, hroot, List.filter_filter]
      apply List.filter_congr
      intro e _
      rw [Bool.eq_iff_iff]
      simp [h.isNone_parentNode?_iff, and_comm]
    show a.others.filterMap _ = (orphans a.entries root).map _
    rw [hkept, ← List.filterMap_eq_map, List.filterMap_filter]
    rfl

/-- Whatever spans were added before, a span is rejected as circular or as a duplicate exactly if
it is, and the tree tells of exactly the spans that lack a parent, in the order they came, or of the
missing root. A span that was rejected has no other effect than its one diagnostic. -/
theorem ofList_tells (trace : String) (es : List (Entry α)) :
    let a := (Assembly.addAll { trace } es).value
    let told := (Assembly.addAll { trace } es).diagnostics
    a.trace = trace ∧ (∀ e, a.Judges e)
      ∧ (∀ e, Assembly.addAll { trace } (es ++ [e]) = match a.add e with
          | .ok b => ⟨b, told⟩
          | .error d => ⟨a, told ++ [d]⟩)
      ∧ (∀ e d more, a.add e = .error d → ∃ rest,
          (ofList trace (es ++ more)).diagnostics = told ++ rest
          ∧ ofList trace (es ++ e :: more)
            = ⟨(ofList trace (es ++ more)).value, told ++ d :: rest⟩)
      ∧ ofList trace es = ⟨a.tree, told ++ match firstParentless a.entries with
          | some root => (orphans a.entries root).map fun e => .missingParent trace root.id e.id
          | none => [.missingRoot trace]⟩ := by
  intro a told
  have ha : a.Consistent := (consistent_empty trace).addAll es
  have htrace : a.trace = trace := trace_addAll _ es
  refine ⟨htrace, ha.judges, ?_, ?_, ?_⟩
  · intro e
    rw [addAll_append, addAll]
    cases a.add e with
    | ok b => simp [addAll, told]
    | error d => simp [addAll, told, a]
  · intro e d more hd
    obtain ⟨rest, hwithout, hwith⟩ := addAll_append_rejected hd more
    refine ⟨rest ++ (Assembly.addAll { trace } (es ++ more)).value.buildDiagnostics, ?_, ?_⟩
    · simp [ofList, hwithout, build, told]
    · simp [ofList, hwith, build, told]
  · have hbuild := ha.buildDiagnostics_eq
    rw [htrace] at hbuild
    rw [ofList, build, ← hbuild]

/-- A span is told as circular over another one, which then lacks its parent. -/
example : (ofList "1" [⟨none, 1, "web"⟩, ⟨some 3, 2, "app"⟩, ⟨some 2, 3, "db"⟩]).diagnostics
    = [.circularDependency "1" 3, .missingParent "1" 1 2] := by
  decide

end TraceArchive.Assembly
