import TraceArchive.Store

set_option autoImplicit false

/-!
Sessions with a storage that does not fail. Every operation then comes through, and a session is
the sequence of what its operations return and leave behind.
-/

namespace TraceArchive

/-- No outage is due. -/
def Store.Sound (s : Store) : Prop := s.outages = []

namespace Session

variable {α β : Type} {s s' s'' : Store}

theorem run_bind (x : Session α) (f : α → Session β) (s : Store) :
    (x >>= f).run s = match x.run s with
      | (.ok a, s') => (f a).run s'
      | (.error halt, s') => (.error halt, s') := by
  show (match x.run s with | (a, s') => ExceptT.bindCont f a s') = _
  cases x.run s with
  | mk answer s' => cases answer <;> rfl

/-- A call does nothing but meet the outage that hits it, if there is one. -/
theorem run_call (op : Operation) (s : Store) :
    (call op).run s = ((match (Outage.call op s.outages).1 with
      | some outage => .error outage.halt
      | none => .ok ()), { s with outages := (Outage.call op s.outages).2 }) := by
  have answer : ∀ (met : Option Outage) (s : Store),
      (match met with | some outage => throw outage.halt | none => pure () : Session Unit).run s
        = ((match met with | some outage => .error outage.halt | none => .ok ()), s) := by
    intro met s
    cases met <;> rfl
  exact answer (Outage.call op s.outages).1 { s with outages := (Outage.call op s.outages).2 }

/-- The session comes to its end with a result and leaves a store behind. -/
def Yields (session : Session α) (s : Store) (a : α) (s' : Store) : Prop :=
  session.run s = (.ok a, s')

theorem yields_pure (a : α) (s : Store) : Yields (pure a) s a s := rfl

theorem Yields.bind {x : Session α} {f : α → Session β} {a : α} {b : β} (hx : x.Yields s a s')
    (hf : (f a).Yields s' b s'') : (x >>= f).Yields s b s'' := by
  rw [Yields, run_bind, hx]
  exact hf

theorem yields_call (op : Operation) (hs : s.Sound) : (call op).Yields s () s := by
  obtain ⟨spans, services, arrangement, outages⟩ := s
  obtain rfl : outages = [] := hs
  rfl

theorem yields_getReport (k : Key) (hs : s.Sound) : (getReport k).Yields s (s.spans.get? k) s :=
  (yields_call _ hs).bind rfl

theorem yields_putReport (k : Key) (r : Report) (hs : s.Sound) :
    (putReport k r).Yields s () { s with spans := s.spans.put k r } :=
  (yields_call _ hs).bind rfl

theorem yields_putReportIfAbsent (k : Key) (r : Report) (hs : s.Sound) :
    (putReportIfAbsent k r).Yields s (s.spans.get? k)
      { s with spans := s.spans.putIfAbsent k r } :=
  (yields_call _ hs).bind rfl

theorem yields_findReports (p : Predicate) (hs : s.Sound) :
    (findReports p).Yields s (s.values p) s :=
  (yields_call _ hs).bind rfl

theorem yields_findRows (p : Predicate) (columns : List Column) (hs : s.Sound) :
    (findRows p columns).Yields s (s.project p columns) s :=
  (yields_call _ hs).bind rfl

theorem yields_spanNamesOf (service : String) (hs : s.Sound) :
    (spanNamesOf service).Yields s (s.services.get service).toList s :=
  (yields_call _ hs).bind rfl

theorem yields_hasSpanName (service name : String) (hs : s.Sound) :
    (hasSpanName service name).Yields s (s.services.contains service name) s :=
  (yields_call _ hs).bind rfl

theorem yields_putSpanName (service name : String) (hs : s.Sound) :
    (putSpanName service name).Yields s ()
      { s with services := s.services.put service name } :=
  (yields_call _ hs).bind rfl

end Session

end TraceArchive
