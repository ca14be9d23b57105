import TraceArchive.Proofs.Session

set_option autoImplicit false

/-!
Sessions with a storage that may fail. A session comes to its end or halts somewhere in the middle,
and what holds of the store it leaves behind is put together from what its operations leave.
-/

namespace TraceArchive.Session

variable {α β : Type} {s : Store}

/-- What holds of the store that a session leaves behind, if it comes to its end and if it halts. -/
def Leaves (session : Session α) (s : Store) (ended : α → Store → Prop) (halted : Store → Prop) :
    Prop :=
  match session.run s with
  | (.ok a, s') => ended a s'
  | (.error _, s') => halted s'

theorem Leaves.mono {session : Session α} {ended ended' : α → Store → Prop}
    {halted halted' : Store → Prop} (h : session.Leaves s ended halted)
    (hended : ∀ a s', ended a s' → ended' a s') (hhalted : ∀ s', halted s' → halted' s') :
    session.Leaves s ended' halted' := by
  unfold Leaves at h ⊢
  split at h
  · exact hended _ _ h
  · exact hhalted _ h

theorem Leaves.bind {x : Session α} {f : α → Session β} {between : α → Store → Prop}
    {ended : β → Store → Prop} {halted : Store → Prop} (hx : x.Leaves s between halted)
    (hf : ∀ a s', between a s' → (f a).Leaves s' ended halted) :
    (x >>= f).Leaves s ended halted := by
  unfold Leaves at hx ⊢
  rw [run_bind]
  cases hrun : x.run s with
  | mk answer s' =>
    rw [hrun] at hx
    cases answer with
    | ok a => exact hf a s' hx
    | error halt => exact hx

/-- Sessions that go on alike from wherever the first part of them leads. -/
theorem Leaves.run_bind_congr {x : Session α} {f g : α → Session β} {halted : Store → Prop}
    (h : x.Leaves s (fun a s' => (f a).run s' = (g a).run s') halted) :
    (x >>= f).run s = (x >>= g).run s := by
  unfold Leaves at h
  rw [run_bind, run_bind]
  cases hrun : x.run s with
  | mk answer s' =>
    rw [hrun] at h
    cases answer with
    | ok a => exact h
    | error halt => rfl

/-- The session keeps a property of the store, wherever it ends or halts; what it returns has a
property of its own. -/
def Maintains (P : Store → Prop) (session : Session α) (returned : α → Prop) : Prop :=
  ∀ s, P s → session.Leaves s (fun a s' => returned a ∧ P s') P

variable {P : Store → Prop} {between : α → Prop} {returned : β → Prop}

theorem Maintains.bind {x : Session α} {f : α → Session β} (hx : x.Maintains P between)
    (hf : ∀ a, between a → (f a).Maintains P returned) : (x >>= f).Maintains P returned :=
  fun s hs => (hx s hs).bind fun a s' h => hf a h.1 s' h.2

theorem maintains_pure {b : β} (h : returned b) : Maintains P (pure b) returned :=
  fun _ hs => ⟨h, hs⟩

theorem maintains_get : Maintains P get P := fun _ hs => ⟨hs, hs⟩

theorem maintains_modify {f : Store → Store} (h : ∀ s, P s → P (f s)) :
    Maintains P (modify f) fun _ => True :=
  fun s hs => ⟨trivial, h s hs⟩

theorem maintains_forM {items : List α} {f : α → Session Unit}
    (h : ∀ a ∈ items, (f a).Maintains P fun _ => True) :
    (items.forM f).Maintains P fun _ => True := by
  induction items with
  | nil => exact maintains_pure trivial
  | cons a items ih =>
    apply (h a List.mem_cons_self).bind
    exact fun _ _ => ih fun c hc => h c (List.mem_cons_of_mem a hc)

/-- A call changes nothing but the outages, whether it comes through or not. -/
theorem maintains_call (op : Operation) (h : ∀ s outages, P s → P { s with outages }) :
    (call op).Maintains P fun _ => True := by
  intro s hs
  rw [Leaves, run_call]
  cases (Outage.call op s.outages).1 with
  | none => exact ⟨trivial, h s _ hs⟩
  | some outage => exact h s _ hs

end TraceArchive.Session
