import TraceArchive.Proofs.Report.Clocks
import TraceArchive.Proofs.Trace.Breadth

set_option autoImplicit false

/-!
Clocks that agree stay as they are. A report is settled if the skew of its call would move nothing;
in a trace of settled reports no skew spreads, and correction only arranges them. One correction
settles each report, as it makes both ways of its call take the same time, so another one changes
nothing more.
-/

namespace TraceArchive

namespace CallEvents

variable {x y : CallEvents}

/-- Where the server's events are set back by the offset of a call, no offset is left. -/
theorem offset_eq_zero_of_setBack (hspare : 0 ≤ x.forth + x.back)
    (hroom : x.forth + x.back ≤ 0x7FFFFFFFFFFFFFFF)
    (hcs : y .clientSend = x .clientSend) (hcr : y .clientReceive = x .clientReceive)
    (hsr : ((y .serverReceive).timestamp.toNat : Int)
      = (x .serverReceive).timestamp.toNat - x.offset)
    (hss : ((y .serverSend).timestamp.toNat : Int) = (x .serverSend).timestamp.toNat - x.offset)
    (hy : 0 ≤ y.forth + y.back) : y.offset = 0 := by
  have hxlast := (x .serverReceive).timestamp.toNat_lt
  have hxsend := (x .serverSend).timestamp.toNat_lt
  have hylast := (y .serverReceive).timestamp.toNat_lt
  have hysend := (y .serverSend).timestamp.toNat_lt
  have hclient := (x .clientSend).timestamp.toNat_lt
  have hclient' := (x .clientReceive).timestamp.toNat_lt
  -- What the way to the server loses, the way back gains, so that their sum stays.
  unfold offset forth back at *
  rw [hcs, hcr] at *
  simp only [signed_eq] at *
  omega

end CallEvents

namespace Report

variable {r : Report} {above : Option Skew} {skew : Skew} {x : CallEvents}

/-- There is no skew, or that of a host without an address. -/
def MovesNothing (skew? : Option Skew) : Prop :=
  ∀ skew, skew? = some skew → skew.endpoint.isAddressed = false

def Settled (r : Report) : Prop := MovesNothing r.skew?

theorem MovesNothing.setBelow (h : MovesNothing above) : r.setBelow above = r := by
  cases above with
  | none => rfl
  | some skew => exact adjust_of_not_isAddressed (h skew rfl)

/-- Below a skew that moves nothing, a settled report stays as it is and lets no other one pass. -/
theorem Settled.correct (h : r.Settled) (habove : MovesNothing above) :
    (r.correct above).1 = r ∧ MovesNothing (r.correct above).2 := by
  rw [correct_eq, habove.setBelow]
  cases hskew : r.skew? with
  | some own =>
    have hown := h own hskew
    refine ⟨adjust_of_not_isAddressed hown, ?_⟩
    rintro skew ⟨⟩
    exact hown
  | none =>
    refine ⟨rfl, fun skew hpassed => habove skew ?_⟩
    dsimp only at hpassed
    split at hpassed
    · exact hpassed
    · cases hpassed

/-- Two core events are told at one endpoint, where both are told. -/
def OneEndpoint (r : Report) (core core' : CoreEvent) : Prop :=
  ∀ e ∈ r.events, ∀ f ∈ r.events, e.value = core.name → f.value = core'.name →
    e.endpoint = f.endpoint

theorem OneEndpoint.adjust {core core' : CoreEvent} (h : r.OneEndpoint core core') (skew : Skew) :
    (r.adjust skew).OneEndpoint core core' := by
  intro e he f hf hcore hcore'
  obtain ⟨e, he', rfl⟩ := mem_events_adjust.1 he
  obtain ⟨f, hf', rfl⟩ := mem_events_adjust.1 hf
  rw [Skew.value_move] at hcore hcore'
  rw [Skew.endpoint_move, Skew.endpoint_move, h e he' f hf' hcore hcore']

/-- No core event is told twice, and both events of a side are told at one endpoint. -/
structure Coherent (r : Report) : Prop where
  once : ∀ core : CoreEvent, ∀ e ∈ r.events, ∀ f ∈ r.events,
    e.value = core.name → f.value = core.name → e = f
  client : r.OneEndpoint .clientSend .clientReceive
  server : r.OneEndpoint .serverReceive .serverSend

/-- If the report has a skew, what is worked out for it fits: the client does not wait longer than
the server works by more than a signed number tells, and no event is set back beyond the ends of
time. -/
structure Steady (r : Report) : Prop where
  room : ∀ skew, r.skew? = some skew → ∀ x, r.HasCall x → x.forth + x.back ≤ 0x7FFFFFFFFFFFFFFF
  exact : ∀ skew, r.skew? = some skew → skew.Exact r

namespace Coherent

theorem adjust (h : r.Coherent) (skew : Skew) : (r.adjust skew).Coherent := by
  refine ⟨?_, h.client.adjust skew, h.server.adjust skew⟩
  intro core e he f hf hcore hcore'
  obtain ⟨e, he', rfl⟩ := mem_events_adjust.1 he
  obtain ⟨f, hf', rfl⟩ := mem_events_adjust.1 hf
  rw [Skew.value_move] at hcore hcore'
  rw [h.once core e he' f hf' hcore hcore']

theorem setBelow (h : r.Coherent) (above : Option Skew) : (r.setBelow above).Coherent := by
  cases above with
  | none => exact h
  | some skew => exact h.adjust skew

/-- Only a call has a skew. -/
theorem exists_hasCall (h : r.Coherent) (hskew : r.skew? = some skew) : ∃ x, r.HasCall x := by
  choose x hx using exists_eventNamed?_of_skew? hskew
  refine ⟨x, fun core => ?_⟩
  obtain ⟨hmem, hvalue⟩ := mem_of_eventNamed? (hx core)
  refine ⟨hmem, fun e he => ⟨fun he' => h.once core e he _ hmem he' hvalue, ?_⟩⟩
  rintro rfl
  exact hvalue

end Coherent

theorem HasCall.coherent (hcall : r.HasCall x)
    (hclient : (x .clientSend).endpoint = (x .clientReceive).endpoint)
    (hserver : (x .serverReceive).endpoint = (x .serverSend).endpoint) : r.Coherent := by
  refine ⟨fun core e he f hf hcore hcore' => ?_, fun e he f hf hcore hcore' => ?_,
    fun e he f hf hcore hcore' => ?_⟩
  · rw [hcall.eq_of_value he hcore, hcall.eq_of_value hf hcore']
  · rw [hcall.eq_of_value he hcore, hcall.eq_of_value hf hcore', hclient]
  · rw [hcall.eq_of_value he hcore, hcall.eq_of_value hf hcore', hserver]

theorem HasCall.steady (hcall : r.HasCall x) (hroom : x.forth + x.back ≤ 0x7FFFFFFFFFFFFFFF)
    (hskew : r.skew? = some skew) (hexact : skew.Exact r) : r.Steady :=
  ⟨fun _ _ _ hy => hcall.unique hy ▸ hroom, fun _ hown =>
    Option.some.inj (hskew.symm.trans hown) ▸ hexact⟩

/-- Set back by the skew of its own call, a report is left without one. -/
theorem HasCall.skew?_adjust (hcall : r.HasCall x) (h : r.Coherent) (hsteady : r.Steady)
    (hskew : r.skew? = some skew) (haddressed : skew.endpoint.isAddressed = true) :
    (r.adjust skew).skew? = none := by
  have hexact := hsteady.exact skew hskew
  have hroom := hsteady.room skew hskew x hcall
  rw [hcall.skew?_eq] at hskew
  obtain ⟨client, hserver, hclient, hapart, hspare, -, hoffset⟩ :=
    CallEvents.skew?_eq_some_iff.1 hskew
  have hclients := h.client _ (hcall.mem _) _ (hcall.mem _) (hcall.value _) (hcall.value _)
  have hservers := h.server _ (hcall.mem _) _ (hcall.mem _) (hcall.value _) (hcall.value _)
  rw [CallEvents.server?, ← hservers, Option.or_self] at hserver
  rw [CallEvents.client?, ← hclients, Option.or_self] at hclient
  have hserver' := hservers.symm.trans hserver
  have hclient' := hclients.symm.trans hclient
  have hon : onHost skew (some skew.endpoint) = true :=
    (Endpoint.sameHost_self _).trans haddressed
  have hoff : onHost skew (some client) = false := hapart
  have htime : ∀ core, (x core).endpoint = some skew.endpoint →
      (((x.moved skew) core).timestamp.toNat : Int) = (x core).timestamp.toNat - x.offset := by
    intro core hcore
    rw [← hoffset]
    exact (hexact _ (hcall.mem core)).toNat_move (hcore ▸ hon)
  rw [(hcall.adjust skew).skew?_eq, Option.eq_none_iff_forall_ne_some]
  intro left hleft
  obtain ⟨-, -, -, -, hspare', hne, -⟩ := CallEvents.skew?_eq_some_iff.1 hleft
  exact hne (CallEvents.offset_eq_zero_of_setBack hspare hroom
    (Skew.move_eq_self (hclient ▸ hoff)) (Skew.move_eq_self (hclient' ▸ hoff))
    (htime _ hserver) (htime _ hserver') hspare')

/-- A corrected report is settled. -/
theorem Coherent.settled_correct (h : r.Coherent) (hsteady : (r.setBelow above).Steady) :
    (r.correct above).1.Settled := by
  have h := h.setBelow above
  rw [correct_eq]
  cases hskew : (r.setBelow above).skew? with
  | none =>
    intro left hleft
    rw [hskew] at hleft
    cases hleft
  | some own =>
    intro left hleft
    dsimp only at hleft
    cases haddressed : own.endpoint.isAddressed with
    | false =>
      rw [adjust_of_not_isAddressed haddressed, hskew] at hleft
      exact Option.some.inj hleft ▸ haddressed
    | true =>
      obtain ⟨x, hcall⟩ := h.exists_hasCall hskew
      rw [hcall.skew?_adjust h hsteady hskew haddressed] at hleft
      cases hleft

end Report

namespace Trace

variable {trace : Trace} {r : Report} {above : Option Skew}

/-- Where spans that no skew moves are settled, no skew that moves anything reaches a span. -/
theorem Reaches.movesNothing (h : FitsTree trace)
    (hsettled : ∀ r ∈ trace, ∀ above, Reaches trace r above → Report.MovesNothing above → r.Settled)
    (hreach : Reaches trace r above) : Report.MovesNothing above := by
  induction hreach with
  | root => exact fun skew hskew => nomatch hskew
  | child hp hreach ih =>
    exact ((hsettled _ (h.mem_of_parentOf? hp) _ hreach ih).correct ih).2

/-- Settled spans are only arranged. -/
theorem FitsTree.correctSkew_of_settled (h : FitsTree trace) (hsettled : ∀ r ∈ trace, r.Settled) :
    BreadthFirst trace (correctSkew trace).value := by
  obtain ⟨rs, above, horder, hreach, hvalue⟩ := h.correctSkew_eq
  have hsame : (correctSkew trace).value = rs := by
    rw [hvalue]
    refine (List.map_congr_left fun r hr => ?_).trans (List.map_id rs)
    have hr := horder.perm.subset hr
    exact ((hsettled r hr).correct
      ((hreach r hr).movesNothing h fun r hr _ _ _ => hsettled r hr)).1
  rwa [hsame]

/-- Correcting clocks twice is correcting them once, where no report tells a core event twice or
one side of a call at two endpoints, and no time is beyond what can be told. -/
theorem correctSkew_correctSkew (trace : Trace) (hcoherent : ∀ r ∈ trace, r.Coherent)
    (hsteady : FitsTree trace → ∀ r ∈ trace, ∀ above, Reaches trace r above →
      (r.setBelow above).Steady) :
    (correctSkew (correctSkew trace).value).value = (correctSkew trace).value := by
  by_cases h : FitsTree trace
  · obtain ⟨rs, above, horder, hreach, hvalue⟩ := h.correctSkew_eq
    have hid : ∀ r : Report, (r.correct (above r)).1.id = r.id :=
      fun r => (Report.retimed_correct (above r) r).id
    have hparent : ∀ r : Report, (r.correct (above r)).1.parentId = r.parentId :=
      fun r => (Report.retimed_correct (above r) r).parentId
    have hfits := h.perm horder.perm
    have hagain := hfits.breadthFirst_map hid hparent (h.breadthFirst_self horder)
    have hsettled : ∀ s ∈ rs.map fun r => (r.correct (above r)).1, s.Settled := by
      intro s hs
      obtain ⟨r, hr, rfl⟩ := List.mem_map.1 hs
      have hr := horder.perm.subset hr
      exact (hcoherent r hr).settled_correct (hsteady h r hr _ (hreach r hr))
    -- The second correction only arranges, and what it arranges is in order already.
    rw [hvalue]
    exact (hfits.map hid hparent).breadthFirst_unique
      ((hfits.map hid hparent).correctSkew_of_settled hsettled) hagain
  · rw [correctSkew_of_not_fitsTree h, correctSkew_of_not_fitsTree h]

theorem correctSkew_correctSkew_skewedCalls :
    (correctSkew skewedCalls).value ≠ skewedCalls
      ∧ (correctSkew (correctSkew skewedCalls).value).value = (correctSkew skewedCalls).value := by
  have hfront := Report.hasCall_ofCall 1 none .web .app 100 1100 1150 200
  have hback := Report.hasCall_ofCall 2 (some 1) .app .db 1110 3120 3130 1140
  refine ⟨by decide +kernel, correctSkew_correctSkew skewedCalls (fun r hr => ?_)
    fun _ r hr above habove => ?_⟩
  · obtain rfl | rfl : r = _ ∨ r = _ := by simpa [skewedCalls] using hr
    · exact hback.coherent rfl rfl
    · exact hfront.coherent rfl rfl
  · obtain rfl | rfl : r = _ ∨ r = _ := by simpa [skewedCalls] using hr
    · obtain rfl := reaches_appToDb.unique habove
      have hskew : ((Report.ofCall 2 (some 1) .appToDb).adjust ⟨.app, 975⟩).skew?
          = some ⟨.db, 2975⟩ := by decide +kernel
      exact (hback.adjust ⟨.app, 975⟩).steady (by decide +kernel) hskew (by decide +kernel)
    · obtain rfl := reaches_webToApp.unique habove
      have hskew : (Report.ofCall 1 none .webToApp).skew? = some ⟨.app, 975⟩ := by decide +kernel
      exact hfront.steady (by decide +kernel) hskew (by decide +kernel)

end Trace

end TraceArchive
