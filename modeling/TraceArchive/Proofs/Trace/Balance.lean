import TraceArchive.Proofs.Trace.Settling
import TraceArchive.Proofs.Trace.Windows

set_option autoImplicit false

/-!
Which traces keep their times. The skew of a call is what its ways differ by, whether or not the
server works within the time that the client waits: a trace of nested calls is only arranged
exactly if each call between two hosts is even, that is, if both of its ways take the same time.
-/

namespace TraceArchive

namespace CallEvents

/-- The way to the server takes some time, and the way back the same time, up to the microsecond
that halving loses. -/
def Even (x : CallEvents) : Prop :=
  ∃ way, (x .serverReceive).timestamp.toNat = (x .clientSend).timestamp.toNat + way
    ∧ ((x .clientReceive).timestamp.toNat = (x .serverSend).timestamp.toNat + way
      ∨ (x .clientReceive).timestamp.toNat = (x .serverSend).timestamp.toNat + way + 1)

/-- The call goes from one host to another, which has an address: they share no address. -/
def IsRemote (x : CallEvents) : Prop :=
  ∃ client server, x.client? = some client ∧ x.server? = some server
    ∧ (server.ipv6 ≠ none ∨ server.ipv4 ≠ none)
    ∧ (server.ipv6 ≠ none → server.ipv6 ≠ client.ipv6)
    ∧ (server.ipv4 ≠ none → server.ipv4 ≠ client.ipv4)

variable {x : CallEvents} {skew : Skew}

theorem isRemote_iff : x.IsRemote ↔ ∃ client server, x.client? = some client
    ∧ x.server? = some server ∧ server.isAddressed = true ∧ server.sameHost client = false := by
  simp [IsRemote, Endpoint.isAddressed, Endpoint.sameHost, Option.ne_none_iff_isSome]

namespace Nested

variable (h : x.Nested)

include h

/-- The client waits at least as long as the server works, and signed numbers tell so. -/
theorem forth_add_back_nonneg (hsigned : x.Signed) : 0 ≤ x.forth + x.back := by
  have harrival := UInt64.le_iff_toNat_le.1 h.arrival
  have hanswer := UInt64.le_iff_toNat_le.1 h.answer
  rw [hsigned.forth_eq, hsigned.back_eq]
  omega

/-- Where signed numbers tell that the client waits at least as long as the server works, they
tell the time of both ways. -/
theorem forth_back_eq (hspare : 0 ≤ x.forth + x.back) :
    x.forth = (x .serverReceive).timestamp.toNat - (x .clientSend).timestamp.toNat
      ∧ x.back = (x .clientReceive).timestamp.toNat - (x .serverSend).timestamp.toNat := by
  have harrival := UInt64.le_iff_toNat_le.1 h.arrival
  have hwork := UInt64.le_iff_toNat_le.1 h.work
  have hanswer := UInt64.le_iff_toNat_le.1 h.answer
  have hlast := (x .clientReceive).timestamp.toNat_lt
  unfold forth back at *
  simp only [signed_eq] at *
  omega

theorem offset_eq_zero_iff (hspare : 0 ≤ x.forth + x.back) : x.offset = 0 ↔ x.Even := by
  obtain ⟨hforth, hback⟩ := h.forth_back_eq hspare
  have harrival := UInt64.le_iff_toNat_le.1 h.arrival
  have hhalf := x.offset_eq
  constructor
  · intro hzero
    exact ⟨(x .serverReceive).timestamp.toNat - (x .clientSend).timestamp.toNat, by omega, by omega⟩
  · rintro ⟨way, hway, hreturn⟩
    omega

/-- No event of the server stays where it is when it is set back by the offset of a call that is
not even. -/
theorem setBack_ne (hspare : 0 ≤ x.forth + x.back) (hoffset : x.offset ≠ 0) :
    setBack (x .serverReceive).timestamp x.offset ≠ (x .serverReceive).timestamp
      ∧ setBack (x .serverSend).timestamp x.offset ≠ (x .serverSend).timestamp := by
  obtain ⟨hforth, hback⟩ := h.forth_back_eq hspare
  have hhalf := x.offset_eq
  have harrival := UInt64.le_iff_toNat_le.1 h.arrival
  have hwork := UInt64.le_iff_toNat_le.1 h.work
  have hanswer := UInt64.le_iff_toNat_le.1 h.answer
  have hlast := (x .clientReceive).timestamp.toNat_lt
  constructor
  · intro hsame
    have hset : ((setBack (x .serverReceive).timestamp x.offset).toNat : Int) = _ :=
      toNat_setBack_of_le (by omega) (by omega) (by omega)
    rw [hsame] at hset
    omega
  · intro hsame
    have hset : ((setBack (x .serverSend).timestamp x.offset).toNat : Int) = _ :=
      toNat_setBack_of_le (by omega) (by omega) (by omega)
    rw [hsame] at hset
    omega

/-- An event moves when the call is set back by its own skew. -/
theorem moved_ne (hskew : x.skew? = some skew) (haddressed : skew.endpoint.isAddressed = true) :
    x.moved skew ≠ x := by
  obtain ⟨client, hserver, -, -, hspare, hne, hoffset⟩ := skew?_eq_some_iff.1 hskew
  have hon : Report.onHost skew (some skew.endpoint) = true :=
    (Endpoint.sameHost_self _).trans haddressed
  have hmoves : ∀ core, (x core).endpoint = some skew.endpoint → x.moved skew = x →
      setBack (x core).timestamp x.offset = (x core).timestamp := by
    intro core hcore hsame
    rw [← hoffset, ← Skew.timestamp_move (hcore ▸ hon)]
    exact congrArg Event.timestamp (congrFun hsame core)
  obtain ⟨hreceive, hsend⟩ := h.setBack_ne hspare hne
  intro hsame
  rcases Option.or_eq_some_iff.1 hserver with hserver | ⟨-, hserver⟩
  · exact hreceive (hmoves _ hserver hsame)
  · exact hsend (hmoves _ hserver hsame)

end Nested

/-- A nested call has a skew of a host with an address exactly if it is remote and not even. -/
theorem Nested.exists_skew?_iff (h : x.Nested) (hsigned : x.Signed) :
    (∃ skew, x.skew? = some skew ∧ skew.endpoint.isAddressed = true)
      ↔ x.IsRemote ∧ ¬ x.Even := by
  have hspare := h.forth_add_back_nonneg hsigned
  have heven := h.offset_eq_zero_iff hspare
  rw [isRemote_iff]
  constructor
  · rintro ⟨skew, hskew, haddressed⟩
    obtain ⟨client, hserver, hclient, hapart, -, hne, -⟩ := skew?_eq_some_iff.1 hskew
    exact ⟨⟨client, skew.endpoint, hclient, hserver, haddressed, hapart⟩, mt heven.2 hne⟩
  · rintro ⟨⟨client, server, hclient, hserver, haddressed, hapart⟩, hodd⟩
    exact ⟨⟨server, x.offset⟩, skew?_eq_some_iff.2 ⟨client, hserver, hclient, hapart, hspare,
      mt heven.1 hodd, rfl⟩, haddressed⟩

end CallEvents

namespace Report

variable {r : Report} {above : Option Skew} {skew : Skew} {x : CallEvents}

/-- If the report tells all four core events, it tells each of them once, and the server works
within the time that the client waits. -/
def NestsCalls (r : Report) : Prop :=
  (∀ core : CoreEvent, ∃ e ∈ r.events, e.value = core.name) →
    ∃ x, r.HasCall x ∧ x.Nested

namespace NestsCalls

variable (h : r.NestsCalls)

include h

theorem exists_call (hskew : r.skew? = some skew) : ∃ x, r.HasCall x ∧ x.Nested := by
  apply h
  intro core
  obtain ⟨e, he⟩ := exists_eventNamed?_of_skew? hskew core
  exact ⟨e, mem_of_eventNamed? he⟩

/-- A report with a skew of its own does not stay as it is. -/
theorem adjust_ne (hskew : r.skew? = some skew) (haddressed : skew.endpoint.isAddressed = true) :
    r.adjust skew ≠ r := by
  obtain ⟨x, hcall, hnested⟩ := h.exists_call hskew
  intro hsame
  have hmoved := hcall.adjust skew
  rw [hsame] at hmoved
  rw [hcall.skew?_eq] at hskew
  exact hnested.moved_ne hskew haddressed (hmoved.unique hcall)

/-- A report is settled exactly if its call is even, where it is remote. -/
theorem settled_iff (hsigned : ∀ x, r.HasCall x → x.Signed) :
    r.Settled ↔ ∀ x, r.HasCall x → x.IsRemote → x.Even := by
  constructor
  · intro hsettled x hcall hremote
    by_contra heven
    obtain ⟨y, hy, hnested⟩ := h fun core => ⟨x core, hcall.mem core, hcall.value core⟩
    obtain rfl := hy.unique hcall
    obtain ⟨skew, hskew, haddressed⟩ := (hnested.exists_skew?_iff (hsigned y hy)).2 ⟨hremote, heven⟩
    rw [← hcall.skew?_eq] at hskew
    rw [hsettled skew hskew] at haddressed
    cases haddressed
  · intro heven skew hskew
    rw [Bool.eq_false_iff]
    intro haddressed
    obtain ⟨x, hcall, hnested⟩ := h.exists_call hskew
    rw [hcall.skew?_eq] at hskew
    obtain ⟨hremote, hodd⟩ :=
      (hnested.exists_skew?_iff (hsigned x hcall)).1 ⟨skew, hskew, haddressed⟩
    exact hodd (heven x hcall hremote)

/-- A report that stays as it is below a skew that moves nothing is settled. -/
theorem settled_of_correct (habove : MovesNothing above) (hsame : (r.correct above).1 = r) :
    r.Settled := by
  intro own hown
  rw [Bool.eq_false_iff]
  intro haddressed
  rw [correct_eq, habove.setBelow, hown] at hsame
  exact h.adjust_ne hown haddressed hsame

end NestsCalls

end Report

namespace Trace

variable {trace : Trace}

/-- A trace that fits into one tree is only arranged exactly if its spans are settled. -/
theorem FitsTree.correctSkew_perm_iff_settled (h : FitsTree trace)
    (hnests : ∀ r ∈ trace, r.NestsCalls) :
    (correctSkew trace).value.Perm trace ↔ ∀ r ∈ trace, r.Settled := by
  constructor
  · intro hperm
    obtain ⟨rs, above, horder, hreach, hvalue⟩ := h.correctSkew_eq
    have hsame : ∀ r ∈ trace, ∀ above, Reaches trace r above → (r.correct above).1 = r := by
      intro r hr x hx
      obtain rfl := (hreach r hr).unique hx
      have hmem : (r.correct (above r)).1 ∈ (correctSkew trace).value := by
        rw [hvalue]
        exact List.mem_map.2 ⟨r, horder.perm.mem_iff.2 hr, rfl⟩
      exact h.eq_of_id_eq (hperm.subset hmem) hr (Report.retimed_correct (above r) r).id
    have hsettled : ∀ r ∈ trace, ∀ above, Reaches trace r above → Report.MovesNothing above →
        r.Settled :=
      fun r hr x hx habove => (hnests r hr).settled_of_correct habove (hsame r hr x hx)
    exact fun r hr => hsettled r hr _ (hreach r hr) ((hreach r hr).movesNothing h hsettled)
  · exact fun hsettled => (h.correctSkew_of_settled hsettled).perm

/-- A trace of nested calls is only arranged exactly if each call between two hosts is even: that
the server works within the time that the client waits is not enough. The times of calls are taken
to be signed numbers, so that nothing a skew is worked out from overflows. -/
theorem correctSkew_perm_iff (trace : Trace) (hnests : ∀ r ∈ trace, r.NestsCalls)
    (hsigned : ∀ r ∈ trace, ∀ x, r.HasCall x → x.Signed) :
    (correctSkew trace).value.Perm trace
      ↔ (FitsTree trace → ∀ r ∈ trace, ∀ x, r.HasCall x → x.IsRemote → x.Even) := by
  by_cases h : FitsTree trace
  · rw [h.correctSkew_perm_iff_settled hnests]
    exact ⟨fun hsettled _ r hr => ((hnests r hr).settled_iff (hsigned r hr)).1 (hsettled r hr),
      fun heven r hr => ((hnests r hr).settled_iff (hsigned r hr)).2 (heven h r hr)⟩
  · rw [correctSkew_of_not_fitsTree h]
    exact ⟨fun _ hfits => absurd hfits h, fun _ => .refl trace⟩

/-- The server works in the middle of the time that the client waits. -/
theorem correctSkew_perm_iff_halfway :
    let trace := [Report.ofCall 1 none (.between .web .app 100 120 180 200)]
    (∀ r ∈ trace, r.NestsCalls) ∧ (∀ r ∈ trace, ∀ x, r.HasCall x → x.Signed)
      ∧ (correctSkew trace).value.Perm trace := by
  intro trace
  have hcall := Report.hasCall_ofCall 1 none .web .app 100 120 180 200
  have hnests : ∀ r ∈ trace, r.NestsCalls := by
    intro r hr _
    obtain rfl := List.mem_singleton.1 hr
    exact ⟨_, hcall, by constructor <;> decide +kernel⟩
  have hsigned : ∀ r ∈ trace, ∀ x, r.HasCall x → x.Signed := by
    intro r hr x hx core
    obtain rfl := List.mem_singleton.1 hr
    obtain rfl := hcall.unique hx
    cases core <;> decide +kernel
  refine ⟨hnests, hsigned, (correctSkew_perm_iff trace hnests hsigned).2 fun _ r hr x hx _ => ?_⟩
  obtain rfl := List.mem_singleton.1 hr
  obtain rfl := hcall.unique hx
  exact ⟨20, rfl, .inl rfl⟩

/-- The way back takes longer: the server is within the time that the client waits, and still its
clock is set. -/
theorem not_correctSkew_perm : ¬ ∀ trace : Trace, (∀ r ∈ trace, r.Normal) →
    (∀ r ∈ trace, r.NestsCalls) → (correctSkew trace).value.Perm trace := by
  intro h
  have hcall := Report.hasCall_ofCall 1 none .web .app 100 110 120 200
  have hperm := h [.ofCall 1 none (.between .web .app 100 110 120 200)] ?_ ?_
  · rw [List.perm_singleton] at hperm
    exact absurd hperm (by decide +kernel)
  · intro r hr
    obtain rfl := List.mem_singleton.1 hr
    exact ⟨by decide +kernel, .nil, nofun, nofun, nofun⟩
  · intro r hr _
    obtain rfl := List.mem_singleton.1 hr
    exact ⟨_, hcall, by constructor <;> decide +kernel⟩

end Trace

end TraceArchive
