import TraceArchive.Proofs.Report.Clocks

set_option autoImplicit false

/-!
A server works within the time that its client waits. Where the hosts of a call disagree about the
time this need not be so, but it is so again once the clocks are corrected: the skew from above
moves both events of a host alike, and what is left of the call's own skew puts the work of the
server into the middle of the time that the client waits.
-/

namespace TraceArchive

namespace CallEvents

/-- How long the client waited. -/
def waited (x : CallEvents) : UInt64 :=
  (x .clientReceive).timestamp - (x .clientSend).timestamp

/-- How long the server worked. -/
def worked (x : CallEvents) : UInt64 :=
  (x .serverSend).timestamp - (x .serverReceive).timestamp

/-- No time of the call is read as a negative number. -/
def Signed (x : CallEvents) : Prop := ∀ core, (x core).timestamp < 0x8000000000000000

/-- The server works within the time that the client waits. -/
structure Nested (x : CallEvents) : Prop where
  arrival : (x .clientSend).timestamp ≤ (x .serverReceive).timestamp
  work : (x .serverReceive).timestamp ≤ (x .serverSend).timestamp
  answer : (x .serverSend).timestamp ≤ (x .clientReceive).timestamp

/-- A call from one host to another. On each of them it ends after it began, and the server does
not work longer than the client waits. -/
structure Crosses (x : CallEvents) (client server : Endpoint) : Prop where
  clientSend : (x .clientSend).endpoint = some client
  clientReceive : (x .clientReceive).endpoint = some client
  serverReceive : (x .serverReceive).endpoint = some server
  serverSend : (x .serverSend).endpoint = some server
  addressed : server.isAddressed = true
  apart : server.sameHost client = false
  wait : (x .clientSend).timestamp ≤ (x .clientReceive).timestamp
  work : (x .serverReceive).timestamp ≤ (x .serverSend).timestamp
  spare : x.worked ≤ x.waited

/-- Two times that are moved alike keep their order and their distance. -/
theorem moved_alike {s t s' t' : UInt64} {offset : Int} (hs : (s'.toNat : Int) = s.toNat - offset)
    (ht : (t'.toNat : Int) = t.toNat - offset) : (s' ≤ t' ↔ s ≤ t) ∧ t' - s' = t - s := by
  refine ⟨by rw [UInt64.le_iff_toNat_le, UInt64.le_iff_toNat_le]; omega, ?_⟩
  apply UInt64.toNat_inj.1
  have := s.toNat_lt
  have := t.toNat_lt
  have := s'.toNat_lt
  have := t'.toNat_lt
  rw [UInt64.toNat_sub, UInt64.toNat_sub]
  omega

namespace Signed

variable {x : CallEvents} (h : x.Signed)

include h

theorem lt (core : CoreEvent) : (x core).timestamp.toNat < 0x8000000000000000 :=
  UInt64.lt_iff_toNat_lt.1 (h core)

theorem signed_eq (core : CoreEvent) : signed (x core).timestamp = (x core).timestamp.toNat :=
  (TraceArchive.signed_eq _).trans (if_pos (h.lt core))

theorem forth_eq :
    x.forth = (x .serverReceive).timestamp.toNat - (x .clientSend).timestamp.toNat := by
  rw [forth, h.signed_eq, h.signed_eq]

theorem back_eq :
    x.back = (x .clientReceive).timestamp.toNat - (x .serverSend).timestamp.toNat := by
  rw [back, h.signed_eq, h.signed_eq]

end Signed

namespace Crosses

variable {x : CallEvents} {client server : Endpoint} {skew : Skew} (h : x.Crosses client server)

include h

theorem server?_eq : x.server? = some server := by
  rw [server?, h.serverReceive, Option.some_or]

theorem client?_eq : x.client? = some client := by
  rw [client?, h.clientSend, Option.some_or]

/-- A skew moves both events of a host alike. -/
theorem moved (hexact : ∀ core, skew.ExactAt (x core)) :
    (x.moved skew).Crosses client server ∧ (x.moved skew).waited = x.waited
      ∧ (x.moved skew).worked = x.worked := by
  -- From both times of a host the same is taken: the offset, or nothing.
  have htime : ∀ core, (((x.moved skew) core).timestamp.toNat : Int) = (x core).timestamp.toNat
      - if Report.onHost skew (x core).endpoint then skew.offset else 0 := by
    intro core
    cases hon : Report.onHost skew (x core).endpoint with
    | true => rw [CallEvents.moved, (hexact core).toNat_move hon, if_pos rfl]
    | false => rw [CallEvents.moved, Skew.move_eq_self hon, if_neg Bool.false_ne_true, Int.sub_zero]
  have hcs := htime .clientSend
  have hcr := htime .clientReceive
  have hsr := htime .serverReceive
  have hss := htime .serverSend
  rw [h.clientSend] at hcs
  rw [h.clientReceive] at hcr
  rw [h.serverReceive] at hsr
  rw [h.serverSend] at hss
  obtain ⟨hwait, hwaited⟩ := moved_alike hcs hcr
  obtain ⟨hwork, hworked⟩ := moved_alike hsr hss
  have hwaited : (x.moved skew).waited = x.waited := hwaited
  have hworked : (x.moved skew).worked = x.worked := hworked
  refine ⟨?_, hwaited, hworked⟩
  constructor
  · rw [CallEvents.moved, Skew.endpoint_move, h.clientSend]
  · rw [CallEvents.moved, Skew.endpoint_move, h.clientReceive]
  · rw [CallEvents.moved, Skew.endpoint_move, h.serverReceive]
  · rw [CallEvents.moved, Skew.endpoint_move, h.serverSend]
  · exact h.addressed
  · exact h.apart
  · exact hwait.2 h.wait
  · exact hwork.2 h.work
  · rw [hwaited, hworked]
    exact h.spare

/-- What the client waits longer than the server works is the time of both ways. -/
theorem forth_add_back_nonneg (hsigned : x.Signed) : 0 ≤ x.forth + x.back := by
  have hwait := UInt64.le_iff_toNat_le.1 h.wait
  have hwork := UInt64.le_iff_toNat_le.1 h.work
  have hspare := UInt64.le_iff_toNat_le.1 h.spare
  rw [waited, worked, UInt64.toNat_sub_of_le _ _ h.wait, UInt64.toNat_sub_of_le _ _ h.work]
    at hspare
  rw [hsigned.forth_eq, hsigned.back_eq]
  omega

theorem skew?_eq_some_iff (hsigned : x.Signed) : x.skew? = some skew
    ↔ x.offset ≠ 0 ∧ skew.endpoint = server ∧ skew.offset = x.offset := by
  rw [CallEvents.skew?_eq_some_iff, h.server?_eq, h.client?_eq]
  constructor
  · rintro ⟨-, hserver, -, -, -, hne, hoffset⟩
    exact ⟨hne, (Option.some.inj hserver).symm, hoffset⟩
  · rintro ⟨hne, rfl, hoffset⟩
    exact ⟨client, rfl, rfl, h.apart, h.forth_add_back_nonneg hsigned, hne, hoffset⟩

/-- The skew of a call sets the server's events to times within the client's. -/
theorem exactAt_skew (hsigned : x.Signed) (hskew : x.skew? = some skew) (core : CoreEvent) :
    skew.ExactAt (x core) := by
  intro hon
  obtain ⟨-, hendpoint, hoffset⟩ := (h.skew?_eq_some_iff hsigned).1 hskew
  rw [hoffset]
  have hnonneg := h.forth_add_back_nonneg hsigned
  have hhalf := x.offset_eq
  have hforth := hsigned.forth_eq
  have hback := hsigned.back_eq
  have hwork := UInt64.le_iff_toNat_le.1 h.work
  have hcr := hsigned.lt .clientReceive
  have hsr := hsigned.lt .serverReceive
  have hss := hsigned.lt .serverSend
  cases core with
  | serverReceive => apply toNat_setBack_of_le <;> omega
  | serverSend => apply toNat_setBack_of_le <;> omega
  | clientSend =>
    rw [h.clientSend, Report.onHost, Option.any_some, hendpoint, h.apart] at hon
    cases hon
  | clientReceive =>
    rw [h.clientReceive, Report.onHost, Option.any_some, hendpoint, h.apart] at hon
    cases hon

theorem nested_moved_skew (hsigned : x.Signed) (hskew : x.skew? = some skew) :
    (x.moved skew).Nested := by
  have hexact := h.exactAt_skew hsigned hskew
  obtain ⟨-, hendpoint, hoffset⟩ := (h.skew?_eq_some_iff hsigned).1 hskew
  have hserver : Report.onHost skew (some server) = true := by
    rw [Report.onHost, Option.any_some, hendpoint, Endpoint.sameHost_self, h.addressed]
  have hclient : Report.onHost skew (some client) = false := by
    rw [Report.onHost, Option.any_some, hendpoint, h.apart]
  have hnonneg := h.forth_add_back_nonneg hsigned
  have hhalf := x.offset_eq
  have hforth := hsigned.forth_eq
  have hback := hsigned.back_eq
  have hwork := UInt64.le_iff_toNat_le.1 h.work
  have hcs : (x.moved skew) .clientSend = x .clientSend :=
    Skew.move_eq_self (h.clientSend ▸ hclient)
  have hcr : (x.moved skew) .clientReceive = x .clientReceive :=
    Skew.move_eq_self (h.clientReceive ▸ hclient)
  have hsr : (((x.moved skew) .serverReceive).timestamp.toNat : Int) = _ :=
    (hexact .serverReceive).toNat_move (h.serverReceive ▸ hserver)
  have hss : (((x.moved skew) .serverSend).timestamp.toNat : Int) = _ :=
    (hexact .serverSend).toNat_move (h.serverSend ▸ hserver)
  constructor <;> apply UInt64.le_iff_toNat_le.2
  · rw [hcs]
    omega
  · omega
  · rw [hcr]
    omega

/-- Without a skew both ways take the same time. -/
theorem nested_of_offset_eq_zero (hsigned : x.Signed) (h0 : x.offset = 0) : x.Nested := by
  have hnonneg := h.forth_add_back_nonneg hsigned
  have hhalf := x.offset_eq
  have hforth := hsigned.forth_eq
  have hback := hsigned.back_eq
  refine ⟨UInt64.le_iff_toNat_le.2 ?_, h.work, UInt64.le_iff_toNat_le.2 ?_⟩ <;> omega

end Crosses

end CallEvents

namespace Report

variable {r : Report} {x : CallEvents} {client server : Endpoint}

/-- A call from one host to another is one still below a skew that can be taken from it. -/
theorem HasCall.setBelow_crosses {above : Option Skew} (hcall : r.HasCall x)
    (hcross : x.Crosses client server) (hexact : ∀ skew, above = some skew → skew.Exact r) :
    ∃ y, (r.setBelow above).HasCall y ∧ y.Crosses client server
      ∧ y.waited = x.waited ∧ y.worked = x.worked := by
  cases above with
  | none => exact ⟨x, hcall, hcross, rfl, rfl⟩
  | some skew =>
    exact ⟨x.moved skew, hcall.adjust skew,
      hcross.moved fun core => hexact skew rfl _ (hcall.mem core)⟩

/-- Correcting a call for its own skew nests it. -/
theorem HasCall.correct_nested {above : Option Skew} (hcall : (r.setBelow above).HasCall x)
    (hcross : x.Crosses client server) (hsigned : x.Signed) :
    ∃ y, (r.correct above).1.HasCall y ∧ y.Nested ∧ y.waited = x.waited ∧ y.worked = x.worked := by
  rw [correct_eq, hcall.skew?_eq]
  cases hskew : x.skew? with
  | none =>
    refine ⟨x, hcall, hcross.nested_of_offset_eq_zero hsigned ?_, rfl, rfl⟩
    by_contra hne
    have hown : x.skew? = some ⟨server, x.offset⟩ :=
      (hcross.skew?_eq_some_iff hsigned).2 ⟨hne, rfl, rfl⟩
    rw [hown] at hskew
    cases hskew
  | some own =>
    obtain ⟨-, hkept⟩ := hcross.moved (hcross.exactAt_skew hsigned hskew)
    exact ⟨x.moved own, hcall.adjust own, hcross.nested_moved_skew hsigned hskew, hkept⟩

end Report

namespace Trace

/-- After correction the server works within the time that its client waits, and both take as long
as before. This holds wherever in its trace the call is, and whatever skew comes from above. -/
theorem correctSkew_nested {trace : Trace} {r : Report} {x : CallEvents} {client server : Endpoint}
    (h : FitsTree trace) (hr : r ∈ trace) (hcall : r.HasCall x) (hcross : x.Crosses client server)
    (hexact : ∀ skew, Reaches trace r (some skew) → skew.Exact r)
    (hsigned : ∀ above y, Reaches trace r above → (r.setBelow above).HasCall y → y.Signed) :
    ∃ s ∈ (correctSkew trace).value, s.Retimed r
      ∧ ∃ y, s.HasCall y ∧ y.Nested ∧ y.waited = x.waited ∧ y.worked = x.worked := by
  obtain ⟨rs, above, horder, hreach, hvalue⟩ := h.correctSkew_eq
  have hreach := hreach r hr
  have hexact : ∀ skew, above r = some skew → skew.Exact r :=
    fun skew hskew => hexact skew (hskew ▸ hreach)
  obtain ⟨y, hy, hycross, hywaited, hyworked⟩ := hcall.setBelow_crosses hcross hexact
  obtain ⟨z, hz, hnested, hzwaited, hzworked⟩ :=
    hy.correct_nested hycross (hsigned _ y hreach hy)
  refine ⟨(r.correct (above r)).1, ?_, Report.retimed_correct _ r, z, hz, hnested,
    hzwaited.trans hywaited, hzworked.trans hyworked⟩
  rw [hvalue]
  exact List.mem_map.2 ⟨r, horder.perm.mem_iff.2 hr, rfl⟩

theorem correctSkew_nested_appToDb :
    FitsTree skewedCalls ∧ ∃ s ∈ (correctSkew skewedCalls).value,
      s.Retimed (.ofCall 2 (some 1) .appToDb)
        ∧ ∃ y, s.HasCall y ∧ y.Nested ∧ y.waited = 30 ∧ y.worked = 10 := by
  have hreach := reaches_appToDb
  have hcall := Report.hasCall_ofCall 2 (some 1) .app .db 1110 3120 3130 1140
  have hcross : CallEvents.appToDb.Crosses .app .db := by constructor <;> decide +kernel
  refine ⟨by decide +kernel,
    correctSkew_nested (by decide +kernel) (by decide +kernel) hcall hcross ?_ ?_⟩
  · intro skew hskew
    obtain rfl := Option.some.inj (hreach.unique hskew)
    decide +kernel
  · intro above y habove hy
    obtain rfl := hreach.unique habove
    obtain rfl := (hcall.adjust _).unique hy
    intro core
    cases core <;> decide +kernel

end Trace

end TraceArchive
