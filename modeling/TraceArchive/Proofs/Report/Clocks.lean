import TraceArchive.Proofs.Trace.Skew

set_option autoImplicit false

/-!
The clocks of a call. The skew of a report hangs on its four core events alone: on how long the way
to the server and the way back seem to take by the two clocks. Setting a host back moves its events
and leaves the others where they are.
-/

namespace TraceArchive

/-! Timestamps as signed numbers, and setting them back. -/

theorem signed_eq (t : UInt64) : signed t
    = if t.toNat < 0x8000000000000000 then (t.toNat : Int) else t.toNat - 0x10000000000000000 := by
  have hsize : (UInt64.size : Int) = 0x10000000000000000 := rfl
  have hlt := t.toNat_lt
  refine (Int.bmod_eq_iff (by decide)).2 ?_
  rw [hsize]
  split <;> omega

theorem toNat_setBack (t : UInt64) (offset : Int) : ((setBack t offset).toNat : Int)
    = max 0 (min (t.toNat + min (-offset) 0x7FFFFFFFFFFFFFFF) 0xFFFFFFFFFFFFFFFF) := by
  have hmax : Int64.maxValue.toInt = 0x7FFFFFFFFFFFFFFF := rfl
  have hlast : lastInstant.toNat = 0xFFFFFFFFFFFFFFFF := rfl
  unfold setBack
  simp only [hmax, hlast]
  split
  · simp
    omega
  · split
    · rw [UInt64.toNat_ofNat']
      omega
    · rw [hlast]
      omega

theorem toNat_setBack_of_le {t : UInt64} {offset : Int} (hoffset : -offset ≤ 0x7FFFFFFFFFFFFFFF)
    (hfirst : offset ≤ t.toNat) (hlast : t.toNat - offset ≤ 0xFFFFFFFFFFFFFFFF) :
    ((setBack t offset).toNat : Int) = t.toNat - offset := by
  rw [toNat_setBack]
  omega

namespace Endpoint

/-- Clocks belong to addresses: a host without one is on no host, not even on its own. -/
def isAddressed (e : Endpoint) : Bool := e.ipv6.isSome || e.ipv4.isSome

theorem sameHost_self (e : Endpoint) : e.sameHost e = e.isAddressed := by
  simp [sameHost, isAddressed]

theorem isAddressed_of_sameHost {a b : Endpoint} (h : a.sameHost b = true) :
    a.isAddressed = true := by
  simp only [sameHost, Bool.or_eq_true, Bool.and_eq_true] at h
  simp only [isAddressed, Bool.or_eq_true]
  exact h.imp And.left And.left

end Endpoint

namespace Skew

/-- An event after its host was set back. -/
def move (skew : Skew) (e : Event) : Event :=
  if Report.onHost skew e.endpoint then { e with timestamp := setBack e.timestamp skew.offset }
  else e

variable {skew : Skew} {e : Event}

@[simp] theorem value_move : (skew.move e).value = e.value := by
  unfold move
  split <;> rfl

@[simp] theorem endpoint_move : (skew.move e).endpoint = e.endpoint := by
  unfold move
  split <;> rfl

theorem move_eq_self (h : Report.onHost skew e.endpoint = false) : skew.move e = e := by
  rw [move, h, if_neg Bool.false_ne_true]

theorem timestamp_move (h : Report.onHost skew e.endpoint = true) :
    (skew.move e).timestamp = setBack e.timestamp skew.offset := by
  rw [move, if_pos h]

/-- If the event is on the host, it is not set back beyond the ends of time. -/
def ExactAt (skew : Skew) (e : Event) : Prop :=
  Report.onHost skew e.endpoint = true →
    ((setBack e.timestamp skew.offset).toNat : Int) = e.timestamp.toNat - skew.offset

instance (skew : Skew) (e : Event) : Decidable (skew.ExactAt e) :=
  inferInstanceAs (Decidable (_ → _))

theorem ExactAt.toNat_move (h : skew.ExactAt e) (hon : Report.onHost skew e.endpoint = true) :
    ((skew.move e).timestamp.toNat : Int) = e.timestamp.toNat - skew.offset := by
  rw [timestamp_move hon]
  exact h hon

/-- No event of a report is set back beyond the ends of time. -/
def Exact (skew : Skew) (r : Report) : Prop := ∀ e ∈ r.events, skew.ExactAt e

instance (skew : Skew) (r : Report) : Decidable (skew.Exact r) :=
  inferInstanceAs (Decidable (∀ e ∈ r.events, skew.ExactAt e))

end Skew

/-- The four core events of a call. -/
abbrev CallEvents := CoreEvent → Event

namespace CallEvents

/-- A call between two hosts, by the times of its events. -/
def between (client server : Endpoint) (cs sr ss cr : UInt64) : CallEvents
  | .clientSend => { timestamp := cs, value := "cs", endpoint := some client }
  | .serverReceive => { timestamp := sr, value := "sr", endpoint := some server }
  | .serverSend => { timestamp := ss, value := "ss", endpoint := some server }
  | .clientReceive => { timestamp := cr, value := "cr", endpoint := some client }

def server? (x : CallEvents) : Option Endpoint :=
  (x .serverReceive).endpoint.or (x .serverSend).endpoint

def client? (x : CallEvents) : Option Endpoint :=
  (x .clientSend).endpoint.or (x .clientReceive).endpoint

/-- How long the way to the server takes by the two clocks. -/
def forth (x : CallEvents) : Int :=
  signed (x .serverReceive).timestamp - signed (x .clientSend).timestamp

/-- How long the way back takes by the two clocks. -/
def back (x : CallEvents) : Int :=
  signed (x .clientReceive).timestamp - signed (x .serverSend).timestamp

/-- How far the server's clock is ahead if both ways take the same time. -/
def offset (x : CallEvents) : Int := x.forth - (x.forth + x.back) / 2

theorem offset_eq (x : CallEvents) : x.offset = x.forth - (x.forth + x.back) / 2 := rfl

def skew? (x : CallEvents) : Option Skew :=
  x.server?.bind fun server => x.client?.bind fun client =>
    if server.sameHost client then none
    else if x.forth + x.back < 0 then none
    else if x.offset = 0 then none else some { endpoint := server, offset := x.offset }

/-- The call after a host was set back. -/
def moved (x : CallEvents) (skew : Skew) : CallEvents := fun core => skew.move (x core)

variable {x : CallEvents} {skew : Skew}

theorem skew?_eq_some_iff : x.skew? = some skew ↔ ∃ client, x.server? = some skew.endpoint
    ∧ x.client? = some client ∧ skew.endpoint.sameHost client = false ∧ 0 ≤ x.forth + x.back
    ∧ x.offset ≠ 0 ∧ skew.offset = x.offset := by
  obtain ⟨endpoint, offset⟩ := skew
  simp only [skew?, Option.bind_eq_some_iff, Option.ite_none_left_eq_some, Option.some.injEq,
    Skew.mk.injEq, Int.not_lt, Bool.not_eq_true]
  constructor
  · rintro ⟨server, hserver, client, hclient, hapart, hnonneg, hne, rfl, rfl⟩
    exact ⟨client, hserver, hclient, hapart, hnonneg, hne, rfl⟩
  · rintro ⟨client, hserver, hclient, hapart, hnonneg, hne, hoffset⟩
    exact ⟨endpoint, hserver, client, hclient, hapart, hnonneg, hne, rfl, hoffset.symm⟩

end CallEvents

namespace Report

variable {r : Report} {skew : Skew} {x y : CallEvents}

/-- The events of a report whose host was set back. -/
theorem mem_events_adjust {e : Event} :
    e ∈ (r.adjust skew).events ↔ ∃ f ∈ r.events, skew.move f = e := by
  unfold adjust
  simp only
  split
  · rw [mem_events_tidy, List.mem_map]
    rfl
  · next hmoved =>
    -- Where no event is on the host, its lists are made tidy at most.
    have hstays : ∀ f ∈ r.events, skew.move f = f := by
      intro f hf
      apply Skew.move_eq_self
      by_contra hon
      have : f ∈ r.events.filter fun e => onHost skew e.endpoint :=
        List.mem_filter.2 ⟨hf, by simpa using hon⟩
      simp [List.ne_nil_of_mem this] at hmoved
    have hunmoved : ∀ events : List Event, (∀ e, e ∈ events ↔ e ∈ r.events) →
        (e ∈ events ↔ ∃ f ∈ r.events, skew.move f = e) := by
      intro events hevents
      rw [hevents]
      refine ⟨fun he => ⟨e, he, hstays e he⟩, ?_⟩
      rintro ⟨f, hf, rfl⟩
      exact (hstays f hf).symm ▸ hf
    split
    · split
      · exact hunmoved _ fun _ => mem_events_tidy
      · exact hunmoved _ fun _ => .rfl
    · exact hunmoved _ fun _ => .rfl

/-- A skew of a host without an address moves nothing. -/
theorem adjust_of_not_isAddressed (h : skew.endpoint.isAddressed = false) : r.adjust skew = r := by
  have hnever : ∀ e, onHost skew e = false := by
    intro e
    cases e with
    | none => rfl
    | some e =>
      cases he : skew.endpoint.sameHost e with
      | false => simpa [onHost] using he
      | true => rw [Endpoint.isAddressed_of_sameHost he] at h; cases h
  simp [adjust, hnever]

/-- Where there is a skew, all four core events are told. -/
theorem exists_eventNamed?_of_skew? (h : r.skew? = some skew) (core : CoreEvent) :
    ∃ e, r.eventNamed? core = some e := by
  obtain ⟨cs, hcs, h⟩ := Option.bind_eq_some_iff.1 h
  obtain ⟨cr, hcr, h⟩ := Option.bind_eq_some_iff.1 h
  obtain ⟨sr, hsr, h⟩ := Option.bind_eq_some_iff.1 h
  obtain ⟨ss, hss, -⟩ := Option.bind_eq_some_iff.1 h
  cases core with
  | clientSend => exact ⟨cs, hcs⟩
  | serverReceive => exact ⟨sr, hsr⟩
  | serverSend => exact ⟨ss, hss⟩
  | clientReceive => exact ⟨cr, hcr⟩

theorem mem_of_eventNamed? {core : CoreEvent} {e : Event} (h : r.eventNamed? core = some e) :
    e ∈ r.events ∧ e.value = core.name :=
  ⟨List.mem_of_find?_eq_some h, by simpa using List.find?_some h⟩

/-- The report tells all four core events of a call, each of them once. -/
def HasCall (r : Report) (x : CallEvents) : Prop :=
  ∀ core, x core ∈ r.events ∧ ∀ e ∈ r.events, e.value = core.name ↔ e = x core

/-- A report that tells nothing but a call. -/
def ofCall (id : UInt64) (parentId : Option UInt64) (x : CallEvents) : Report where
  traceId := ⟨0, 1⟩
  id
  parentId
  events := [x .clientSend, x .serverReceive, x .serverSend, x .clientReceive]

theorem hasCall_ofCall (id : UInt64) (parentId : Option UInt64) (client server : Endpoint)
    (cs sr ss cr : UInt64) : (ofCall id parentId (.between client server cs sr ss cr)).HasCall
      (.between client server cs sr ss cr) := by
  intro core
  cases core <;> simp [ofCall, CallEvents.between, CoreEvent.name]

namespace HasCall

variable (h : r.HasCall x)

include h

theorem mem (core : CoreEvent) : x core ∈ r.events := (h core).1

theorem value (core : CoreEvent) : (x core).value = core.name :=
  ((h core).2 _ (h.mem core)).2 rfl

theorem eq_of_value {core : CoreEvent} {e : Event} (he : e ∈ r.events)
    (hvalue : e.value = core.name) : e = x core :=
  ((h core).2 e he).1 hvalue

theorem unique (hy : r.HasCall y) : x = y :=
  funext fun core => hy.eq_of_value (h.mem core) (h.value core)

theorem eventNamed? (core : CoreEvent) : r.eventNamed? core = some (x core) := by
  cases hfind : r.eventNamed? core with
  | none => exact absurd (h.value core) (by simpa using List.find?_eq_none.1 hfind _ (h.mem core))
  | some e =>
    obtain ⟨he, hvalue⟩ := mem_of_eventNamed? hfind
    rw [h.eq_of_value he hvalue]

/-- What the client waited longer than the server worked is the time of both ways. -/
theorem skew?_eq : r.skew? = x.skew? := by
  have hspare : signed (x .clientReceive).timestamp - signed (x .clientSend).timestamp
      - (signed (x .serverSend).timestamp - signed (x .serverReceive).timestamp)
      = x.forth + x.back := by
    rw [CallEvents.forth, CallEvents.back]
    omega
  have hlonger : signed (x .clientReceive).timestamp - signed (x .clientSend).timestamp
      < signed (x .serverSend).timestamp - signed (x .serverReceive).timestamp
      ↔ x.forth + x.back < 0 := by
    omega
  have hoffset : signed (x .serverReceive).timestamp - (x.forth + x.back) / 2
      - signed (x .clientSend).timestamp = x.offset := by
    rw [CallEvents.offset, CallEvents.forth, CallEvents.back]
    omega
  simp only [Report.skew?, h.eventNamed?, Option.bind_eq_bind, Option.bind_some, hspare, hlonger,
    hoffset]
  rfl

/-- The report keeps its call when a host is set back. -/
theorem adjust (skew : Skew) : (r.adjust skew).HasCall (x.moved skew) := by
  refine fun core => ⟨mem_events_adjust.2 ⟨x core, h.mem core, rfl⟩, fun e he => ?_⟩
  obtain ⟨f, hf, rfl⟩ := mem_events_adjust.1 he
  constructor
  · intro hvalue
    rw [Skew.value_move] at hvalue
    rw [h.eq_of_value hf hvalue]
    rfl
  · intro hmoved
    rw [hmoved, CallEvents.moved, Skew.value_move, h.value]

end HasCall

end Report

/-! Two calls from host to host. The clock of each host is ahead of the one before. -/

def Endpoint.web : Endpoint := { service := "web", ipv4 := some ⟨#v[10, 0, 0, 1]⟩ }

def Endpoint.app : Endpoint := { service := "app", ipv4 := some ⟨#v[10, 0, 0, 2]⟩ }

def Endpoint.db : Endpoint := { service := "db", ipv4 := some ⟨#v[10, 0, 0, 3]⟩ }

def CallEvents.webToApp : CallEvents := .between .web .app 100 1100 1150 200

def CallEvents.appToDb : CallEvents := .between .app .db 1110 3120 3130 1140

namespace Trace

def skewedCalls : Trace := [.ofCall 2 (some 1) .appToDb, .ofCall 1 none .webToApp]

theorem reaches_webToApp : Reaches skewedCalls (.ofCall 1 none .webToApp) none :=
  .root (by decide +kernel)

theorem reaches_appToDb : Reaches skewedCalls (.ofCall 2 (some 1) .appToDb) (some ⟨.app, 975⟩) := by
  have hpassed : ((Report.ofCall 1 none .webToApp).correct none).2 = some ⟨.app, 975⟩ := by
    decide +kernel
  rw [← hpassed]
  exact .child (by decide +kernel) reaches_webToApp

end Trace

end TraceArchive
