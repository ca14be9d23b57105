import TraceArchive.Proofs.Report.Homes
import TraceArchive.Proofs.Report.Merging
import TraceArchive.Proofs.Span.Report

set_option autoImplicit false

/-!
Spans that show one side of a call from its start to its end. The report of such a span has two
core events, and the flag for the other end where that end is known; it tells the time of the call
unless the span is the server's side of a shared one.
-/

namespace TraceArchive

theorem addTime_sub {start finish : UInt64} (h : start < finish) :
    addTime start (finish - start) = finish := by
  have hlt : start.toNat < finish.toNat := UInt64.lt_iff_toNat_lt.1 h
  have hmax : lastInstant.toNat = 18446744073709551615 := rfl
  have hfinish := finish.toNat_lt
  have hsub := UInt64.toNat_sub_of_le finish start (UInt64.le_of_lt h)
  rw [addTime, if_pos (by omega)]
  apply UInt64.toNat_inj.1
  rw [UInt64.toNat_add, hsub]
  omega

theorem sub_ne_zero_of_lt {start finish : UInt64} (h : start < finish) : finish - start ≠ 0 := by
  intro he
  have hlt : start.toNat < finish.toNat := UInt64.lt_iff_toNat_lt.1 h
  have := UInt64.toNat_sub_of_le finish start (UInt64.le_of_lt h)
  rw [he, UInt64.toNat_zero] at this
  omega

namespace Span

/-- The core event with which a side of a call starts. -/
def Kind.start : Kind → CoreEvent
  | .client => .clientSend
  | .server => .serverReceive

/-- The core event with which a side of a call ends. -/
def Kind.finish : Kind → CoreEvent
  | .client => .clientReceive
  | .server => .serverSend

@[simp] theorem Kind.sideOf_start (k : Kind) : Report.sideOf k.start = k := by cases k <;> rfl

@[simp] theorem Kind.sideOf_finish (k : Kind) : Report.sideOf k.finish = k := by cases k <;> rfl

theorem Kind.eq_start_or_finish {k : Kind} {core : CoreEvent} (h : Report.sideOf core = k) :
    core = k.start ∨ core = k.finish := by
  subst h
  cases core <;> simp [Report.sideOf, start, finish]

theorem time_toReport_of_timestamp_eq_none {s : Span} (h : s.timestamp = none) :
    s.toReport.time = (none, none) := by
  simp [Report.time, toReport, Report.tidy, startTime, h, timestamp?]

theorem time_toReport_of_not_ownsTime {s : Span} (h : s.ownsTime = false) :
    s.toReport.time = (none, none) := by
  simp [Report.time, toReport, Report.tidy, h]

theorem coreEvents_eq_nil {s : Span} (h : s.CoreFree) (hk : s.kind = none) : s.coreEvents = [] := by
  apply List.eq_nil_iff_forall_not_mem.2
  intro e he
  obtain ⟨core, t, ht, -⟩ := (mem_coreEvents h).1 he
  cases core <;> simp [kindTime?, hk] at ht

theorem addressTags_eq_nil {s : Span} (h : s.remoteEndpoint = none) : s.addressTags = [] := by
  simp [addressTags, isAddressOnly, h]

/-- A host needs no tag of its own where anything else tells of it. -/
theorem hostTag_eq_nil {s : Span}
    (h : (∃ e, e ∈ s.otherEvents) ∨ (∃ e, e ∈ s.coreEvents) ∨ ∃ t, t ∈ s.textTags) :
    s.hostTag = [] := by
  have : (s.otherEvents.isEmpty && s.textTags.isEmpty && s.coreEvents.isEmpty) = false := by
    rcases h with ⟨e, he⟩ | ⟨e, he⟩ | ⟨t, ht⟩
    · simp [List.ne_nil_of_mem he]
    · simp [List.ne_nil_of_mem he]
    · simp [List.ne_nil_of_mem ht]
  unfold hostTag
  split
  · rw [this, Bool.false_and, if_neg Bool.false_ne_true]
  · rfl

/-- The span shows one side of a call, from its start to its end. -/
structure Shows (s : Span) (k : Kind) (e : Endpoint) (start finish : UInt64) : Prop where
  normal : s.Normal
  coreFree : s.CoreFree
  kind : s.kind = some k
  host : s.localEndpoint = some e
  timestamp : s.timestamp = some start
  duration : s.duration = some (finish - start)
  ahead : start < finish

namespace Shows

variable {s : Span} {k : Kind} {e : Endpoint} {start finish : UInt64}
  (h : s.Shows k e start finish)

include h

theorem kindTime?_eq_some_iff {core : CoreEvent} {t : UInt64} : s.kindTime? core = some t
    ↔ (core = k.start ∧ t = start) ∨ (core = k.finish ∧ t = finish) := by
  have hstart : start ≠ 0 := fun e => h.normal.timestamp (by rw [h.timestamp, e])
  have hne := sub_ne_zero_of_lt h.ahead
  have hsum := addTime_sub h.ahead
  have hstartTime : s.startTime = start := by simp [startTime, h.timestamp]
  have helapsed : s.elapsed = finish - start := by simp [elapsed, h.duration]
  cases k <;> cases core <;>
    simp [kindTime?, h.kind, hstartTime, helapsed, hstart, hne, hsum, Kind.start, Kind.finish,
      eq_comm]

/-- The core events of the report are the start and the end. -/
theorem mem_coreEvents {x : Event} :
    x ∈ s.coreEvents ↔ x = k.start.event ⟨start, e⟩ ∨ x = k.finish.event ⟨finish, e⟩ := by
  have hevent : ∀ core t, s.kindEvent core t = core.event ⟨t, e⟩ := by
    intro core t
    rw [kindEvent, h.host]
    rfl
  simp only [Span.mem_coreEvents h.coreFree, h.kindTime?_eq_some_iff, hevent]
  constructor
  · rintro ⟨core, t, ⟨rfl, rfl⟩ | ⟨rfl, rfl⟩, hx⟩
    · exact .inl hx
    · exact .inr hx
  · rintro (rfl | rfl)
    · exact ⟨_, _, .inl ⟨rfl, rfl⟩, rfl⟩
    · exact ⟨_, _, .inr ⟨rfl, rfl⟩, rfl⟩

theorem mem_addressTags {t : Tag} : t ∈ s.addressTags
    ↔ ∃ remote, s.remoteEndpoint = some remote ∧ t = Tag.address k.remoteFlag remote := by
  have hcore : s.coreEvents ≠ [] := List.ne_nil_of_mem (h.mem_coreEvents.2 (.inl rfl))
  have honly : s.isAddressOnly = false := by simp [isAddressOnly, hcore]
  simp [Span.mem_addressTags, honly, remoteFlag?_eq h.coreFree honly, h.kind]

theorem hostTag_eq_nil : s.hostTag = [] :=
  Span.hostTag_eq_nil (.inr (.inl ⟨_, h.mem_coreEvents.2 (.inl rfl)⟩))

/-- A span that is not shared has the time of the call. -/
theorem time_toReport (hshared : s.shared = false) :
    s.toReport.time = (some start, some (finish - start)) := by
  have hown : s.ownsTime = true := by simp [ownsTime, hshared]
  rw [Report.time, timestamp_toReport h.normal hown, duration_toReport h.normal hown, h.timestamp,
    h.duration]
  intro _
  rw [h.timestamp]
  rfl

end Shows

/-- The server's side of a shared call leaves the time to the client. -/
theorem Shows.time_toReport_of_shared {s : Span} {e : Endpoint} {start finish : UInt64}
    (h : s.Shows .server e start finish) (hshared : s.shared = true) :
    s.toReport.time = (none, none) := by
  apply time_toReport_of_not_ownsTime
  have : s.kindTime? .serverReceive = some start := h.kindTime?_eq_some_iff.2 (.inl ⟨rfl, rfl⟩)
  simp [ownsTime, hshared, coreEvent?_eq h.coreFree, this]

end Span

end TraceArchive
