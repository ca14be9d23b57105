import TraceArchive.Proofs.Text.Lowercase
import TraceArchive.Span

set_option autoImplicit false

/-!
Built spans. However a span is built, its events come in ascending order and without hosts, its
name is in lowercase, and neither its timestamp nor its duration is zero.
-/

namespace TraceArchive

/-- The timestamps and durations that builders set are not zero. -/
theorem timestamp?_ne_zero (t : Option UInt64) : timestamp? t ≠ some 0 := by
  cases t <;> simp [timestamp?, Option.filter_eq_some_iff]

theorem timestamp?_eq_self {t : Option UInt64} (h : t ≠ some 0) : timestamp? t = t := by
  cases t with
  | none => rfl
  | some n =>
    have : n ≠ 0 := fun e => h (by rw [e])
    simp [timestamp?, this]

theorem timestamp?_some (t : UInt64) : timestamp? (some t) = if t = 0 then none else some t := by
  by_cases h : t = 0 <;> simp [timestamp?, h]

theorem max_one_eq_ite (n : UInt64) : max 1 n = if 1 ≤ n then n else 1 := rfl

theorem max_one_ne_zero (n : UInt64) : max 1 n ≠ 0 := by
  rw [max_one_eq_ite]
  split
  · next h => rintro rfl; exact absurd h (by decide)
  · decide

theorem max_one_eq_self {n : UInt64} (h : n ≠ 0) : max 1 n = n := by
  rw [max_one_eq_ite, if_pos]
  have : n.toNat ≠ 0 := fun e => h (UInt64.toNat_inj.1 e)
  rw [UInt64.le_iff_toNat_le, UInt64.toNat_one]
  omega

theorem toNat_max_one (n : UInt64) : (max 1 n).toNat = max 1 n.toNat := by
  rw [max_one_eq_ite]
  split
  · next h =>
    rw [UInt64.le_iff_toNat_le, UInt64.toNat_one] at h
    omega
  · next h =>
    rw [UInt64.le_iff_toNat_le, UInt64.toNat_one] at h
    rw [UInt64.toNat_one]
    omega

theorem duration?_ne_zero (d : Option UInt64) : duration? d ≠ some 0 := by
  intro h
  obtain ⟨n, -, hn⟩ := Option.map_eq_some_iff.1 h
  exact max_one_ne_zero n hn

theorem duration?_eq_self {d : Option UInt64} (h : d ≠ some 0) : duration? d = d := by
  cases d with
  | none => rfl
  | some n =>
    have hn : n ≠ 0 := fun e => h (by rw [e])
    rw [duration?, Option.map_some, max_one_eq_self hn]

theorem spanName?_eq_some {name s : String} (h : spanName? name = some s) :
    s ≠ "" ∧ Text.lowercase s = s := by
  refine ⟨spanName?_ne_empty h, ?_⟩
  simp only [spanName?] at h
  split at h
  · cases h
  · obtain rfl := Option.some.inj h
    exact Text.lowercase_lowercase name

theorem spanName?_eq_self {name : String} (h : name ≠ "" ∧ Text.lowercase name = name) :
    spanName? name = some name := by
  rw [spanName?, if_neg h.1, h.2]

theorem bind_spanName?_eq_self {o : Option String}
    (h : ∀ name, o = some name → name ≠ "" ∧ Text.lowercase name = name) :
    o.bind spanName? = o := by
  cases o with
  | none => rfl
  | some name => exact spanName?_eq_self (h name rfl)

namespace Span

/-- What the calls of a builder make of a blank span. -/
inductive Drafted : Span → Prop where
  | blank : Drafted blank
  | traceId {s : Span} (id : TraceId) : Drafted s → Drafted { s with traceId := id }
  | id {s : Span} (id : UInt64) : Drafted s → Drafted { s with id }
  | parentId {s : Span} (id : Option UInt64) : Drafted s → Drafted { s with parentId := id }
  | kind {s : Span} (kind : Option Kind) : Drafted s → Drafted { s with kind }
  | name {s : Span} (name : String) : Drafted s → Drafted (s.withName name)
  | timestamp {s : Span} (t : Option UInt64) : Drafted s → Drafted (s.withTimestamp t)
  | duration {s : Span} (d : Option UInt64) : Drafted s → Drafted (s.withDuration d)
  | localEndpoint {s : Span} (e : Option Endpoint) :
      Drafted s → Drafted { s with localEndpoint := e }
  | remoteEndpoint {s : Span} (e : Option Endpoint) :
      Drafted s → Drafted { s with remoteEndpoint := e }
  | event {s : Span} (t : UInt64) (value : String) : Drafted s → Drafted (s.addEvent t value)
  | tag {s : Span} (key value : String) : Drafted s → Drafted (s.putTag key value)
  | debug {s : Span} (debug : Bool) : Drafted s → Drafted { s with debug }
  | shared {s : Span} (shared : Bool) : Drafted s → Drafted { s with shared }

/-- A span that a builder has finished. -/
def Built (s : Span) : Prop := ∃ draft, Drafted draft ∧ s = draft.tidy

structure Normal (s : Span) : Prop where
  events : Ascending s.events
  hostless : ∀ e ∈ s.events, e.endpoint = none
  name : ∀ name, s.name = some name → name ≠ "" ∧ Text.lowercase name = name
  timestamp : s.timestamp ≠ some 0
  duration : s.duration ≠ some 0

namespace Drafted

theorem hostless {s : Span} (h : Drafted s) : ∀ e ∈ s.events, e.endpoint = none := by
  induction h with
  | blank => simp [Span.blank]
  | event t value _ ih =>
    intro e he
    rcases List.mem_append.1 he with he | he
    · exact ih e he
    · obtain rfl := List.mem_singleton.1 he
      rfl
  | _ => assumption

theorem name_lower {s : Span} (h : Drafted s) :
    ∀ name, s.name = some name → name ≠ "" ∧ Text.lowercase name = name := by
  induction h with
  | blank => simp [Span.blank]
  | name n _ _ => exact fun name hname => spanName?_eq_some hname
  | _ => assumption

theorem timestamp_ne_zero {s : Span} (h : Drafted s) : s.timestamp ≠ some 0 := by
  induction h with
  | blank => simp [Span.blank]
  | timestamp t _ _ => exact timestamp?_ne_zero t
  | _ => assumption

theorem duration_ne_zero {s : Span} (h : Drafted s) : s.duration ≠ some 0 := by
  induction h with
  | blank => simp [Span.blank]
  | duration d _ _ => exact duration?_ne_zero d
  | _ => assumption

theorem normal_tidy {s : Span} (h : Drafted s) : s.tidy.Normal where
  events := Ascending.ascending_ofList _
  hostless e he := h.hostless e (Ascending.mem_ofList.1 he)
  name := h.name_lower
  timestamp := h.timestamp_ne_zero
  duration := h.duration_ne_zero

end Drafted

theorem Built.normal {s : Span} (h : s.Built) : s.Normal := by
  obtain ⟨draft, hd, rfl⟩ := h
  exact hd.normal_tidy

end Span

end TraceArchive
