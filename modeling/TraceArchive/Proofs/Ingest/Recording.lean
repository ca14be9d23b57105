import TraceArchive.Proofs.Ingest.Effect
import TraceArchive.Proofs.Session.Leaving

set_option autoImplicit false

/-!
Recording names in a storage that may fail. All that is recorded are entries of the report that
came in and of stored reports, so a property of the store that these entries do not take away holds
wherever the recording ends or halts.
-/

namespace TraceArchive.Session

/-- Entries that may be recorded without a property of the store being lost. Those of the stored
reports are among them, and an outage has no part in the property. -/
structure Admits (P : Store → Prop) (Entry : String → String → Prop) : Prop where
  outages : ∀ s outages, P s → P { s with outages }
  put : ∀ s service name, Entry service name → P s →
    P { s with services := s.services.put service name }
  stored : ∀ s k r, P s → s.spans.get? k = some r →
    ∀ service name, (service, name) ∈ r.indexEntries → Entry service name

namespace Admits

variable {P : Store → Prop} {Entry : String → String → Prop} (h : Admits P Entry)
include h

theorem getReport (k : Key) :
    (getReport k).Maintains P fun found => ∀ r, found = some r →
      ∀ service name, (service, name) ∈ r.indexEntries → Entry service name := by
  apply (maintains_call _ h.outages).bind
  intro _ _
  apply maintains_get.bind
  exact fun s hs => maintains_pure fun r hr => h.stored s k r hs hr

theorem hasSpanName (service name : String) :
    (hasSpanName service name).Maintains P fun _ => True :=
  (maintains_call _ h.outages).bind fun _ _ => maintains_get.bind fun _ _ => maintains_pure trivial

theorem putSpanName {service name : String} (he : Entry service name) :
    (putSpanName service name).Maintains P fun _ => True := by
  apply (maintains_call _ h.outages).bind
  exact fun _ _ => maintains_modify fun s hs => h.put s service name he hs

theorem recordName {service name : String} (he : Entry service name) :
    (recordName service name).Maintains P fun _ => True := by
  apply (h.hasSpanName service name).bind
  intro listed _
  cases listed with
  | true => exact maintains_pure trivial
  | false => exact h.putSpanName he

variable {r : Report}

theorem recordNames (hr : ∀ service name, (service, name) ∈ r.indexEntries → Entry service name) :
    (recordNames r).Maintains P fun _ => True := by
  unfold Session.recordNames
  cases hname : r.indexName? with
  | none => exact maintains_pure trivial
  | some name =>
    apply maintains_forM
    intro service hservice
    exact h.recordName (hr service name (Report.mem_indexEntries.2 ⟨hname, hservice⟩))

theorem recordAncestors (traceId : TraceId) (limit : Nat) (met : List UInt64)
    (next : Option UInt64) :
    (recordAncestors traceId limit met next).Maintains P fun _ => True := by
  induction limit generalizing met next with
  | zero => exact maintains_pure trivial
  | succ limit ih =>
    cases next with
    | none => exact maintains_pure trivial
    | some id =>
      rw [Session.recordAncestors]
      split
      · exact maintains_pure trivial
      · apply (h.getReport _).bind
        intro found hfound
        cases found with
        | none => exact maintains_pure trivial
        | some ancestor => exact (h.recordNames (hfound ancestor rfl)).bind fun _ _ => ih _ _

theorem index (hr : ∀ service name, (service, name) ∈ r.indexEntries → Entry service name) :
    (index r).Maintains P fun _ => True := by
  apply (h.recordNames hr).bind
  intro _ _
  exact maintains_get.bind fun _ _ => h.recordAncestors _ _ _ _

end Admits

end TraceArchive.Session
