import TraceArchive.Proofs.Ingest.Coverage
import TraceArchive.Proofs.Ingest.Recording
import TraceArchive.Proofs.Report.Covering

set_option autoImplicit false

/-!
Where the listed names come from. The hosts and the name of a stored span may come from different
reports, and names are recorded from spans that are still to be merged, so what holds of a name when
it is recorded is said of the reports alone: reports of one span tell the service and the name. All
operations of ingest keep this, also where the storage fails in the middle of a batch.
-/

namespace TraceArchive

/-- Reports of one span tell a host of the service and the name, the same report or two of them. -/
def Told (rs : List Report) (service name : String) : Prop :=
  ∃ k, (∃ r ∈ rs, r.key = k ∧ ∃ e ∈ r.endpoints, cleanse e.service = some service)
    ∧ ∃ r ∈ rs, r.key = k ∧ r.name.bind cleanse = some name

section

variable {rs : List Report} {service name : String}

theorem Told.service_ne_empty (h : Told rs service name) : service ≠ "" := by
  obtain ⟨k, ⟨r, -, -, e, -, hservice⟩, -⟩ := h
  exact cleanse_ne_empty hservice

theorem Told.name_ne_empty (h : Told rs service name) : name ≠ "" := by
  obtain ⟨k, -, r, -, -, hname⟩ := h
  obtain ⟨spelled, -, hname⟩ := Option.bind_eq_some_iff.1 hname
  exact cleanse_ne_empty hname

end

/-- The hosts and the name of a report are all from reports of one key. -/
structure Report.DrawnFrom (r : Report) (rs : List Report) (k : Key) : Prop where
  endpoints : ∀ e ∈ r.endpoints, ∃ x ∈ rs, x.key = k ∧ e ∈ x.endpoints
  name : ∀ name, r.name = some name → ∃ x ∈ rs, x.key = k ∧ x.name = some name

namespace Report.DrawnFrom

variable {rs : List Report} {k : Key} {a b r : Report}

theorem withTiming (hr : r ∈ rs) : r.withTiming.DrawnFrom rs r.key where
  endpoints e he := by
    simp only [mem_endpoints, mem_events_withTiming, mem_tags_withTiming] at he
    exact ⟨r, hr, rfl, mem_endpoints.2 he⟩
  name name hname := ⟨r, hr, rfl, by rwa [name_withTiming] at hname⟩

theorem merge (ha : a.DrawnFrom rs k) (hb : b.DrawnFrom rs k) : (a.merge b).DrawnFrom rs k where
  endpoints e he := by
    simp only [mem_endpoints, mem_events_merge, mem_tags_merge, or_and_right, exists_or] at he
    rcases he with (he | he) | (he | he)
    · exact ha.endpoints e (mem_endpoints.2 (.inl he))
    · exact hb.endpoints e (mem_endpoints.2 (.inl he))
    · exact ha.endpoints e (mem_endpoints.2 (.inr he))
    · exact hb.endpoints e (mem_endpoints.2 (.inr he))
  name name hname := (mergeName_eq_some hname).elim (ha.name name) (hb.name name)

theorem told (h : r.DrawnFrom rs k) {service name : String}
    (he : (service, name) ∈ r.indexEntries) : Told rs service name := by
  obtain ⟨hname, hservice⟩ := mem_indexEntries.1 he
  obtain ⟨e, he, hcleanse⟩ := mem_services.1 (mem_indexServices.1 hservice)
  obtain ⟨spelled, hspelled, hname⟩ := Option.bind_eq_some_iff.1 hname
  obtain ⟨host, hhost, hkey, he⟩ := h.endpoints e he
  obtain ⟨namer, hnamer, hkey', hspelled⟩ := h.name spelled hspelled
  refine ⟨k, ⟨host, hhost, hkey, e, he, hcleanse⟩, namer, hnamer, hkey', ?_⟩
  rw [hspelled, Option.bind_some, hname]

end Report.DrawnFrom

namespace Store

variable {s : Store} {rs : List Report} {k : Key} {r : Report}

/-- What a store holds goes back to some reports, and no service is listed without a name. -/
structure Grounded (s : Store) (rs : List Report) : Prop where
  stored : ∀ k r, s.spans.get? k = some r → r.DrawnFrom rs k
  listed : ∀ service name, name ∈ s.services.get service → Told rs service name
  named : ∀ service ∈ s.services.names, ∃ name, name ∈ s.services.get service

theorem grounded_empty (arrangement : Arrangement Predicate) (outages : List Outage) :
    Grounded { arrangement, outages } rs where
  stored _ _ h := nomatch h
  listed _ _ h := nomatch h
  named _ h := nomatch h

theorem Grounded.put (hs : s.Grounded rs) (hr : r.DrawnFrom rs k) :
    Grounded { s with spans := s.spans.put k r } rs := by
  refine ⟨fun j stored hstored => ?_, hs.listed, hs.named⟩
  rw [SpanMap.get?_put] at hstored
  split at hstored
  · next hj =>
    obtain rfl := Option.some.inj hstored
    rwa [hj]
  · exact hs.stored j stored hstored

theorem Grounded.putIfAbsent (hs : s.Grounded rs) (hr : r.DrawnFrom rs k) :
    Grounded { s with spans := s.spans.putIfAbsent k r } rs := by
  rw [SpanMap.putIfAbsent]
  split
  · exact hs
  · exact hs.put hr

theorem Grounded.record {service name : String} (hs : s.Grounded rs) (h : Told rs service name) :
    Grounded { s with services := s.services.put service name } rs := by
  have hput : ∀ other listed, listed ∈ (s.services.put service name).get other
      ↔ listed ∈ s.services.get other ∨ (other, listed) = (service, name) :=
    fun other listed => @ServiceIndex.mem_get_put s.services other listed (service, name)
  refine ⟨hs.stored, fun other listed hlisted => ?_, fun other hother => ?_⟩
  · rcases (hput other listed).1 hlisted with hbefore | hnew
    · exact hs.listed other listed hbefore
    · obtain ⟨rfl, rfl⟩ := Prod.mk.inj hnew
      exact h
  · rcases SortedMap.mem_keys_insert.1 hother with rfl | hbefore
    · exact ⟨name, (hput _ _).2 (.inr rfl)⟩
    · obtain ⟨listed, hlisted⟩ := hs.named other hbefore
      exact ⟨listed, (hput _ _).2 (.inl hlisted)⟩

end Store

namespace Session

/-! Each operation of ingest keeps the store grounded in reports that hold what comes in. -/

variable {rs : List Report} {k : Key} {r : Report}

/-- Names may be recorded if they are told, and those of stored reports are. -/
theorem admits_told (rs : List Report) : Admits (·.Grounded rs) (Told rs) where
  outages _ _ hs := ⟨hs.stored, hs.listed, hs.named⟩
  put _ _ _ htold hs := hs.record htold
  stored _ k r hs hr _ _ he := (hs.stored k r hr).told he

theorem maintains_putReport (hr : r.DrawnFrom rs k) :
    (putReport k r).Maintains (·.Grounded rs) fun _ => True := by
  apply (maintains_call _ (admits_told rs).outages).bind
  exact fun _ _ => maintains_modify fun _ hs => hs.put hr

theorem maintains_putReportIfAbsent (hr : r.DrawnFrom rs k) :
    (putReportIfAbsent k r).Maintains (·.Grounded rs)
      fun taken => ∀ stored, taken = some stored → stored.DrawnFrom rs k := by
  apply (maintains_call _ (admits_told rs).outages).bind
  intro _ _
  apply maintains_get.bind
  intro before hbefore
  apply (maintains_modify fun _ hs => hs.putIfAbsent hr).bind
  exact fun _ _ => maintains_pure (hbefore.stored k)

theorem maintains_acceptReport (hr : r ∈ rs) :
    (acceptReport r).Maintains (·.Grounded rs) fun _ => True := by
  have hdrawn : r.withTiming.DrawnFrom rs r.withTiming.key := by
    rw [Report.key_withTiming]
    exact Report.DrawnFrom.withTiming hr
  have hindex : (index r.withTiming).Maintains (·.Grounded rs) fun _ => True :=
    (admits_told rs).index fun _ _ he => hdrawn.told he
  apply (maintains_putReportIfAbsent hdrawn).bind
  intro taken htaken
  cases taken with
  | none => exact hindex
  | some stored =>
    have hmerged := (htaken stored rfl).merge hdrawn
    exact (maintains_putReport hmerged).bind fun _ _ => hindex

theorem maintains_acceptAll (batches : List (List Report)) :
    (batches.forM accept).Maintains (·.Grounded batches.flatten) fun _ => True := by
  apply maintains_forM
  intro batch hbatch
  apply maintains_forM
  intro r hr
  exact maintains_acceptReport (List.mem_flatten.2 ⟨batch, hbatch, hr⟩)

/-- Batches are accepted, and then the names are listed that their reports tell for their own
services. Of all names that are listed, however the storage fails, reports of one span tell the
service and the name. -/
theorem accept_told (a : Arrangement Predicate) (batches : List (List Report)) :
    (∃ s : Store, (batches.forM accept).run { arrangement := a } = (.ok (), s)
        ∧ ∀ r ∈ batches.flatten, s.services.Lists r)
      ∧ ∀ (outages : List Outage) (answer : Except Halt Unit) (s : Store),
        (batches.forM accept).run { arrangement := a, outages } = (answer, s) →
          (∀ service name, name ∈ s.services.get service →
            service ≠ "" ∧ name ≠ "" ∧ Told batches.flatten service name)
          ∧ ∀ service ∈ s.services.names, ∃ name, name ∈ s.services.get service := by
  refine ⟨⟨_, yields_acceptAll batches rfl, fun _ hr => lists_of_mem hr⟩, ?_⟩
  intro outages answer s hrun
  have hleaves := maintains_acceptAll batches _ (Store.grounded_empty a outages)
  rw [Leaves, hrun] at hleaves
  have hs : s.Grounded batches.flatten := by
    cases answer with
    | ok _ => exact hleaves.2
    | error _ => exact hleaves
  refine ⟨fun service name hlisted => ?_, hs.named⟩
  have htold := hs.listed service name hlisted
  exact ⟨htold.service_ne_empty, htold.name_ne_empty, htold⟩

end Session

end TraceArchive
