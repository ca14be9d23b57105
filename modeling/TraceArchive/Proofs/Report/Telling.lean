import TraceArchive.Proofs.Report.Homes

set_option autoImplicit false

/-!
What the lists of a report tell, before it is divided into spans: the last event of a name on a
known host, the last flag under a key, and all services that take part. The moments and flags that
the division goes by are those.
-/

namespace TraceArchive

/-- An event is a core event if it has one of the four names and is on a known host. -/
theorem Event.core?_eq_none_iff {e : Event} :
    e.core? = none ↔ (e.endpoint.isSome → e.value ∉ ["cs", "sr", "ss", "cr"]) := by
  rw [Option.eq_none_iff_forall_ne_some]
  constructor
  · intro hnone hend hname
    obtain ⟨core, hcore⟩ : ∃ core : CoreEvent, e.value = core.name := by
      simp only [List.mem_cons, List.not_mem_nil, or_false] at hname
      rcases hname with h | h | h | h
      · exact ⟨.clientSend, h⟩
      · exact ⟨.serverReceive, h⟩
      · exact ⟨.serverSend, h⟩
      · exact ⟨.clientReceive, h⟩
    apply hnone core
    rw [core?, if_pos hend, CoreEvent.ofName?_eq_some_iff, hcore]
  · intro hother core hcore
    obtain ⟨m, rfl⟩ := core?_eq_some_iff.1 hcore
    apply hother rfl
    cases core <;> simp [CoreEvent.event, CoreEvent.name]

namespace Report

variable {r : Report} {core : CoreEvent}

/-- The last event of a name that is on a known host. -/
def lastEvent? (r : Report) (name : String) : Option Event :=
  (r.events.filter fun e => e.value = name ∧ e.endpoint.isSome).getLast?

/-- The moments of core events are those of the last events of their names. -/
theorem lastEvent?_eq (r : Report) (core : CoreEvent) :
    r.lastEvent? core.name = (r.moment? core).map core.event := by
  have hmoment : ∀ e : Event, (momentOf? core e).map core.event
      = Option.guard (fun e => decide (e.value = core.name ∧ e.endpoint.isSome)) e := by
    rintro ⟨timestamp, value, endpoint⟩
    cases endpoint with
    | none => simp [momentOf?, Event.core?, Option.guard]
    | some endpoint =>
      by_cases hvalue : value = core.name
      · subst hvalue
        have hname : CoreEvent.ofName? core.name = some core :=
          CoreEvent.ofName?_eq_some_iff.2 rfl
        simp [momentOf?, Event.core?, Option.guard, CoreEvent.event, hname]
      · have hname : CoreEvent.ofName? value ≠ some core :=
          mt CoreEvent.ofName?_eq_some_iff.1 hvalue
        simp [momentOf?, Event.core?, Option.guard, hvalue, hname]
  rw [lastEvent?, moment?, ← List.getLast?_map, List.map_filterMap, funext hmoment,
    List.filterMap_eq_filter]

/-- The last flag under a key, whether it is set or not. -/
def lastFlag? (r : Report) (key : String) : Option Tag :=
  (r.tags.filter fun t => t.key = key ∧ ∃ b, t.value = .flag b).getLast?

theorem flagged?_eq_lastFlag? (r : Report) (key : String) :
    r.flagged? key = (r.lastFlag? key).bind (·.endpoint) := by
  have hflag : ∀ t : Tag, t.isFlag = true ↔ ∃ b, t.value = .flag b := by
    intro t
    cases h : t.value <;> simp [Tag.isFlag, TagValue.flag?, h]
  unfold flagged? lastFlag?
  congr 2
  refine List.filter_congr fun t _ => ?_
  rw [Bool.eq_iff_iff, decide_eq_true_iff, Bool.and_eq_true, hflag, beq_iff_eq, and_comm]

/-- The client's end of a call that only flags tell of: no "cs" and no "sr" is on a known host, but
the last flags for both addresses have endpoints. -/
def flaggedClient? (r : Report) : Option Endpoint :=
  match r.lastEvent? "cs", r.lastEvent? "sr", (r.lastFlag? "ca").bind (·.endpoint),
    (r.lastFlag? "sa").bind (·.endpoint) with
  | none, none, some ca, some _ => some ca
  | _, _, _, _ => none

theorem flaggedClient?_eq (r : Report) : r.flaggedClient? = r.addressOnly?.map Prod.fst := by
  have hcs := r.lastEvent?_eq .clientSend
  have hsr := r.lastEvent?_eq .serverReceive
  have hca := r.flagged?_eq_lastFlag? Tag.clientAddress
  have hsa := r.flagged?_eq_lastFlag? Tag.serverAddress
  simp only [CoreEvent.name] at hcs hsr
  simp only [Tag.clientAddress, Tag.serverAddress] at hca hsa
  simp only [flaggedClient?, addressOnly?, Tag.clientAddress, Tag.serverAddress, hcs, hsr, ← hca,
    ← hsa]
  cases r.moment? .clientSend <;> cases r.moment? .serverReceive <;> cases r.flagged? "ca"
    <;> cases r.flagged? "sa" <;> rfl

/-- The endpoints of events and of texts, and the client's where only flags tell of a call. -/
def told (r : Report) : List Endpoint :=
  r.events.filterMap (·.endpoint)
    ++ r.tags.filterMap (fun t => match t.value with
      | .text _ => t.endpoint
      | .flag _ => none)
    ++ r.flaggedClient?.toList

theorem told_eq (r : Report) : r.told = r.reporters ++ r.addressOnly?.toList.map Prod.fst := by
  have htexts : r.texts.filterMap (·.endpoint) = r.tags.filterMap fun t => match t.value with
      | .text _ => t.endpoint
      | .flag _ => none := by
    rw [texts, List.filterMap_filter]
    refine List.filterMap_congr fun t _ => ?_
    cases h : t.value <;> simp [Tag.isFlag, TagValue.flag?, h]
  rw [told, reporters, htexts, flaggedClient?_eq, Option.toList_map]

/-- The server's end of a call, if the service that sent one last also received one last. -/
def ownServer? (r : Report) : Option Endpoint :=
  match r.lastEvent? "cs", r.lastEvent? "sr" with
  | some send, some receive =>
    if send.endpoint.map (·.service) = receive.endpoint.map (·.service) then receive.endpoint
    else none
  | _, _ => none

theorem ownServer?_eq (r : Report) :
    r.ownServer? = match r.moment? .clientSend, r.moment? .serverReceive with
      | some send, some receive =>
        if send.endpoint.service = receive.endpoint.service then some receive.endpoint else none
      | _, _ => none := by
  have hcs := r.lastEvent?_eq .clientSend
  have hsr := r.lastEvent?_eq .serverReceive
  simp only [CoreEvent.name] at hcs hsr
  rw [ownServer?, hcs, hsr]
  cases r.moment? .clientSend <;> cases r.moment? .serverReceive <;> simp [CoreEvent.event]

end Report

end TraceArchive
