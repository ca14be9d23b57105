import TraceArchive.Proofs.Search.Traces

set_option autoImplicit false

/-!
Searches in two storages that hold the same and return what they find in different orders. Where
trace ids are strict, the answers are the same, also where the storages fail: whatever is found is
sorted by keys on which no two of its spans agree. Without strict ids this does not hold, since two
spans of one trace may then have the same id and different high halves.
-/

namespace TraceArchive

/-- Stores that differ at most in the order in which they return what a search finds. -/
structure Store.SameContents (s s' : Store) : Prop where
  spans : s.spans = s'.spans
  services : s.services = s'.services
  outages : s.outages = s'.outages
  keyed : s.spans.Keyed

/-- A search returns the same spans, in whatever order. -/
theorem Store.SameContents.values_perm {s s' : Store} (h : s.SameContents s') (p : Predicate) :
    (s.values p).Perm (s'.values p) := by
  apply (s.values_perm p).trans
  rw [h.spans]
  exact (s'.values_perm p).symm

theorem Trace.candidates_eq_of_perm (strict : Bool) {rows rows' : List Row}
    (h : rows.Perm rows') : candidates strict rows = candidates strict rows' := by
  apply SortedSet.ext_mem
  intro id
  rw [candidates, candidates, SortedSet.mem_ofList, SortedSet.mem_ofList]
  exact (h.filterMap _).mem_iff

theorem Trace.select_eq_of_perm (q : Request) {rs rs' : List Report}
    (hkeys : (rs.map Report.key).Nodup) (h : rs.Perm rs') :
    select true q rs = select true q rs' := by
  rw [select, group_eq_of_perm hkeys h, select]

namespace Session

variable {α β α' β' : Type}

/-- Two sessions halt for the same reason or come to their ends with related results, if they start
with the same contents, which they leave alike. -/
def Corresponds (related : α → α' → Prop) (x : Session α) (y : Session α') : Prop :=
  ∀ s s' : Store, s.SameContents s' →
    match x.run s, y.run s' with
    | (.ok a, t), (.ok a', t') => related a a' ∧ t.SameContents t'
    | (.error halt, t), (.error halt', t') => halt = halt' ∧ t.SameContents t'
    | _, _ => False

theorem corresponds_pure {related : α → α' → Prop} {a : α} {a' : α'} (h : related a a') :
    Corresponds related (pure a) (pure a') := fun _ _ hs => ⟨h, hs⟩

theorem corresponds_throw (related : α → α' → Prop) (halt : Halt) :
    Corresponds related (throw halt) (throw halt) := fun _ _ hs => ⟨rfl, hs⟩

theorem corresponds_get : Corresponds Store.SameContents get get := fun _ _ hs => ⟨hs, hs⟩

/-- The second halves only have to correspond from results that are related. -/
theorem Corresponds.bind {x : Session α} {y : Session α'} {f : α → Session β}
    {g : α' → Session β'} {between : α → α' → Prop} {related : β → β' → Prop}
    (h : Corresponds between x y)
    (hfg : ∀ a a', between a a' → Corresponds related (f a) (g a')) :
    Corresponds related (x >>= f) (y >>= g) := by
  intro s s' hs
  have hxy := h s s' hs
  rw [run_bind, run_bind]
  rcases hx : x.run s with ⟨_ | a, t⟩ <;> rcases hy : y.run s' with ⟨_ | a', t'⟩ <;>
    rw [hx, hy] at hxy
  · exact hxy
  · exact hxy.elim
  · exact hxy.elim
  · exact hfg a a' hxy.1 t t' hxy.2

/-- Sessions that correspond have the same answers if they have the same results. -/
theorem Corresponds.answer_eq {x y : Session α} (h : Corresponds Eq x y) {s s' : Store}
    (hs : s.SameContents s') : (x.run s).1 = (y.run s').1 := by
  have hxy := h s s' hs
  rcases hx : x.run s with ⟨_ | a, t⟩ <;> rcases hy : y.run s' with ⟨_ | a', t'⟩ <;>
    rw [hx, hy] at hxy
  · exact congrArg Except.error hxy.1
  · exact hxy.elim
  · exact hxy.elim
  · exact congrArg Except.ok hxy.1

theorem corresponds_call (op : Operation) : Corresponds Eq (call op) (call op) := by
  intro s s' hs
  have hleft : Store.SameContents { s with outages := (Outage.call op s.outages).2 }
      { s' with outages := (Outage.call op s.outages).2 } :=
    ⟨hs.spans, hs.services, rfl, hs.keyed⟩
  rw [run_call, run_call, ← hs.outages]
  cases (Outage.call op s.outages).1 with
  | none => exact ⟨rfl, hleft⟩
  | some outage => exact ⟨rfl, hleft⟩

theorem corresponds_spanNamesOf (service : String) :
    Corresponds Eq (spanNamesOf service) (spanNamesOf service) := by
  apply (corresponds_call _).bind
  intro _ _ _
  apply corresponds_get.bind
  intro s s' hs
  rw [hs.services]
  exact corresponds_pure rfl

theorem corresponds_findReports (p : Predicate) :
    Corresponds (fun rs rs' => rs.Perm rs' ∧ (rs.map Report.key).Nodup ∧ ∀ r ∈ rs, p.test r = true)
      (findReports p) (findReports p) := by
  apply (corresponds_call _).bind
  intro _ _ _
  apply corresponds_get.bind
  intro s s' hs
  apply corresponds_pure
  refine ⟨hs.values_perm p, ?_, ?_⟩
  · rw [((s.values_perm p).map Report.key).nodup_iff]
    exact SpanMap.nodup_map_key_values hs.keyed p
  · intro r hr
    rw [(s.values_perm p).mem_iff, SpanMap.mem_values_iff hs.keyed] at hr
    exact hr.2

theorem corresponds_findRows (p : Predicate) (columns : List Column) :
    Corresponds List.Perm (findRows p columns) (findRows p columns) := by
  apply (corresponds_call _).bind
  intro _ _ _
  apply corresponds_get.bind
  intro s s' hs
  exact corresponds_pure ((hs.values_perm p).map _)

theorem corresponds_recordedNames (q : Request) :
    Corresponds Eq (recordedNames q) (recordedNames q) := by
  unfold recordedNames
  split
  · next service _ _ =>
    apply (corresponds_spanNamesOf service).bind
    rintro names _ rfl
    exact corresponds_pure rfl
  · exact corresponds_pure rfl

theorem corresponds_getTraces (q : Request) :
    Corresponds Eq (getTraces true q) (getTraces true q) := by
  unfold getTraces
  apply (corresponds_recordedNames q).bind
  rintro recorded _ rfl
  by_cases hnone : recorded = some []
  · rw [if_pos hnone]
    exact corresponds_pure rfl
  rw [if_neg hnone]
  apply (corresponds_findRows _ _).bind
  intro rows rows' hrows
  rw [Trace.candidates_eq_of_perm true hrows]
  dsimp only
  split
  · exact corresponds_pure rfl
  · apply (corresponds_findReports _).bind
    rintro rs rs' ⟨hperm, hkeys, -⟩
    rw [Trace.select_eq_of_perm q hkeys hperm]
    exact corresponds_pure rfl

theorem corresponds_getTrace (id : TraceId) :
    Corresponds Eq (getTrace true id) (getTrace true id) := by
  have hraw : Corresponds
      (fun found found' => found.map Trace.sortByTime = found'.map Trace.sortByTime)
      (getRawTrace true id) (getRawTrace true id) := by
    apply (corresponds_findReports _).bind
    rintro rs rs' ⟨hperm, hkeys, htest⟩
    apply corresponds_pure
    have htrace : ∀ r ∈ rs, r.traceId = id := by
      intro r hr
      obtain ⟨hlow, hhigh⟩ := TraceId.test_predicate_iff.1 (htest r hr)
      calc r.traceId = ⟨r.traceId.high, r.traceId.low⟩ := rfl
        _ = id := by rw [hhigh rfl, hlow]
    rw [hperm.isEmpty_eq]
    split
    · rfl
    · exact congrArg some (Trace.sortByTime_eq_of_perm (Trace.nodup_map_id hkeys htrace) hperm)
  apply hraw.bind
  intro found found' hfound
  cases found with
  | none =>
    cases found' with
    | none => exact corresponds_pure rfl
    | some _ => cases hfound
  | some rs =>
    cases found' with
    | none => cases hfound
    | some rs' =>
      apply corresponds_pure
      rw [Option.some.inj hfound]

theorem corresponds_getDependencies (endTs : UInt64) (lookback : Option UInt64) :
    Corresponds Eq (getDependencies true endTs lookback) (getDependencies true endTs lookback) := by
  unfold getDependencies
  split
  · exact corresponds_throw Eq _
  · apply (corresponds_getTraces _).bind
    rintro traces _ rfl
    exact corresponds_pure rfl

/-! A storage that does not fail gives an answer to everything that makes sense. -/

section

variable {s : Store} {strict : Bool}

theorem exists_yields_bind {x : Session α} {f : α → Session β} (hx : ∃ a, x.Yields s a s)
    (hf : ∀ a, ∃ b, (f a).Yields s b s) : ∃ b, (x >>= f).Yields s b s := by
  obtain ⟨a, hx⟩ := hx
  obtain ⟨b, hf⟩ := hf a
  exact ⟨b, hx.bind hf⟩

theorem exists_yields_getTraces (q : Request) (hs : s.Sound) (hm : s.spans.Keyed) :
    ∃ traces, (getTraces strict q).Yields s traces s := by
  obtain ⟨ranked, -, hrun⟩ := yields_getTraces strict q hs hm
  exact ⟨_, hrun⟩

theorem exists_yields_getTrace (id : TraceId) (hs : s.Sound) :
    ∃ found, (getTrace strict id).Yields s found s := by
  have hraw : ∃ found, (getRawTrace strict id).Yields s found s :=
    ⟨_, (yields_findReports _ hs).bind (yields_pure _ s)⟩
  apply exists_yields_bind hraw
  intro found
  cases found with
  | none => exact ⟨_, yields_pure _ s⟩
  | some rs => exact ⟨_, yields_pure _ s⟩

theorem exists_request_allTraces {endTs : UInt64} {lookback : Option UInt64} (hend : endTs ≠ 0)
    (hlookback : lookback ≠ some 0) : ∃ q, (allTraces endTs lookback).request endTs = .ok q := by
  have hback : lookback.getD endTs ≠ 0 := by
    cases lookback with
    | none => exact hend
    | some l => exact fun h => hlookback (congrArg some h)
  have hfault : (allTraces endTs lookback).fault? endTs (lookback.getD endTs) 0xFFFFFFFFFFFFFFFF
      = none := by
    rw [Request.Draft.fault?, if_neg hend, if_neg hback]
    rfl
  cases hrequest : (allTraces endTs lookback).request endTs with
  | ok q => exact ⟨q, rfl⟩
  | error e =>
    simp only [Request.Draft.request] at hrequest
    split at hrequest
    · next e' he => cases hfault.symm.trans he
    · cases hrequest

theorem exists_yields_getDependencies (hs : s.Sound) (hm : s.spans.Keyed) {endTs : UInt64}
    {lookback : Option UInt64} (hend : endTs ≠ 0) (hlookback : lookback ≠ some 0) :
    ∃ links, (getDependencies strict endTs lookback).Yields s links s := by
  obtain ⟨q, hq⟩ := exists_request_allTraces hend hlookback
  rw [getDependencies, hq]
  apply exists_yields_bind (exists_yields_getTraces q hs hm)
  exact fun traces => ⟨_, yields_pure _ s⟩

end

/-- Two stores give the same answers where trace ids are strict: the traces in the same order, in
each trace the spans in the same order, and the links in the same order. -/
structure SameAnswers (s s' : Store) : Prop where
  traces : ∀ q, ((getTraces true q).run s).1 = ((getTraces true q).run s').1
  trace : ∀ id, ((getTrace true id).run s).1 = ((getTrace true id).run s').1
  dependencies : ∀ endTs lookback, ((getDependencies true endTs lookback).run s).1
    = ((getDependencies true endTs lookback).run s').1

/-- A store gives an answer to everything that makes sense. -/
structure Answers (s : Store) : Prop where
  traces : ∀ q, ∃ traces, (getTraces true q).run s = (.ok traces, s)
  trace : ∀ id, ∃ found, (getTrace true id).run s = (.ok found, s)
  dependencies : ∀ endTs lookback, endTs ≠ 0 → lookback ≠ some 0 →
    ∃ links, (getDependencies true endTs lookback).run s = (.ok links, s)

/-- In whatever order a storage returns what it finds, its answers are the same. -/
theorem sameAnswers_of_arrangement (s : Store) (a : Arrangement Predicate)
    (hs : s.spans.Keyed) :
    SameAnswers { s with arrangement := a } s ∧ (s.Sound → Answers s) := by
  have hsame : Store.SameContents { s with arrangement := a } s := ⟨rfl, rfl, rfl, hs⟩
  constructor
  · constructor
    · exact fun q => (corresponds_getTraces q).answer_eq hsame
    · exact fun id => (corresponds_getTrace id).answer_eq hsame
    · exact fun endTs lookback => (corresponds_getDependencies endTs lookback).answer_eq hsame
  · intro hsound
    constructor
    · exact fun q => exists_yields_getTraces q hsound hs
    · exact fun id => exists_yields_getTrace id hsound
    · exact fun _ _ hend hlookback => exists_yields_getDependencies hsound hs hend hlookback

/-- Two spans of a trace that started at the same time and have the same name. -/
def twins : SpanMap :=
  let first : Report := { traceId := ⟨1, 2⟩, id := 3, name := some "get", timestamp := some 5000 }
  let second := { first with id := 4 }
  (SpanMap.empty.put first.key first).put second.key second

theorem sameAnswers_twins :
    twins.Keyed
      ∧ SameAnswers { spans := twins, arrangement := .descending } { spans := twins }
      ∧ Answers { spans := twins } := by
  have hkeyed : twins.Keyed := (SpanMap.keyed_empty.put rfl).put rfl
  obtain ⟨hsame, hanswers⟩ := sameAnswers_of_arrangement { spans := twins } .descending hkeyed
  exact ⟨hkeyed, hsame, hanswers rfl⟩

end Session

end TraceArchive
