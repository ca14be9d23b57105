import TraceArchive.Proofs.Predicate.Meaning
import TraceArchive.Proofs.Session
import TraceArchive.Search

set_option autoImplicit false

/-!
What searches look for. The predicate of a request says of one report what the request asks of a
span, and the predicate of a trace id holds for the reports of that trace.
-/

namespace TraceArchive

namespace Report

theorem hasEvent_iff {r : Report} {value : String} :
    r.hasEvent value = true ↔ ∃ e ∈ r.events, e.value = value := by
  simp [hasEvent]

theorem hasTagKey_iff {r : Report} {key : String} :
    r.hasTagKey key = true ↔ ∃ t ∈ r.tags, t.key = key ∧ ∃ text, t.value = .text text := by
  have htext : ∀ t : Tag, t.isFlag = false ↔ ∃ text, t.value = .text text := by
    intro t
    cases h : t.value <;> simp [Tag.isFlag, TagValue.flag?, h]
  simp [hasTagKey, htext]

theorem hasTag_iff {r : Report} {key text : String} :
    r.hasTag key text = true ↔ ∃ t ∈ r.tags, t.key = key ∧ t.value = .text text := by
  have htext : ∀ t : Tag, t.text? = some text ↔ t.value = .text text := by
    intro t
    cases h : t.value <;> simp [Tag.text?, TagValue.text?, h]
  simp [hasTag, htext]

/-- The report belongs to a trace: all bits of the trace ids agree where ids are strict, otherwise
the low halves do. -/
def InTrace (strict : Bool) (id : TraceId) (r : Report) : Prop :=
  r.traceId.low = id.low ∧ (strict = true → r.traceId.high = id.high)

/-- Where ids are not strict, the keys of traces have no high half. -/
theorem traceKey_eq_iff {strict : Bool} {id : TraceId} {r : Report} :
    r.traceKey strict = id ↔ r.InTrace strict id ∧ (strict = false → id.high = 0) := by
  obtain ⟨high, low⟩ := id
  cases hr : r.traceId
  cases strict <;> simp [traceKey, InTrace, hr, eq_comm, and_comm]

end Report

theorem atLeast_iff {min : Option UInt64} {n : UInt64} :
    atLeast min n = true ↔ ∀ m, min = some m → m ≤ n := by
  cases min <;> simp [atLeast]

theorem atMost_iff {max : Option UInt64} {n : UInt64} :
    atMost max n = true ↔ ∀ m, max = some m → n ≤ m := by
  cases max <;> simp [atMost]

namespace Request

/-- The span starts within the window of the request. -/
def InWindow (q : Request) (r : Report) : Prop :=
  ∃ t, r.timestamp = some t
    ∧ min ((q.endTs.toNat - q.lookback.toNat) * 1000) lastInstant.toNat ≤ t.toNat
    ∧ t.toNat ≤ min (q.endTs.toNat * 1000) lastInstant.toNat

theorem inWindow_iff {q : Request} {r : Report} :
    q.InWindow r ↔ ∃ t, r.timestamp = some t ∧ q.window.1 ≤ t ∧ t ≤ q.window.2 := by
  simp only [InWindow, window, UInt64.le_iff_toNat_le, toNat_toMicros, toNat_timeBetween]

/-- Where the duration is asked for, the span tells one within the bounds. -/
theorem duration_iff {q : Request} {r : Report} :
    (q.hasDurationBounds = true → ∃ d, r.duration = some d
        ∧ (∀ min, q.minDuration = some min → min ≤ d) ∧ ∀ max, q.maxDuration = some max → d ≤ max)
      ↔ (∀ min, q.minDuration = some min → ∃ d, r.duration = some d ∧ min ≤ d)
        ∧ ∀ max, q.maxDuration = some max → ∃ d, r.duration = some d ∧ d ≤ max := by
  unfold hasDurationBounds
  cases q.minDuration <;> cases q.maxDuration <;> cases r.duration <;> simp

/-- What a request asks of one span, where `x` tells which names are recorded for a service. The
window is told in milliseconds, and both of its ends stop at the ends of time. -/
structure Matches (x : ServiceIndex) (q : Request) (r : Report) : Prop where
  spanName : ∀ name, q.spanName = some name → r.name = some name
  recorded : q.spanName = none → ∀ service, q.service = some service →
    ∃ name ∈ x.get service, r.name = some name
  window : q.InWindow r
  shortest : ∀ min, q.minDuration = some min → ∃ d, r.duration = some d ∧ min ≤ d
  longest : ∀ max, q.maxDuration = some max → ∃ d, r.duration = some d ∧ d ≤ max
  terms : ∀ term ∈ q.terms, (∃ e ∈ r.events, e.value = term)
    ∨ ∃ t ∈ r.tags, t.key = term ∧ ∃ text, t.value = .text text
  tags : ∀ e ∈ q.tags.entries, ∃ t ∈ r.tags, t.key = e.1 ∧ t.value = .text e.2

/-- The names by which a request that gives nothing but a service looks for spans. -/
def recorded? (q : Request) (x : ServiceIndex) : Option (List String) :=
  match q.spanName, q.service with
  | none, some service => some (x.get service).toList
  | _, _ => none

theorem recorded?_eq_some {q : Request} {x : ServiceIndex} {service : String}
    (hname : q.spanName = none) (hservice : q.service = some service) :
    q.recorded? x = some (x.get service).toList := by
  simp [recorded?, hname, hservice]

theorem not_matches_of_recorded?_eq_nil {q : Request} {x : ServiceIndex} {r : Report}
    (h : q.recorded? x = some []) : ¬ q.Matches x r := by
  intro hmatch
  unfold recorded? at h
  split at h
  · next service hname hservice =>
    obtain ⟨name, hmem, -⟩ := hmatch.recorded hname service hservice
    have hnil : (x.get service).toList = [] := Option.some.inj h
    have : name ∈ (x.get service).toList := hmem
    rw [hnil] at this
    cases this
  · cases h

/-- The part of a request's predicate that asks for the name. -/
def namePredicate (q : Request) (recorded : List String) : Predicate :=
  match q.spanName, q.service with
  | some name, _ => .equal .name (.text name)
  | none, some _ => .any (recorded.map fun name => .equal .name (.text name))
  | none, none => .always

/-- The part of a request's predicate that asks for the name and the time. -/
def timedPredicate (q : Request) (recorded : List String) : Predicate :=
  let inWindow := (q.namePredicate recorded).and
    (.between .timestamp (some q.window.1) (some q.window.2))
  if q.hasDurationBounds then inWindow.and (.between .duration q.minDuration q.maxDuration)
  else inWindow

theorem predicate_eq (q : Request) (recorded : List String) :
    q.predicate recorded = q.tags.entries.foldl (fun p t => p.and (.anyTag t.1 t.2))
      (q.terms.toList.foldl (fun p term => p.and ((Predicate.anyEvent term).or (.anyTagKey term)))
        (q.timedPredicate recorded)) :=
  rfl

variable {q : Request} {r : Report} {x : ServiceIndex}

theorem test_between_number {column : Column} {n? : Option UInt64} (min max : Option UInt64)
    (h : r.cell? column = n?.map .number) :
    (Predicate.between column min max).test r = true
      ↔ ∃ n, n? = some n ∧ (∀ m, min = some m → m ≤ n) ∧ ∀ m, max = some m → n ≤ m := by
  rw [Predicate.test, h]
  cases n? <;> simp [Cell.number?, atLeast_iff, atMost_iff]

theorem test_name_iff {name : String} :
    (Predicate.equal .name (.text name)).test r = true ↔ r.name = some name := by
  rw [Predicate.test_equal, Report.cell?]
  cases r.name <;> simp

theorem test_namePredicate_iff :
    (q.namePredicate ((q.recorded? x).getD [])).test r = true
      ↔ (∀ name, q.spanName = some name → r.name = some name) ∧ (q.spanName = none →
        ∀ service, q.service = some service → ∃ name ∈ x.get service, r.name = some name) := by
  unfold namePredicate
  cases hn : q.spanName with
  | some name => simp [test_name_iff]
  | none =>
    cases hs : q.service with
    | none => simp
    | some service =>
      simp only [recorded?_eq_some hn hs, Option.getD_some, Predicate.test_any, List.any_map,
        List.any_eq_true, Function.comp_apply, test_name_iff]
      constructor
      · rintro ⟨name, hmem, hr⟩
        exact ⟨fun _ h => (nomatch h), fun _ _ h => Option.some.inj h ▸ ⟨name, hmem, hr⟩⟩
      · rintro ⟨-, h⟩
        exact h trivial service rfl

theorem test_timedPredicate_iff {recorded : List String} :
    (q.timedPredicate recorded).test r = true
      ↔ (q.namePredicate recorded).test r = true
        ∧ q.InWindow r
        ∧ (∀ min, q.minDuration = some min → ∃ d, r.duration = some d ∧ min ≤ d)
        ∧ ∀ max, q.maxDuration = some max → ∃ d, r.duration = some d ∧ d ≤ max := by
  have timestamp : r.cell? .timestamp = r.timestamp.map .number := rfl
  have duration : r.cell? .duration = r.duration.map .number := rfl
  have hwindow := test_between_number (some q.window.1) (some q.window.2) timestamp
  have hduration := test_between_number q.minDuration q.maxDuration duration
  rw [inWindow_iff, ← duration_iff]
  unfold timedPredicate
  by_cases hbounds : q.hasDurationBounds = true
  · simp [hbounds, hwindow, hduration, and_assoc]
  · simp [hbounds, hwindow]

/-- The predicate of a request says what the request asks of a span. -/
theorem test_predicate_iff :
    (q.predicate ((q.recorded? x).getD [])).test r = true ↔ q.Matches x r := by
  have hterm : ∀ term, ((Predicate.anyEvent term).or (.anyTagKey term)).test r = true ↔
      (∃ e ∈ r.events, e.value = term)
        ∨ ∃ t ∈ r.tags, t.key = term ∧ ∃ text, t.value = .text text := by
    intro term
    rw [Predicate.test_or, Bool.or_eq_true, Predicate.test, Predicate.test, Report.hasEvent_iff,
      Report.hasTagKey_iff]
  have htag : ∀ e : String × String, (Predicate.anyTag e.1 e.2).test r = true ↔
      ∃ t ∈ r.tags, t.key = e.1 ∧ t.value = .text e.2 := fun e => by
    rw [Predicate.test, Report.hasTag_iff]
  simp only [predicate_eq, Predicate.test_foldl_and, Bool.and_eq_true, List.all_eq_true, hterm,
    htag, test_timedPredicate_iff, test_namePredicate_iff]
  constructor
  · rintro ⟨⟨⟨⟨hname, hrecorded⟩, hwindow, hshortest, hlongest⟩, hterms⟩, htags⟩
    exact ⟨hname, hrecorded, hwindow, hshortest, hlongest, hterms, htags⟩
  · rintro ⟨hname, hrecorded, hwindow, hshortest, hlongest, hterms, htags⟩
    exact ⟨⟨⟨⟨hname, hrecorded⟩, hwindow, hshortest, hlongest⟩, hterms⟩, htags⟩

end Request

namespace TraceId

variable {strict : Bool} {r s : Report}

theorem test_predicate_iff {id : TraceId} :
    (id.predicate strict).test r = true ↔ r.InTrace strict id := by
  cases strict <;> simp [predicate, Report.InTrace, Predicate.test_equal, Report.cell?, and_comm]

/-- The predicate of a report's own trace holds for the reports of this trace. -/
theorem test_predicate_traceKey :
    ((s.traceKey strict).predicate strict).test r = true
      ↔ r.traceKey strict = s.traceKey strict := by
  have hself : s.traceKey strict = s.traceKey strict := rfl
  have hhigh := (Report.traceKey_eq_iff.1 hself).2
  rw [test_predicate_iff, Report.traceKey_eq_iff, and_iff_left hhigh]

theorem ofRow?_row : ofRow? strict (r.row columns) = some (r.traceKey strict) := by
  cases strict <;> rfl

end TraceId

namespace Trace

variable {strict : Bool}

/-- The candidates are the traces of the reports that were found. -/
theorem mem_candidates {rs : List Report} {id : TraceId} :
    id ∈ candidates strict (rs.map (·.row TraceId.columns))
      ↔ ∃ r ∈ rs, r.traceKey strict = id := by
  rw [candidates, SortedSet.mem_ofList, List.mem_filterMap]
  constructor
  · rintro ⟨row, hrow, hid⟩
    obtain ⟨r, hr, rfl⟩ := List.mem_map.1 hrow
    rw [TraceId.ofRow?_row] at hid
    exact ⟨r, hr, Option.some.inj hid⟩
  · rintro ⟨r, hr, rfl⟩
    exact ⟨_, List.mem_map.2 ⟨r, hr, rfl⟩, TraceId.ofRow?_row⟩

theorem test_anyOf_iff {ids : SortedSet TraceId} {r : Report}
    (hids : ∀ id ∈ ids, ∃ s : Report, s.traceKey strict = id) :
    (anyOf strict ids).test r = true ↔ r.traceKey strict ∈ ids := by
  rw [anyOf, Predicate.test_any, List.any_map, List.any_eq_true]
  constructor
  · rintro ⟨id, hid, ht⟩
    obtain ⟨s, rfl⟩ := hids id hid
    rw [TraceId.test_predicate_traceKey.1 ht]
    exact hid
  · exact fun hid => ⟨_, hid, TraceId.test_predicate_traceKey.2 rfl⟩

end Trace

end TraceArchive
