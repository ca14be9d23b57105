import TraceArchive.Proofs.Ingest.Coverage
import TraceArchive.Proofs.Search.Agreeing

set_option autoImplicit false

/-!
Names as they are stored and as they are searched. A span keeps the blanks around its name, while
requests and the service index drop them, and the storage tells names apart by every character. So
a span is found by its name, or under its service, if and only if there are no such blanks;
otherwise its trace has to be found by another span.
-/

namespace TraceArchive

namespace Request

variable {q : Request} {x : ServiceIndex} {r : Report}

/-- Nothing is asked for but a name or a service. -/
structure AsksNames (q : Request) : Prop where
  terms : q.terms = .empty
  tags : q.tags = .empty
  shortest : q.minDuration = none
  longest : q.maxDuration = none

namespace AsksNames

theorem matches_iff (h : q.AsksNames) :
    q.Matches x r ↔ q.InWindow r ∧ (∀ name, q.spanName = some name → r.name = some name)
      ∧ (q.spanName = none → ∀ service, q.service = some service →
        ∃ name ∈ x.get service, r.name = some name) := by
  refine ⟨fun hr => ⟨hr.window, hr.spanName, hr.recorded⟩, fun ⟨hwindow, hname, hrecorded⟩ => ?_⟩
  refine ⟨hname, hrecorded, hwindow, ?_, ?_, ?_, ?_⟩
  · simp [h.shortest]
  · simp [h.longest]
  · intro term hterm
    rw [h.terms] at hterm
    cases hterm
  · simp [h.tags, SortedMap.empty]

theorem matches_iff_of_spanName (h : q.AsksNames) {name : String} (hname : q.spanName = some name) :
    q.Matches x r ↔ q.InWindow r ∧ r.name = some name := by
  simp [h.matches_iff, hname]

theorem matches_iff_of_service (h : q.AsksNames) {service : String} (hname : q.spanName = none)
    (hservice : q.service = some service) :
    q.Matches x r ↔ q.InWindow r ∧ ∃ name ∈ x.get service, r.name = some name := by
  simp [h.matches_iff, hname, hservice]

/-- A trace of the service is all that is asked for where no name is. -/
theorem test_of_service (h : q.AsksNames) (hname : q.spanName = none) {trace : List Report}
    (hr : r ∈ trace) (hservice : r.inService q.service = true) : q.test trace = true := by
  have hany : (trace.any (·.inService q.service)) = true := List.any_eq_true.2 ⟨r, hr, hservice⟩
  have hbounds : q.hasDurationBounds = false := by simp [hasDurationBounds, h.shortest, h.longest]
  simp [test, hany, hname, h.terms, h.tags, hbounds, SortedSet.empty, SortedMap.empty]

end AsksNames

/-- A draft that asks for nothing but a name or a service. -/
def Draft.naming (spanName service : Option String) (endTs lookback limit : Option UInt64) :
    Draft :=
  { spanName, service, endTs, lookback, limit }

theorem Draft.request_naming {spanName service : Option String}
    {endTs lookback limit : Option UInt64} {now : UInt64}
    (h : (Draft.naming spanName service endTs lookback limit).request now = .ok q) :
    q.AsksNames ∧ q.service = service.bind cleanse
      ∧ q.spanName = (spanName.bind cleanse).filter (· ≠ anyName) := by
  simp only [naming, request] at h
  split at h
  · cases h
  · obtain rfl := Except.ok.inj h
    exact ⟨⟨rfl, rfl, rfl, rfl⟩, rfl, rfl⟩

end Request

/-- Another span of the trace that a span belongs to. -/
structure Store.Beside (s : Store) (strict : Bool) (r o : Report) : Prop where
  other : o ≠ r
  stored : s.spans.get? o.key = some o
  together : o.traceKey strict = r.traceKey strict

namespace Session

variable {s : Store} {rs : List Report} {strict : Bool} {q : Request} {r : Report}

/-- The search comes to its end, and a trace with the span is returned if and only if it is
`found`. -/
def ReturnsIff (strict : Bool) (q : Request) (s : Store) (r : Report) (found : Prop) : Prop :=
  ∃ traces, (getTraces strict q).run s = (.ok traces, s) ∧ ((∃ trace ∈ traces, r ∈ trace) ↔ found)

theorem ReturnsIff.congr {found found' : Prop} (h : ReturnsIff strict q s r found)
    (hfound : found ↔ found') : ReturnsIff strict q s r found' :=
  h.imp fun _ htraces => ⟨htraces.1, htraces.2.trans hfound⟩

/-- Without a limit that cuts candidates off, the trace of a span is returned if a span of it
matches and that is enough for the test. -/
theorem Accepted.returnsIff (h : Accepted s rs) (hr : s.spans.get? r.key = some r)
    (hlimit : (s.spans.traceKeys strict .always).length ≤ q.limit.toNat)
    (htest : ∀ trace, r ∈ trace → (∃ o ∈ trace, q.Matches s.services o) → q.test trace = true) :
    ReturnsIff strict q s r
      (q.Matches s.services r ∨ ∃ o, s.Beside strict r o ∧ q.Matches s.services o) := by
  obtain ⟨ranked, hranked, hrun⟩ := yields_getTraces strict q h.sound h.holds.keyed
  rw [List.take_of_length_le ((hranked.length_le h.holds.keyed).trans hlimit)] at hrun
  refine ⟨_, hrun, ?_⟩
  constructor
  · rintro ⟨trace, htrace, hmem⟩
    obtain ⟨t, ht, rfl⟩ := List.mem_map.1 (List.mem_of_mem_filter htrace)
    obtain ⟨o, ho, hmatch⟩ := hranked.exists_matching ht
    obtain ⟨hstored, hkey⟩ := (hranked.mem_iff ht).1 ho
    by_cases hne : o = r
    · exact .inl (hne ▸ hmatch)
    · have htogether : o.traceKey strict = r.traceKey strict :=
        hkey.trans ((hranked.mem_iff ht).1 hmem).2.symm
      exact .inr ⟨o, ⟨hne, hstored, htogether⟩, hmatch⟩
  · intro hmatch
    obtain ⟨o, ho, hkey, hmatch⟩ : ∃ o, s.spans.get? o.key = some o
        ∧ o.traceKey strict = r.traceKey strict ∧ q.Matches s.services o := by
      rcases hmatch with hmatch | ⟨o, ⟨-, ho, hkey⟩, hmatch⟩
      · exact ⟨r, hr, rfl, hmatch⟩
      · exact ⟨o, ho, hkey, hmatch⟩
    obtain ⟨t, ht, hid⟩ := List.mem_map.1 (hranked.mem_map_fst_iff.2 ⟨o, ho, hmatch, hkey⟩)
    have hmem : r ∈ t.2 := (hranked.mem_iff ht).2 ⟨hr, hid.symm⟩
    have hmatching : ∃ o ∈ t.2, q.Matches s.services o :=
      ⟨o, (hranked.mem_iff ht).2 ⟨ho, hkey.trans hid.symm⟩, hmatch⟩
    exact ⟨t.2, List.mem_filter.2 ⟨List.mem_map_of_mem ht, htest t.2 hmem hmatching⟩, hmem⟩

/-- A search by a name returns the trace of a span if the span or one beside it has the name. -/
theorem Accepted.returnsIff_of_spanName (h : Accepted s rs) (hr : s.spans.get? r.key = some r)
    (hplain : q.AsksNames) (hservice : q.service = none) {name : String}
    (hname : q.spanName = some name) (hwindow : q.InWindow r)
    (hlimit : (s.spans.traceKeys strict .always).length ≤ q.limit.toNat) :
    ReturnsIff strict q s r
      (r.name = some name ∨ ∃ o, s.Beside strict r o ∧ q.InWindow o ∧ o.name = some name) := by
  have htest : ∀ trace, r ∈ trace → (∃ o ∈ trace, q.Matches s.services o) →
      q.test trace = true := by
    rintro trace - ⟨o, ho, hmatch⟩
    exact Request.test_of_matches hmatch (by rw [hservice]; rfl) ho
  refine (h.returnsIff hr hlimit htest).congr ?_
  simp only [hplain.matches_iff_of_spanName hname, hwindow, true_and]

/-- A search by a service returns the trace of a span of the service if the span or one beside it
has a name that is listed for the service. -/
theorem Accepted.returnsIff_of_service (h : Accepted s rs) (hr : s.spans.get? r.key = some r)
    (hplain : q.AsksNames) (hname : q.spanName = none) {service : String}
    (hservice : q.service = some service) (hmem : service ∈ r.services) (hwindow : q.InWindow r)
    (hlimit : (s.spans.traceKeys strict .always).length ≤ q.limit.toNat) :
    ReturnsIff strict q s r ((∃ name ∈ s.services.get service, r.name = some name)
      ∨ ∃ o, s.Beside strict r o ∧ q.InWindow o
        ∧ ∃ name ∈ s.services.get service, o.name = some name) := by
  have hin : r.inService q.service = true := by
    rw [hservice]
    exact decide_eq_true hmem
  have hreturns := h.returnsIff hr hlimit fun trace htrace _ =>
    hplain.test_of_service hname htrace hin
  refine hreturns.congr ?_
  simp only [hplain.matches_iff_of_service hname hservice, hwindow, true_and]

/-- No blanks stand around the names that are listed. -/
theorem trim_of_mem_services {a : Arrangement Predicate} {service name : String}
    (h : name ∈ (Store.ingestAll { arrangement := a } rs).services.get service) :
    Text.trim name = name := by
  have hentry : ∀ r : Report, (service, name) ∈ r.indexEntries → Text.trim name = name := by
    intro r he
    obtain ⟨m, -, hm⟩ := Option.bind_eq_some_iff.1 (Report.mem_indexEntries.1 he).1
    exact trim_of_cleanse hm
  obtain ⟨before, r, -, he | ⟨ancestor, -, he⟩⟩ := (mem_services_iff a).1 h
  · exact hentry r he
  · exact hentry ancestor he

/-- The name of a span is listed for its services as it stands in the span if and only if no blanks
stand around it. -/
theorem exists_listed_iff {a : Arrangement Predicate} {n service : String} (hr : r ∈ rs)
    (hname : r.name = spanName? n) (hservice : service ∈ r.services) :
    (∃ name ∈ (Store.ingestAll { arrangement := a } rs).services.get service, r.name = some name)
      ↔ n ≠ "" ∧ Text.trim n = n := by
  constructor
  · rintro ⟨name, hlisted, hn⟩
    obtain ⟨hne, rfl⟩ := spanName?_eq_some_iff.1 (hname.symm.trans hn)
    exact ⟨hne, Text.trim_lowercase_eq_self_iff.1 (trim_of_mem_services hlisted)⟩
  · rintro ⟨hne, htrim⟩
    have hcleanse : cleanse n = some (Text.lowercase n) := by
      rw [cleanse_eq_some_iff, htrim]
      exact ⟨hne, rfl⟩
    have hindex : r.indexName? = some (Text.lowercase n) := by
      rw [Report.indexName?, hname, bind_cleanse_spanName?, hcleanse]
    refine ⟨Text.lowercase n, ?_, ?_⟩
    · have hlisted := lists_of_mem (s := { arrangement := a }) hr
      exact hlisted (service, Text.lowercase n) (Report.mem_indexEntries.2
        ⟨hindex, Report.mem_indexServices.2 hservice⟩)
    · rw [hname]
      exact (spanName?_eq_cleanse_iff hcleanse).2 htrim

/-- A search by the name of a span, and one by a service of it, return the trace of the span unless
blanks stand around the name and no other span of the trace is found. -/
theorem getTraces_naming (a : Arrangement Predicate) (strict : Bool)
    (batches : List (List Report)) :
    ∃ s : Store, (batches.forM accept).run { arrangement := a } = (.ok (), s)
      ∧ ∀ r ∈ batches.flatten, ∀ n stored, r.name = spanName? n →
        s.spans.get? r.key = some stored → stored.name = r.name →
        ∀ (q : Request) (endTs lookback limit : Option UInt64) (now : UInt64), q.InWindow stored →
        (s.spans.traceKeys strict .always).length ≤ q.limit.toNat →
          ((Request.Draft.naming (some n) none endTs lookback limit).request now = .ok q →
            q.spanName ≠ none → ReturnsIff strict q s stored (Text.trim n = n
              ∨ ∃ o, s.Beside strict stored o ∧ q.InWindow o ∧ o.name = q.spanName))
          ∧ ∀ service, service ∈ r.services → ∀ x, cleanse x = some service →
            (Request.Draft.naming none (some x) endTs lookback limit).request now = .ok q →
            ReturnsIff strict q s stored ((n ≠ "" ∧ Text.trim n = n)
              ∨ ∃ o, s.Beside strict stored o ∧ q.InWindow o
                ∧ ∃ name ∈ s.services.get service, o.name = some name) := by
  have hs := (accepted_empty a).ingestAll batches.flatten
  rw [List.nil_append] at hs
  refine ⟨_, yields_acceptAll batches rfl, ?_⟩
  intro r hr n stored hname hstored hkept q endTs lookback limit now hwindow hlimit
  have hown := hs.holds.keyed _ _ hstored ▸ hstored
  refine ⟨fun hq hfilter => ?_, fun service hservice x hx hq => ?_⟩
  · obtain ⟨hplain, hany, hspan⟩ := Request.Draft.request_naming hq
    obtain ⟨m, hm⟩ := Option.ne_none_iff_exists'.1 hfilter
    rw [hm, Option.bind_some] at hspan
    have hcleanse : cleanse n = some m := (Option.filter_eq_some_iff.1 hspan.symm).1
    rw [← spanName?_eq_cleanse_iff hcleanse, ← hname, ← hkept, hm]
    exact hs.returnsIff_of_spanName hown hplain hany hm hwindow hlimit
  · obtain ⟨hplain, hsole, hnone⟩ := Request.Draft.request_naming hq
    rw [Option.bind_some, hx] at hsole
    rw [← exists_listed_iff hr hname hservice, ← hkept]
    exact hs.returnsIff_of_service hown hplain hnone hsole
      (((hs.merges r.key).mem_services hstored).2 ⟨r, hr, rfl, hservice⟩) hwindow hlimit

/-- A span of the service web whose name is spelled in some way. -/
def spelled (n : String) : Report := hostOnly.withName n

/-- In capitals a name is found. -/
theorem getTraces_naming_capitals :
    ∃ (s : Store) (byName byService : List Trace),
      ([[spelled "GET"]].forM accept).run {} = (.ok (), s)
      ∧ (getTraces true { spanName := some "get", endTs := 1, lookback := 1, limit := 10 }).run s
        = (.ok byName, s) ∧ (∃ trace ∈ byName, spelled "GET" ∈ trace)
      ∧ (getTraces true { service := some "web", endTs := 1, lookback := 1, limit := 10 }).run s
        = (.ok byService, s) ∧ ∃ trace ∈ byService, spelled "GET" ∈ trace := by
  obtain ⟨s, hrun, hall⟩ := getTraces_naming .asFound true [[spelled "GET"]]
  obtain ⟨t, hrun', hs⟩ := (accepted_empty .asFound).acceptAll [[spelled "GET"]]
  obtain rfl : s = t := congrArg Prod.snd (hrun.symm.trans hrun')
  have hstored : s.spans.get? (spelled "GET").key = some (spelled "GET") := by
    rw [hs.spans]
    decide +kernel
  have hlimit : (s.spans.traceKeys true .always).length ≤ (10 : UInt64).toNat := by
    rw [hs.spans]
    decide +kernel
  have hwindow : ∀ q : Request, q.endTs = 1 → q.lookback = 1 → q.InWindow (spelled "GET") := by
    intro q hend hlookback
    refine ⟨10, rfl, ?_⟩
    rw [hend, hlookback]
    decide
  have hall := hall (spelled "GET") List.mem_cons_self "GET" (spelled "GET") rfl hstored rfl
  obtain ⟨hnamed, -⟩ := hall { spanName := some "get", endTs := 1, lookback := 1, limit := 10 }
    (some 1) (some 1) (some 10) 0 (hwindow _ rfl rfl) hlimit
  obtain ⟨-, hserved⟩ := hall { service := some "web", endTs := 1, lookback := 1, limit := 10 }
    (some 1) (some 1) (some 10) 0 (hwindow _ rfl rfl) hlimit
  have hweb : "web" ∈ (spelled "GET").services.toList := by decide +kernel
  have htrim : Text.trim "GET" = "GET" := by decide +kernel
  obtain ⟨byName, hbyName, hfound⟩ := hnamed (by decide +kernel) (by decide)
  obtain ⟨byService, hbyService, hfound'⟩ :=
    hserved "web" hweb "Web " (by decide +kernel) (by decide +kernel)
  exact ⟨s, byName, byService, hrun, hbyName, hfound.2 (.inl htrim), hbyService,
    hfound'.2 (.inl ⟨by decide, htrim⟩)⟩

/-- With a blank at its end a name is not found, though it is listed for the service. -/
theorem not_getTraces_naming :
    ∃ s : Store, (accept [spelled "get "]).run {} = (.ok (), s)
      ∧ (spelled "get ").name = spanName? "get "
      ∧ s.spans.get? (spelled "get ").key = some (spelled "get ")
      ∧ (spelled "get ").services.toList = ["web"] ∧ (s.services.get "web").toList = ["get"]
      ∧ (Request.Draft.naming (some "get ") none (some 1) (some 1) (some 10)).request 0
        = .ok { spanName := some "get", endTs := 1, lookback := 1, limit := 10 }
      ∧ (getTraces true { spanName := some "get", endTs := 1, lookback := 1, limit := 10 }).run s
        = (.ok [], s)
      ∧ (Request.Draft.naming none (some "web") (some 1) (some 1) (some 10)).request 0
        = .ok { service := some "web", endTs := 1, lookback := 1, limit := 10 }
      ∧ (getTraces true { service := some "web", endTs := 1, lookback := 1, limit := 10 }).run s
        = (.ok [], s) :=
  ⟨_, Prod.ext (by decide +kernel) rfl, rfl, by decide +kernel, by decide +kernel,
    by decide +kernel, by decide +kernel, Prod.ext (by decide +kernel) rfl, by decide +kernel,
    Prod.ext (by decide +kernel) rfl⟩

end Session

end TraceArchive
