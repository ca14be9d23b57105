import TraceArchive.Proofs.Report.Interchanging
import TraceArchive.Trace.Grouping

set_option autoImplicit false

/-!
What the reports of a span merge to, told from all of them at once. Merging goes on pair by pair and
treats starts that are the same, that differ and that are missing each in its own way. Where all
reports tell their start and the clock has room for their ends, the merged time is simply the time
from the earliest start to the latest end, in whatever order the reports came. Name, parent and high
half come from the first report that knows them.
-/

namespace TraceArchive

instance lawfulOrderMax_uInt64 : Std.LawfulOrderMax UInt64 where
  max_eq_or s t := by
    rw [show max s t = if s ≤ t then t else s from rfl]
    split <;> simp
  max_le_iff s t u := by
    simp only [UInt64.le_iff_toNat_le, Report.toNat_max]
    omega

/-- The least of some instants does not depend on their order. -/
theorem min?_eq_of_perm {l m : List UInt64} (h : l.Perm m) : l.min? = m.min? := by
  apply Option.ext
  intro t
  simp only [List.min?_eq_some_iff, h.mem_iff]

theorem max?_eq_of_perm {l m : List UInt64} (h : l.Perm m) : l.max? = m.max? := by
  apply Option.ext
  intro t
  simp only [List.max?_eq_some_iff, h.mem_iff]

namespace Report

open Time

/-- The starts that some reports tell. -/
def starts (rs : List Report) : List UInt64 := rs.filterMap (·.timestamp)

/-- When some reports end that tell their start; without a duration they end where they start. -/
def ends (rs : List Report) : List UInt64 :=
  rs.filterMap fun r => r.timestamp.map fun t => t + r.duration.getD 0

/-- All start together, and none tells how long it took. -/
def Momentary (rs : List Report) : Prop :=
  (∀ s ∈ starts rs, ∀ t ∈ starts rs, s = t) ∧ ∀ r ∈ rs, r.duration = none

-- There are too many instants to go through all of them, so only those of the list are compared.
instance (rs : List Report) : Decidable (Momentary rs) :=
  decidable_of_iff (((starts rs).all fun s => (starts rs).all fun t => s == t) = true
      ∧ (rs.all fun r => r.duration.isNone) = true)
    (by simp [Momentary])

/-- The time from the earliest start to the latest end. -/
def totalDuration (rs : List Report) : Option UInt64 :=
  if Momentary rs then none else some ((ends rs).max?.getD 0 - (starts rs).min?.getD 0)

/-- The first name that is known, or else the name of a span that is unknown, if a report has it. -/
def knownName? (rs : List Report) : Option String :=
  let names := rs.filterMap (·.name)
  (names.find? (· ≠ unknownName)).or (names.find? (· = unknownName))

/-- What reports of one span tell together. -/
def summary (first : Report) (rest : List Report) : Report :=
  let rs := first :: rest
  { traceId := { first.traceId with high := Trace.highHalf rs }
    id := first.id
    parentId := rs.findSome? (·.parentId)
    name := knownName? rs
    timestamp := (starts rs).min?
    duration := totalDuration rs
    events := Ascending.ofList (rs.flatMap (·.events))
    tags := Ascending.ofList (rs.flatMap (·.tags))
    debug := rs.any (·.debug) }

/-! Merging two times, in a clock that has room for them. -/

section

variable {d e : Option UInt64}

theorem min_same (s : UInt64) : min s s = s := ite_self s

theorem longer_eq_none_iff : mergeTime.longer d e = none ↔ d = none ∧ e = none := by
  cases d <;> cases e <;> simp [mergeTime.longer]

variable {a b : Time} {s t : UInt64} (hs : a.1 = some s) (ht : b.1 = some t)
  (ha : HasRoom a a) (hb : HasRoom b b)

include ha hs in
theorem toNat_add_of_hasRoom : (s + a.2.getD 0).toNat = s.toNat + (a.2.getD 0).toNat := by
  have hroom := toNat_finish_of_hasRoom ha hs
  have hlast := toNat_finish_le s a.2
  rw [UInt64.toNat_add]
  apply Nat.mod_eq_of_lt
  exact Nat.lt_succ_of_le (hroom ▸ hlast)

include hs ht ha hb

/-- The merged time lasts from the earlier start to the later end. -/
theorem exists_mergeTime_eq : ∃ d, mergeTime a b = (some (min s t), d)
    ∧ (min s t).toNat + (d.getD 0).toNat
      = max (s.toNat + (a.2.getD 0).toNat) (t.toNat + (b.2.getD 0).toNat)
    ∧ (d = none ↔ s = t ∧ a.2 = none ∧ b.2 = none) := by
  have hmin := toNat_min s t
  rcases mergeTime_cases a b with ⟨s', t', span, hs', ht', hne, hmerge, hspan⟩ | ⟨hsame, hmerge⟩
  · obtain rfl := Option.some.inj (hs.symm.trans hs')
    obtain rfl := Option.some.inj (ht.symm.trans ht')
    rw [toNat_finish_of_hasRoom ha hs, toNat_finish_of_hasRoom hb ht] at hspan
    refine ⟨some span, hmerge, ?_, by simp [hne]⟩
    rw [hmin, Option.getD_some, hspan]
  · obtain rfl := hsame s t hs ht
    refine ⟨_, by rw [hmerge, hs, min_same]; rfl, ?_, by simp [longer_eq_none_iff]⟩
    rw [toNat_getD_longer, min_same]
    omega

theorem hasRoom_mergeTime : HasRoom (mergeTime a b) (mergeTime a b) := by
  obtain ⟨d, hmerge, hend, -⟩ := exists_mergeTime_eq hs ht ha hb
  have hfirst := toNat_finish_le s a.2
  have hsecond := toNat_finish_le t b.2
  rw [toNat_finish_of_hasRoom ha hs] at hfirst
  rw [toNat_finish_of_hasRoom hb ht] at hsecond
  rw [hmerge]
  rintro start duration hstart rfl
  obtain rfl := Option.some.inj hstart
  rw [Option.getD_some] at hend
  omega

end

/-! Merging the first two of some reports leaves what they tell together alone. -/

/-- A report that tells its start, and for whose end the clock has room. -/
structure Dated (r : Report) : Prop where
  start : ∃ t, r.timestamp = some t
  room : HasRoom r.time r.time

instance (r : Report) : Decidable r.Dated :=
  decidable_of_iff (r.timestamp.isSome = true ∧ HasRoom r.time r.time)
    ⟨fun h => ⟨Option.isSome_iff_exists.1 h.1, h.2⟩,
      fun h => ⟨Option.isSome_iff_exists.2 h.start, h.room⟩⟩

section

variable {a b : Report} (rest : List Report)

theorem highHalf_cons (r : Report) (rs : List Report) : Trace.highHalf (r :: rs)
    = if r.traceId.high = 0 then Trace.highHalf rs else r.traceId.high := by
  rw [Trace.highHalf, List.map_cons]
  split
  · next h =>
    rw [List.find?_cons_of_neg (by simp [h])]
    rfl
  · next h =>
    rw [List.find?_cons_of_pos (by simp [h])]
    rfl

theorem highHalf_merge :
    Trace.highHalf (a.merge b :: rest) = Trace.highHalf (a :: b :: rest) := by
  have hhigh : (a.merge b).traceId.high
      = if a.traceId.high = 0 then b.traceId.high else a.traceId.high := rfl
  simp only [highHalf_cons, hhigh]
  by_cases h : a.traceId.high = 0
  · simp only [h, if_true]
  · simp only [h, if_false]

theorem knownName?_cons (r : Report) (rs : List Report) : knownName? (r :: rs)
    = match r.name with
      | none => knownName? rs
      | some name =>
        if name = unknownName then (knownName? rs).or (some unknownName) else some name := by
  rw [knownName?]
  cases hr : r.name with
  | none => rw [List.filterMap_cons_none hr]; rfl
  | some name =>
    rw [List.filterMap_cons_some hr]
    dsimp only
    split
    · next h =>
      rw [List.find?_cons_of_neg (by simp [h]), List.find?_cons_of_pos (by simp [h]), knownName?, h]
      cases hu : (rs.filterMap (·.name)).find? (· = unknownName) with
      | none => rw [Option.or_none]
      | some other =>
        have hother : other = unknownName := by simpa using List.find?_some hu
        rw [hother, Option.or_assoc, Option.some_or]
    · next h =>
      rw [List.find?_cons_of_pos (by simp [h])]
      rfl

theorem knownName?_merge : knownName? (a.merge b :: rest) = knownName? (a :: b :: rest) := by
  have hname : (a.merge b).name = mergeName a.name b.name := rfl
  simp only [knownName?_cons, hname]
  cases ha : a.name with
  | none => cases hb : b.name <;> simp [mergeName]
  | some name =>
    cases hb : b.name with
    | none => by_cases h : name = unknownName <;> simp [mergeName, h]
    | some other =>
      by_cases h : name = unknownName <;> by_cases h' : other = unknownName <;>
        simp [mergeName, h, h']

variable (ha : a.Dated) (hb : b.Dated)

include ha hb

theorem Dated.merge : (a.merge b).Dated := by
  obtain ⟨s, hs⟩ := ha.start
  obtain ⟨t, ht⟩ := hb.start
  obtain ⟨d, hmerge, -, -⟩ := exists_mergeTime_eq (a := a.time) (b := b.time) hs ht ha.room hb.room
  exact ⟨⟨_, congrArg Prod.fst hmerge⟩, hasRoom_mergeTime (a := a.time) hs ht ha.room hb.room⟩

/-- What the merged report tells about time, beside what its parts tell. -/
theorem exists_ends_merge : ∃ s t, a.timestamp = some s ∧ b.timestamp = some t
    ∧ starts (a.merge b :: rest) = min s t :: starts rest
    ∧ ends (a.merge b :: rest)
      = max (s + a.duration.getD 0) (t + b.duration.getD 0) :: ends rest
    ∧ ((a.merge b).duration = none ↔ s = t ∧ a.duration = none ∧ b.duration = none) := by
  obtain ⟨s, hs⟩ := ha.start
  obtain ⟨t, ht⟩ := hb.start
  obtain ⟨d, hmerge, hend, hnone⟩ :=
    exists_mergeTime_eq (a := a.time) (b := b.time) hs ht ha.room hb.room
  have hstart : (a.merge b).timestamp = some (min s t) := congrArg Prod.fst hmerge
  have hduration : (a.merge b).duration = d := congrArg Prod.snd hmerge
  have hroom : (min s t + d.getD 0).toNat = (min s t).toNat + (d.getD 0).toNat := by
    have hdated : HasRoom (a.merge b).time (a.merge b).time := (ha.merge hb).room
    rw [← hduration]
    exact toNat_add_of_hasRoom (a := (a.merge b).time) hstart hdated
  have hlast : min s t + d.getD 0 = max (s + a.duration.getD 0) (t + b.duration.getD 0) := by
    apply UInt64.toNat_inj.1
    rw [hroom, hend, toNat_max]
    congr 1
    · exact (toNat_add_of_hasRoom (a := a.time) hs ha.room).symm
    · exact (toNat_add_of_hasRoom (a := b.time) ht hb.room).symm
  refine ⟨s, t, hs, ht, ?_, ?_, ?_⟩
  · simp [starts, hstart]
  · simp [ends, hstart, hduration, hlast]
  · rw [hduration]
    exact hnone

theorem min?_starts_merge :
    (starts (a.merge b :: rest)).min? = (starts (a :: b :: rest)).min? := by
  obtain ⟨s, t, hs, ht, hstarts, -, -⟩ := exists_ends_merge rest ha hb
  rw [hstarts, show starts (a :: b :: rest) = s :: t :: starts rest by simp [starts, hs, ht]]
  rfl

theorem max?_ends_merge : (ends (a.merge b :: rest)).max? = (ends (a :: b :: rest)).max? := by
  obtain ⟨s, t, hs, ht, -, hends, -⟩ := exists_ends_merge rest ha hb
  rw [hends, show ends (a :: b :: rest)
    = (s + a.duration.getD 0) :: (t + b.duration.getD 0) :: ends rest by simp [ends, hs, ht]]
  rfl

theorem momentary_merge_iff : Momentary (a.merge b :: rest) ↔ Momentary (a :: b :: rest) := by
  obtain ⟨s, t, hs, ht, hstarts, -, hnone⟩ := exists_ends_merge rest ha hb
  have hboth : starts (a :: b :: rest) = s :: t :: starts rest := by simp [starts, hs, ht]
  rw [Momentary, Momentary, hstarts, hboth]
  constructor
  · rintro ⟨hstart, hduration⟩
    obtain ⟨rfl, hda, hdb⟩ := hnone.1 (hduration _ (by simp))
    rw [min_same] at hstart
    refine ⟨by simpa using hstart, ?_⟩
    intro r hr
    simp only [List.mem_cons] at hr hduration
    rcases hr with rfl | rfl | hr
    · exact hda
    · exact hdb
    · exact hduration r (.inr hr)
  · rintro ⟨hstart, hduration⟩
    obtain rfl : s = t := hstart s (by simp) t (by simp)
    have hmerged := hnone.2 ⟨rfl, hduration a (by simp), hduration b (by simp)⟩
    rw [min_same]
    refine ⟨by simpa using hstart, ?_⟩
    intro r hr
    rcases List.mem_cons.1 hr with rfl | hr
    · exact hmerged
    · exact hduration r (by simp [hr])

theorem totalDuration_merge :
    totalDuration (a.merge b :: rest) = totalDuration (a :: b :: rest) := by
  simp only [totalDuration, momentary_merge_iff rest ha hb, min?_starts_merge rest ha hb,
    max?_ends_merge rest ha hb]

theorem summary_merge : summary (a.merge b) rest = summary a (b :: rest) := by
  have hparent : (a.merge b :: rest).findSome? (·.parentId)
      = (a :: b :: rest).findSome? (·.parentId) := by
    have : (a.merge b).parentId = a.parentId.or b.parentId := rfl
    cases hpa : a.parentId <;> cases hpb : b.parentId <;> simp [this, hpa, hpb]
  have hevents : Ascending.ofList ((a.merge b :: rest).flatMap (·.events))
      = Ascending.ofList ((a :: b :: rest).flatMap (·.events)) := by
    apply Ascending.ofList_congr
    simp [mem_events_merge, or_assoc]
  have htags : Ascending.ofList ((a.merge b :: rest).flatMap (·.tags))
      = Ascending.ofList ((a :: b :: rest).flatMap (·.tags)) := by
    apply Ascending.ofList_congr
    simp [mem_tags_merge, or_assoc]
  have hdebug : (a.merge b :: rest).any (·.debug) = (a :: b :: rest).any (·.debug) := by
    simp [merge, tidy, Bool.or_assoc]
  simp only [summary, highHalf_merge, hparent, knownName?_merge, min?_starts_merge rest ha hb,
    totalDuration_merge rest ha hb, hevents, htags, hdebug]
  rfl

omit hb in
/-- One report alone is told as it is, with its events and tags in order. -/
theorem summary_nil : summary a [] = a.tidy := by
  obtain ⟨s, hs⟩ := ha.start
  have hhigh : Trace.highHalf [a] = a.traceId.high := by
    by_cases h : a.traceId.high = 0 <;> simp [Trace.highHalf, h]
  have hname : knownName? [a] = a.name := by
    cases hname : a.name with
    | none => simp [knownName?, hname]
    | some name => by_cases h : name = unknownName <;> simp [knownName?, hname, h]
  have hparent : [a].findSome? (·.parentId) = a.parentId := by
    cases h : a.parentId <;> simp [h]
  have hduration : totalDuration [a] = a.duration := by
    have hstarts : starts [a] = [s] := by simp [starts, hs]
    have hends : ends [a] = [s + a.duration.getD 0] := by simp [ends, hs]
    simp only [totalDuration, Momentary, hstarts, hends]
    cases h : a.duration with
    | none => simp [h]
    | some d =>
      have : s + d - s = d := by rw [UInt64.add_comm, UInt64.add_sub_cancel]
      simp [h, this]
  simp [summary, tidy, hhigh, hname, hparent, hduration, starts, hs]

end

theorem tidy_foldl_merge_of_tidy {first : Report} (h : first.tidy = first) (rest : List Report) :
    (rest.foldl merge first).tidy = rest.foldl merge first := by
  induction rest generalizing first with
  | nil => exact h
  | cons r rest ih => exact ih (tidy_tidy _)

theorem tidy_foldl_merge {first : Report} {rest : List Report}
    (h : ∀ r ∈ first :: rest, r.Dated) : (rest.foldl merge first).tidy = summary first rest := by
  induction rest generalizing first with
  | nil => exact (summary_nil (h first (by simp))).symm
  | cons r rest ih =>
    have hfirst := h first (by simp)
    have hr := h r (by simp)
    calc ((r :: rest).foldl merge first).tidy
      _ = summary (first.merge r) rest := by
        apply ih
        intro s hs
        rcases List.mem_cons.1 hs with rfl | hs
        · exact hfirst.merge hr
        · exact h s (by simp [hs])
      _ = summary first (r :: rest) := summary_merge rest hfirst hr

section

variable {first first' : Report} {rest rest' : List Report}
  (h : (first' :: rest').Perm (first :: rest))

include h

theorem totalDuration_of_perm :
    totalDuration (first' :: rest') = totalDuration (first :: rest) := by
  have hstarts : (starts (first' :: rest')).Perm (starts (first :: rest)) := h.filterMap _
  have hends : (ends (first' :: rest')).Perm (ends (first :: rest)) := h.filterMap _
  have hmomentary : Momentary (first' :: rest') ↔ Momentary (first :: rest) := by
    simp only [Momentary, hstarts.mem_iff, h.mem_iff]
  simp only [totalDuration, hmomentary, min?_eq_of_perm hstarts, max?_eq_of_perm hends]

/-- Lists, time and debug flag of what reports tell do not depend on their order. -/
theorem summary_of_perm : (summary first' rest').events = (summary first rest).events
    ∧ (summary first' rest').tags = (summary first rest).tags
    ∧ (summary first' rest').time = (summary first rest).time
    ∧ (summary first' rest').debug = (summary first rest).debug := by
  have hstarts : (starts (first' :: rest')).Perm (starts (first :: rest)) := h.filterMap _
  have hdebug : (first' :: rest').any (·.debug) = (first :: rest).any (·.debug) := h.any_eq
  simp only [summary, time, min?_eq_of_perm hstarts, totalDuration_of_perm h, hdebug, and_true]
  constructor
  · apply Ascending.ofList_congr
    intro e
    simp only [List.mem_flatMap, h.mem_iff]
  · apply Ascending.ofList_congr
    intro t
    simp only [List.mem_flatMap, h.mem_iff]

end

/-- Reports of a span merge to what they tell together. Events, tags, time and debug flag of the
merged report are the same in whatever order they are merged. -/
theorem foldl_merge_eq_summary (first : Report) (rest : List Report) (hrest : rest ≠ [])
    (hdated : ∀ r ∈ first :: rest, r.Dated) :
    let merged := rest.foldl merge first
    merged = summary first rest
      ∧ (Ascending merged.events ∧ ∀ e, e ∈ merged.events ↔ ∃ r ∈ first :: rest, e ∈ r.events)
      ∧ (Ascending merged.tags ∧ ∀ t, t ∈ merged.tags ↔ ∃ r ∈ first :: rest, t ∈ r.tags)
      ∧ ∀ first' rest', (first' :: rest').Perm (first :: rest) →
        let again := rest'.foldl merge first'
        again.events = merged.events ∧ again.tags = merged.tags ∧ again.time = merged.time
          ∧ again.debug = merged.debug := by
  -- Merging keeps lists in order, so what two reports or more merge to is tidy.
  have closed : ∀ first rest, rest ≠ [] → (∀ r ∈ first :: rest, r.Dated) →
      rest.foldl merge first = summary first rest := by
    intro first rest hrest hdated
    rw [← tidy_foldl_merge hdated]
    cases rest with
    | nil => exact absurd rfl hrest
    | cons r rest => exact (tidy_foldl_merge_of_tidy (tidy_tidy _) rest).symm
  have hmerged := closed first rest hrest hdated
  refine ⟨hmerged, ⟨?_, ?_⟩, ⟨?_, ?_⟩, ?_⟩
  · rw [hmerged]
    exact Ascending.ascending_ofList _
  · simp [mem_events_foldl_merge]
  · rw [hmerged]
    exact Ascending.ascending_ofList _
  · simp [mem_tags_foldl_merge]
  · intro first' rest' hperm
    have hrest' : rest' ≠ [] := by
      rintro rfl
      have := hperm.length_eq
      cases rest <;> simp_all
    rw [hmerged, closed first' rest' hrest' fun r hr => hdated r (hperm.mem_iff.1 hr)]
    exact summary_of_perm hperm

/-- A host that saw a span begin. -/
def begun : Report where
  traceId := ⟨0, 1⟩
  id := 2
  name := some unknownName
  timestamp := some 20
  events := [{ timestamp := 20, value := "sr" }]

/-- A host from which the span was called. -/
def called : Report where
  traceId := ⟨0, 1⟩
  id := 2
  parentId := some 1
  timestamp := some 10
  duration := some 30
  events := [{ timestamp := 10, value := "cs" }]

/-- A host that knows the name of the span. -/
def named : Report where
  traceId := ⟨9, 1⟩
  id := 2
  parentId := some 3
  name := some "get"
  timestamp := some 20
  duration := some 5
  events := [{ timestamp := 20, value := "sr" }]
  debug := true

theorem foldl_merge_begun :
    [called, named] ≠ [] ∧ (∀ r ∈ [begun, called, named], r.Dated)
      ∧ [called, named].foldl merge begun = {
          traceId := ⟨9, 1⟩, id := 2, parentId := some 1, name := some "get"
          timestamp := some 10, duration := some 30
          events := [{ timestamp := 10, value := "cs" }, { timestamp := 20, value := "sr" }]
          debug := true }
      ∧ ([begun, called].foldl merge named).time = ([called, named].foldl merge begun).time
      ∧ [begun, called].foldl merge named ≠ [called, named].foldl merge begun := by
  have hrest : [called, named] ≠ [] := by simp
  have hdated : ∀ r ∈ [begun, called, named], r.Dated := by decide +kernel
  have hperm : [named, begun, called].Perm [begun, called, named] := by decide +kernel
  obtain ⟨hmerged, -, -, hagain⟩ := foldl_merge_eq_summary begun [called, named] hrest hdated
  obtain ⟨-, -, htime, -⟩ := hagain named [begun, called] hperm
  refine ⟨hrest, hdated, ?_, htime, by decide +kernel⟩
  rw [hmerged]
  decide +kernel

end Report

end TraceArchive
