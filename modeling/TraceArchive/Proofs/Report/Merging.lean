import TraceArchive.Proofs.Report.Contents

set_option autoImplicit false

/-!
Reports of one span merged one after the other. The merged report has the events and the tags of
all of them. Fragments of a report tell nothing that the report does not tell; they merge to a
fragment again, and to the report itself if together they tell all of it.
-/

namespace TraceArchive.Report

/-- Reports of one span merged from the left; without any report there is nothing to merge. -/
def mergeAll? : List Report → Option Report
  | [] => none
  | r :: rs => some (rs.foldl merge r)

theorem mergeAll?_concat (rs : List Report) (r : Report) :
    mergeAll? (rs ++ [r]) = some (match mergeAll? rs with
      | some merged => merged.merge r
      | none => r) := by
  cases rs with
  | nil => rfl
  | cons s rs =>
    simp only [mergeAll?, List.cons_append, List.foldl_append, List.foldl_cons, List.foldl_nil]

theorem exists_mergeAll?_iff {rs : List Report} : (∃ m, mergeAll? rs = some m) ↔ ∃ r, r ∈ rs := by
  cases rs <;> simp [mergeAll?]

section

variable {rs : List Report} {a m : Report}

theorem mem_events_foldl_merge {e : Event} :
    e ∈ (rs.foldl merge a).events ↔ e ∈ a.events ∨ ∃ r ∈ rs, e ∈ r.events := by
  induction rs generalizing a with
  | nil => simp
  | cons r rs ih => simp [ih, mem_events_merge, or_assoc]

theorem mem_tags_foldl_merge {t : Tag} :
    t ∈ (rs.foldl merge a).tags ↔ t ∈ a.tags ∨ ∃ r ∈ rs, t ∈ r.tags := by
  induction rs generalizing a with
  | nil => simp
  | cons r rs ih => simp [ih, mem_tags_merge, or_assoc]

theorem mem_events_mergeAll? (h : mergeAll? rs = some m) {e : Event} :
    e ∈ m.events ↔ ∃ r ∈ rs, e ∈ r.events := by
  cases rs with
  | nil => cases h
  | cons r rs =>
    obtain rfl := Option.some.inj h
    simp [mem_events_foldl_merge]

theorem mem_tags_mergeAll? (h : mergeAll? rs = some m) {t : Tag} :
    t ∈ m.tags ↔ ∃ r ∈ rs, t ∈ r.tags := by
  cases rs with
  | nil => cases h
  | cons r rs =>
    obtain rfl := Option.some.inj h
    simp [mem_tags_foldl_merge]

theorem key_mergeAll? {k : Key} (h : mergeAll? rs = some m) (hk : ∀ r ∈ rs, r.key = k) :
    m.key = k := by
  cases rs with
  | nil => cases h
  | cons r rs =>
    obtain rfl := Option.some.inj h
    have hr : r.key = k := hk r (by simp)
    have hrs : ∀ s ∈ rs, s.key = k := fun s hs => hk s (List.mem_cons_of_mem _ hs)
    clear hk h
    induction rs generalizing r with
    | nil => exact hr
    | cons s rs ih =>
      apply ih
      · rw [key_merge (hr.trans (hrs s (by simp)).symm), hr]
      · exact fun t ht => hrs t (List.mem_cons_of_mem _ ht)

end

theorem tidy_tidy (r : Report) : r.tidy.tidy = r.tidy := by
  have events : Ascending r.tidy.events := Ascending.ascending_ofList _
  have tags : Ascending r.tidy.tags := Ascending.ascending_ofList _
  rw [tidy, Ascending.ofList_of_ascending events, Ascending.ofList_of_ascending tags]

/-- Start and duration, as they are merged. -/
def time (r : Report) : Option UInt64 × Option UInt64 := (r.timestamp, r.duration)

theorem mergeTime_none_left (t : Option UInt64 × Option UInt64) : mergeTime (none, none) t = t := by
  obtain ⟨s, d⟩ := t
  cases d <;> simp [mergeTime, mergeTime.longer]

theorem mergeTime_none_right (t : Option UInt64 × Option UInt64) :
    mergeTime t (none, none) = t := by
  obtain ⟨s, d⟩ := t
  cases s <;> cases d <;> simp [mergeTime, mergeTime.longer]

theorem mergeTime_self (t : Option UInt64 × Option UInt64) : mergeTime t t = t := by
  have hmax : ∀ d : UInt64, max d d = d := fun d => ite_self d
  obtain ⟨s, d⟩ := t
  cases s <;> cases d <;> simp [mergeTime, mergeTime.longer, hmax]

/-- Part of what a report tells. A part has the time of the whole or none. -/
structure Fragment (x r : Report) : Prop where
  traceId : x.traceId = r.traceId
  id : x.id = r.id
  parentId : x.parentId = r.parentId
  name : x.name = r.name
  debug : x.debug = r.debug
  time : x.time = (none, none) ∨ x.time = r.time
  events : ∀ e ∈ x.events, e ∈ r.events
  tags : ∀ t ∈ x.tags, t ∈ r.tags
  tidy : x.tidy = x

namespace Fragment

variable {x y r : Report}

theorem time_merge (hx : x.Fragment r) (hy : y.Fragment r) :
    (x.merge y).time = if x.time = r.time then r.time else y.time := by
  show mergeTime x.time y.time = _
  rcases hx.time with hxt | hxt
  · split
    · next h =>
      rcases hy.time with hyt | hyt
      · rw [hxt, hyt, mergeTime_none_left, ← h, hxt]
      · rw [hxt, mergeTime_none_left, hyt]
    · rw [hxt, mergeTime_none_left]
  · rw [if_pos hxt, hxt]
    rcases hy.time with hyt | hyt
    · rw [hyt, mergeTime_none_right]
    · rw [hyt, mergeTime_self]

theorem merge (hx : x.Fragment r) (hy : y.Fragment r) : (x.merge y).Fragment r where
  traceId := by simp [Report.merge, Report.tidy, hx.traceId, hy.traceId]
  id := hx.id
  parentId := by simp [Report.merge, Report.tidy, hx.parentId, hy.parentId]
  name := by simp [Report.merge, Report.tidy, mergeName, hx.name, hy.name]
  debug := by simp [Report.merge, Report.tidy, hx.debug, hy.debug]
  time := by
    rw [hx.time_merge hy]
    split
    · exact .inr rfl
    · exact hy.time
  events e he := (mem_events_merge.1 he).elim (hx.events e) (hy.events e)
  tags t ht := (mem_tags_merge.1 ht).elim (hx.tags t) (hy.tags t)
  tidy := tidy_tidy _

theorem foldl_merge {rs : List Report} (hx : x.Fragment r) (hrs : ∀ y ∈ rs, y.Fragment r) :
    (rs.foldl Report.merge x).Fragment r
      ∧ ((∃ y ∈ x :: rs, y.time = r.time) → (rs.foldl Report.merge x).time = r.time) := by
  induction rs generalizing x with
  | nil => exact ⟨hx, by simp⟩
  | cons y rs ih =>
    have hy := hrs y (by simp)
    obtain ⟨hfragment, htime⟩ := ih (hx.merge hy) fun z hz => hrs z (List.mem_cons_of_mem _ hz)
    refine ⟨hfragment, fun ⟨z, hz, hzt⟩ => htime ?_⟩
    rcases List.mem_cons.1 hz with rfl | hz
    · exact ⟨z.merge y, by simp, by rw [hx.time_merge hy, if_pos hzt]⟩
    rcases List.mem_cons.1 hz with rfl | hz
    · exact ⟨x.merge z, by simp, by rw [hx.time_merge hy, hzt, ite_self]⟩
    · exact ⟨z, List.mem_cons_of_mem _ hz, hzt⟩

/-- A fragment that tells everything is the report. -/
theorem eq (hx : x.Fragment r) (hr : r.Normal) (htime : x.time = r.time)
    (hevents : ∀ e ∈ r.events, e ∈ x.events) (htags : ∀ t ∈ r.tags, t ∈ x.tags) : x = r := by
  have events : x.events = r.events := by
    rw [← congrArg Report.events hx.tidy]
    apply Ascending.eq_of_mem_iff (Ascending.ascending_ofList _) hr.events
    intro e
    rw [Ascending.mem_ofList]
    exact ⟨hx.events e, hevents e⟩
  have tags : x.tags = r.tags := by
    rw [← congrArg Report.tags hx.tidy]
    apply Ascending.eq_of_mem_iff (Ascending.ascending_ofList _) hr.tags
    intro t
    rw [Ascending.mem_ofList]
    exact ⟨hx.tags t, htags t⟩
  obtain ⟨htimestamp, hduration⟩ := Prod.mk.inj htime
  cases x
  cases r
  simp only [mk.injEq]
  exact ⟨hx.traceId, hx.id, hx.parentId, hx.name, htimestamp, hduration, events, tags, hx.debug⟩

end Fragment

/-- Fragments that tell everything together merge to the report. -/
theorem mergeAll?_eq_some {rs : List Report} {r : Report} (hr : r.Normal)
    (hrs : ∀ x ∈ rs, x.Fragment r) (htime : ∃ x ∈ rs, x.time = r.time)
    (hevents : ∀ e ∈ r.events, ∃ x ∈ rs, e ∈ x.events)
    (htags : ∀ t ∈ r.tags, ∃ x ∈ rs, t ∈ x.tags) : mergeAll? rs = some r := by
  cases rs with
  | nil => simp at htime
  | cons x rs =>
    obtain ⟨hfragment, htime'⟩ := (hrs x (by simp)).foldl_merge fun y hy =>
      hrs y (List.mem_cons_of_mem _ hy)
    refine congrArg some (hfragment.eq hr (htime' htime) ?_ ?_)
    · exact fun e he => (mem_events_mergeAll? rfl).2 (hevents e he)
    · exact fun t ht => (mem_tags_mergeAll? rfl).2 (htags t ht)

end TraceArchive.Report
