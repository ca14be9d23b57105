import TraceArchive.Proofs.Report.Absorbing

set_option autoImplicit false

/-!
Reports of a span that may be merged in either order. They have the same name and start, do not
contradict each other about the parent, and differ in what merging puts together. As soon as another
report was merged before them, that one must not start later: an end that is cut off at the last
instant is cut off only where two starts differ.
-/

namespace TraceArchive

theorem Ascending.ofList_congr {α : Type} [Ord α] [Std.TransOrd α] [Std.LawfulEqOrd α]
    {l m : List α} (h : ∀ a, a ∈ l ↔ a ∈ m) : Ascending.ofList l = Ascending.ofList m := by
  apply Ascending.eq_of_mem_iff (Ascending.ascending_ofList l) (Ascending.ascending_ofList m)
  intro a
  rw [Ascending.mem_ofList, Ascending.mem_ofList, h]

namespace Report

/-- Reports of one span that differ in durations, events, tags and the debug flag, or in whether
they know the parent. -/
structure Interchangeable (a b : Report) : Prop where
  key : a.key = b.key
  parentId : a.parentId.or b.parentId = b.parentId.or a.parentId
  name : a.name = b.name
  timestamp : a.timestamp = b.timestamp

/-- Of two starts that are known the first one is not later. -/
def NotAfter (s t : Option UInt64) : Prop := ∀ x y, s = some x → t = some y → x ≤ y

theorem longer_comm (d e : Option UInt64) : mergeTime.longer d e = mergeTime.longer e d := by
  cases d <;> cases e <;> simp [mergeTime.longer]
  apply UInt64.toNat_inj.1
  rw [toNat_max, toNat_max, Nat.max_comm]

theorem longer_right_comm (c d e : Option UInt64) :
    mergeTime.longer (mergeTime.longer c d) e = mergeTime.longer (mergeTime.longer c e) d := by
  cases c <;> cases d <;> cases e <;> simp [mergeTime.longer]
  all_goals
    apply UInt64.toNat_inj.1
    simp only [toNat_max]
    omega

theorem mergeTime_same (s d e : Option UInt64) :
    mergeTime (s, d) (s, e) = (s, mergeTime.longer d e) := by
  cases s <;> simp [mergeTime]

/-- Merging with a later start lasts to the later end. -/
theorem mergeTime_later {s t : UInt64} (h : s < t) (d e : Option UInt64) :
    mergeTime (some s, d) (some t, e)
      = (some s, some (max (finish s d) (finish t e) - s)) := by
  have hne : s ≠ t := fun he => UInt64.lt_irrefl _ (he ▸ h)
  have hmin : min s t = s := by
    apply UInt64.toNat_inj.1
    have := UInt64.lt_iff_toNat_lt.1 h
    rw [toNat_min]
    omega
  simp [mergeTime, hne, hmin]

theorem finish_sub {s m : UInt64} (h : s.toNat ≤ m.toNat) : finish s (some (m - s)) = m := by
  apply UInt64.toNat_inj.1
  have hlast : m.toNat ≤ lastInstant.toNat := Nat.le_of_lt_succ m.toNat_lt
  rw [toNat_finish, Option.getD_some, UInt64.toNat_sub_of_le _ _ (UInt64.le_iff_toNat_le.2 h)]
  omega

theorem le_finish (s : UInt64) (d : Option UInt64) : s.toNat ≤ (finish s d).toNat := by
  have : s.toNat ≤ lastInstant.toNat := Nat.le_of_lt_succ s.toNat_lt
  rw [toNat_finish]
  omega

/-- Two times with one start may be merged in either order into a time that does not start later. -/
theorem mergeTime_right_comm {t : Time} {s : Option UInt64} (h : NotAfter t.1 s)
    (d e : Option UInt64) :
    mergeTime (mergeTime t (s, d)) (s, e) = mergeTime (mergeTime t (s, e)) (s, d) := by
  obtain ⟨t, c⟩ := t
  cases s with
  | none => cases t <;> simp [mergeTime, longer_right_comm]
  | some s =>
    cases t with
    | none => simp [mergeTime, longer_right_comm]
    | some t =>
      by_cases hst : t = s
      · rw [hst, mergeTime_same, mergeTime_same, mergeTime_same, mergeTime_same, longer_right_comm]
      · have hlt : t < s := UInt64.lt_of_le_of_ne (h t s rfl rfl) hst
        have hreach : ∀ x : Option UInt64, t.toNat ≤ (max (finish t c) (finish s x)).toNat := by
          intro x
          have := le_finish t c
          rw [toNat_max]
          omega
        have twice : ∀ x y : Option UInt64,
            mergeTime (mergeTime (some t, c) (some s, x)) (some s, y)
              = (some t, some (max (max (finish t c) (finish s x)) (finish s y) - t)) := by
          intro x y
          rw [mergeTime_later hlt, mergeTime_later hlt, finish_sub (hreach x)]
        have hmax : max (max (finish t c) (finish s d)) (finish s e)
            = max (max (finish t c) (finish s e)) (finish s d) := by
          apply UInt64.toNat_inj.1
          simp only [toNat_max]
          omega
        rw [twice, twice, hmax]

theorem notAfter_mergeTime {t u : Time} {s : Option UInt64} (ht : NotAfter t.1 s)
    (hu : NotAfter u.1 s) : NotAfter (mergeTime t u).1 s := by
  rcases mergeTime_cases t u with ⟨x, y, span, hx, hy, -, hmerge, -⟩ | ⟨-, hmerge⟩
  · rw [hmerge]
    intro z v hz hv
    obtain rfl := Option.some.inj hz
    have hxv := UInt64.le_iff_toNat_le.1 (ht x v hx hv)
    rw [UInt64.le_iff_toNat_le, toNat_min]
    omega
  · rw [hmerge]
    intro z v hz hv
    rcases Option.or_eq_some_iff.1 hz with hz | ⟨-, hz⟩
    · exact ht z v hz hv
    · exact hu z v hz hv

/-- Merged reports are told apart by what is merged, and lists by their members only. -/
theorem merge_congr {a b c d : Report} (traceId : (a.merge b).traceId = (c.merge d).traceId)
    (id : a.id = c.id) (parentId : a.parentId.or b.parentId = c.parentId.or d.parentId)
    (name : mergeName a.name b.name = mergeName c.name d.name)
    (time : mergeTime a.time b.time = mergeTime c.time d.time)
    (events : ∀ e, e ∈ a.events ∨ e ∈ b.events ↔ e ∈ c.events ∨ e ∈ d.events)
    (tags : ∀ t, t ∈ a.tags ∨ t ∈ b.tags ↔ t ∈ c.tags ∨ t ∈ d.tags)
    (debug : (a.debug || b.debug) = (c.debug || d.debug)) : a.merge b = c.merge d := by
  have hevents : (a.merge b).events = (c.merge d).events := by
    apply Ascending.ofList_congr
    intro e
    rw [List.mem_append, List.mem_append, events]
  have htags : (a.merge b).tags = (c.merge d).tags := by
    apply Ascending.ofList_congr
    intro t
    rw [List.mem_append, List.mem_append, tags]
  have htimestamp : (a.merge b).timestamp = (c.merge d).timestamp := congrArg Prod.fst time
  have hduration : (a.merge b).duration = (c.merge d).duration := congrArg Prod.snd time
  calc a.merge b
    _ = ⟨(a.merge b).traceId, a.id, a.parentId.or b.parentId, mergeName a.name b.name,
          (a.merge b).timestamp, (a.merge b).duration, (a.merge b).events, (a.merge b).tags,
          a.debug || b.debug⟩ := rfl
    _ = ⟨(c.merge d).traceId, c.id, c.parentId.or d.parentId, mergeName c.name d.name,
          (c.merge d).timestamp, (c.merge d).duration, (c.merge d).events, (c.merge d).tags,
          c.debug || d.debug⟩ := by
      rw [traceId, id, parentId, name, htimestamp, hduration, hevents, htags, debug]
    _ = c.merge d := rfl

namespace Interchangeable

variable {a b : Report}

theorem merge_comm (h : a.Interchangeable b) : a.merge b = b.merge a := by
  obtain ⟨htrace, hid⟩ := Key.mk.inj h.key
  apply merge_congr
  · simp [merge, tidy, htrace]
  · exact hid
  · exact h.parentId
  · rw [h.name]
  · rw [time, time, h.timestamp, mergeTime_same, mergeTime_same, longer_comm]
  · exact fun e => or_comm
  · exact fun t => or_comm
  · exact Bool.or_comm ..

/-- Which one of two interchangeable reports is merged first does not matter. -/
theorem merge_right_comm (h : a.Interchangeable b) {z : Report}
    (hz : NotAfter z.timestamp a.timestamp) : (z.merge a).merge b = (z.merge b).merge a := by
  obtain ⟨htrace, -⟩ := Key.mk.inj h.key
  apply merge_congr
  · simp [merge, tidy, htrace]
  · rfl
  · show (z.parentId.or a.parentId).or b.parentId = (z.parentId.or b.parentId).or a.parentId
    rw [Option.or_assoc, Option.or_assoc, h.parentId]
  · show mergeName (mergeName z.name a.name) b.name = mergeName (mergeName z.name b.name) a.name
    rw [h.name]
  · show mergeTime (mergeTime z.time a.time) b.time = mergeTime (mergeTime z.time b.time) a.time
    have hb : b.time = (a.timestamp, b.duration) := by rw [time, h.timestamp]
    rw [hb]
    exact mergeTime_right_comm hz a.duration b.duration
  · intro e
    rw [mem_events_merge, mem_events_merge, or_right_comm]
  · intro t
    rw [mem_tags_merge, mem_tags_merge, or_right_comm]
  · show (z.debug || a.debug || b.debug) = (z.debug || b.debug || a.debug)
    exact Bool.or_right_comm ..

end Interchangeable

end Report

end TraceArchive
