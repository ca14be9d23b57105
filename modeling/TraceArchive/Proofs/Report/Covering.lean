import TraceArchive.Proofs.Report.Interchanging

set_option autoImplicit false

/-!
The time that merging covers. A merged report starts no later and ends no earlier than each of the
reports that it was merged from, for all starts and durations: where an end is past the last
instant, all ends are told as far as that instant. Merging also keeps reports in the form in which
they are built.
-/

namespace TraceArchive.Report

/-- The report tells a time that starts no later than that of another report and ends no earlier,
if the other one tells its start. -/
def Encloses (r inner : Report) : Prop :=
  ∀ t, inner.timestamp = some t → ∃ s, r.timestamp = some s ∧ s ≤ t
    ∧ finish t inner.duration ≤ finish s r.duration

/-! Merged times are not zero and reach over both of the times. -/

section

variable {a b : Time}

/-- Two starts that differ leave a positive time between the first start and the last end. -/
theorem min_lt_max_finish {s t : UInt64} (h : s ≠ t) (d e : Option UInt64) :
    min s.toNat t.toNat < max (finish s d).toNat (finish t e).toNat := by
  have hne : s.toNat ≠ t.toNat := fun he => h (UInt64.toNat_inj.1 he)
  have hs := le_finish s d
  have ht := le_finish t e
  omega

theorem mergeTime_fst_ne_zero (ha : a.1 ≠ some 0) (hb : b.1 ≠ some 0) :
    (mergeTime a b).1 ≠ some 0 := by
  intro hzero
  rcases mergeTime_cases a b with ⟨s, t, span, hs, ht, -, hmerge, -⟩ | ⟨-, hmerge⟩
  · rw [hmerge] at hzero
    have hmin := congrArg UInt64.toNat (Option.some.inj hzero)
    rw [toNat_min, UInt64.toNat_zero] at hmin
    have hfirst : s.toNat ≠ 0 := fun he => ha (hs.trans (congrArg some (UInt64.toNat_inj.1 he)))
    have hsecond : t.toNat ≠ 0 := fun he => hb (ht.trans (congrArg some (UInt64.toNat_inj.1 he)))
    omega
  · rw [hmerge] at hzero
    rcases Option.or_eq_some_iff.1 hzero with h | ⟨-, h⟩
    · exact ha h
    · exact hb h

theorem mergeTime_snd_ne_zero (ha : a.2 ≠ some 0) (hb : b.2 ≠ some 0) :
    (mergeTime a b).2 ≠ some 0 := by
  intro hzero
  rcases mergeTime_cases a b with ⟨s, t, span, -, -, hne, hmerge, hspan⟩ | ⟨-, hmerge⟩
  · rw [hmerge] at hzero
    obtain rfl := Option.some.inj hzero
    have hpos := min_lt_max_finish hne a.2 b.2
    rw [UInt64.toNat_zero] at hspan
    omega
  · rw [hmerge] at hzero
    exact (longer_eq_some hzero).elim ha hb

/-- Where the starts differ, the merged time ends in the later end, and else it is no shorter than
either time. -/
theorem exists_le_mergeTime {c : Time} (hc : c = a ∨ c = b) {t : UInt64} (ht : c.1 = some t) :
    ∃ s, (mergeTime a b).1 = some s ∧ s ≤ t
      ∧ finish t c.2 ≤ finish s (mergeTime a b).2 := by
  simp only [UInt64.le_iff_toNat_le]
  rcases mergeTime_cases a b with ⟨s, u, span, hs, hu, -, hmerge, hspan⟩ | ⟨hsame, hmerge⟩
  · have hend := toNat_finish (min s u) (some span)
    have hfirst := Time.toNat_finish_le s a.2
    have hsecond := Time.toNat_finish_le u b.2
    have hmin := toNat_min s u
    rw [Option.getD_some] at hend
    rw [hmerge]
    refine ⟨_, rfl, ?_⟩
    dsimp only
    rcases hc with rfl | rfl
    · obtain rfl := Option.some.inj (hs.symm.trans ht)
      omega
    · obtain rfl := Option.some.inj (hu.symm.trans ht)
      omega
  · have hstart : a.1.or b.1 = some t := by
      rcases hc with rfl | rfl
      · rw [ht, Option.some_or]
      · cases ha : a.1 with
        | none => rw [Option.none_or, ht]
        | some s => rw [Option.some_or, hsame s t ha ht]
    have hlonger := toNat_getD_longer (d := a.2) (e := b.2)
    have hlength : (c.2.getD 0).toNat ≤ ((mergeTime.longer a.2 b.2).getD 0).toNat := by
      rcases hc with rfl | rfl <;> omega
    rw [hmerge]
    refine ⟨t, hstart, Nat.le_refl _, ?_⟩
    dsimp only
    rw [toNat_finish, toNat_finish]
    omega

end

theorem mergeName_eq_some {m n : Option String} {name : String} (h : mergeName m n = some name) :
    m = some name ∨ n = some name := by
  unfold mergeName at h
  split at h
  · exact .inr h
  · exact .inl h

section

variable {a b r : Report}

theorem Normal.merge (ha : a.Normal) (hb : b.Normal) : (a.merge b).Normal where
  events := Ascending.ascending_ofList _
  tags := Ascending.ascending_ofList _
  name name h := (mergeName_eq_some h).elim (ha.name name) (hb.name name)
  timestamp := mergeTime_fst_ne_zero (a := a.time) (b := b.time) ha.timestamp hb.timestamp
  duration := mergeTime_snd_ne_zero (a := a.time) (b := b.time) ha.duration hb.duration

theorem encloses_merge_left (a b : Report) : (a.merge b).Encloses a :=
  fun _ ht => exists_le_mergeTime (a := a.time) (b := b.time) (.inl rfl) ht

theorem encloses_merge_right (a b : Report) : (a.merge b).Encloses b :=
  fun _ ht => exists_le_mergeTime (a := a.time) (b := b.time) (.inr rfl) ht

end

/-- The later end is not before the earlier start, so a merged duration is their difference without
any overflow. What is merged from built reports is as built, and encloses both of them. -/
theorem Normal.merge_encloses {a b : Report} (ha : a.Normal) (hb : b.Normal) :
    (∀ s t, a.timestamp = some s → b.timestamp = some t → s ≠ t →
        min s t ≤ max (finish s a.duration) (finish t b.duration)
        ∧ ∃ d, (a.merge b).duration = some d
          ∧ d.toNat = (max (finish s a.duration) (finish t b.duration)).toNat - (min s t).toNat)
      ∧ (a.merge b).Normal ∧ (a.merge b).Encloses a ∧ (a.merge b).Encloses b := by
  refine ⟨?_, ha.merge hb, encloses_merge_left a b, encloses_merge_right a b⟩
  intro s t hs ht hne
  have hpos := min_lt_max_finish hne a.duration b.duration
  rcases mergeTime_cases a.time b.time with ⟨s', t', span, hs', ht', -, hmerge, hspan⟩ | ⟨hsame, -⟩
  · obtain rfl := Option.some.inj (hs'.symm.trans hs)
    obtain rfl := Option.some.inj (ht'.symm.trans ht)
    have hduration : (a.merge b).duration = some span := congrArg Prod.snd hmerge
    have hspan : min s'.toNat t'.toNat + span.toNat
      = max (finish s' a.duration).toNat (finish t' b.duration).toNat := hspan
    rw [UInt64.le_iff_toNat_le, toNat_max, toNat_min]
    exact ⟨by omega, span, hduration, by omega⟩
  · exact absurd (hsame s t hs ht) hne

/-- A call whose end is past the last instant. -/
def lastCall : Report where
  traceId := ⟨0, 1⟩
  id := 1
  name := some "get"
  timestamp := some 18446744073709551606
  duration := some 100

/-- A call that tells its start only. -/
def firstCall : Report where
  traceId := ⟨0, 1⟩
  id := 1
  timestamp := some 5
  events := [{ timestamp := 5, value := "cs", endpoint := some { service := "web" } }]

theorem normal_lastCall : lastCall.Normal where
  events := by decide
  tags := by decide
  name := by
    intro name h
    obtain rfl := Option.some.inj h
    decide
  timestamp := by decide
  duration := by decide

theorem normal_firstCall : firstCall.Normal where
  events := by decide
  tags := by decide
  name := nofun
  timestamp := by decide
  duration := nofun

theorem merge_encloses_lastCall : lastCall.Normal ∧ firstCall.Normal
    ∧ (lastCall.merge firstCall).time = (some 5, some 18446744073709551610)
    ∧ (lastCall.merge firstCall).Normal ∧ (lastCall.merge firstCall).Encloses lastCall
    ∧ (lastCall.merge firstCall).Encloses firstCall := by
  obtain ⟨-, hmerged⟩ := normal_lastCall.merge_encloses normal_firstCall
  exact ⟨normal_lastCall, normal_firstCall, by decide +kernel, hmerged⟩

end TraceArchive.Report
