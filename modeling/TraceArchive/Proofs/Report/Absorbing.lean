import Mathlib.Data.List.Induction
import TraceArchive.Proofs.Report.Merging

set_option autoImplicit false

/-!
Reports that are merged once more. A merged report absorbs the reports it was merged from: merging
one of them again changes nothing, even after others were merged. Merging times is not associative,
so this needs that the clock has room for all starts and durations: where an end is cut off at the
last instant, a duration without a start may count for more the second time.
-/

namespace TraceArchive

/-- What a list has already is not put into it again. -/
theorem Ascending.ofList_append_eq {α : Type} [Ord α] [Std.TransOrd α] [Std.LawfulEqOrd α]
    {l m : List α} (hl : Ascending l) (hm : ∀ a ∈ m, a ∈ l) : Ascending.ofList (l ++ m) = l := by
  apply Ascending.eq_of_mem_iff (Ascending.ascending_ofList _) hl
  intro a
  rw [Ascending.mem_ofList, List.mem_append]
  exact or_iff_left_of_imp (hm a)

namespace Report

/-- When a report starts and how long it takes, as far as it tells. -/
abbrev Time : Type := Option UInt64 × Option UInt64

namespace Time

/-- The clock has room for what starts with one time and takes as long as the other. -/
def HasRoom (a b : Time) : Prop :=
  ∀ t d, a.1 = some t → b.2 = some d → t.toNat + d.toNat ≤ lastInstant.toNat

instance (a b : Time) : Decidable (HasRoom a b) :=
  decidable_of_iff
    ((a.1.all fun t => b.2.all fun d => t.toNat + d.toNat ≤ lastInstant.toNat) = true)
    (by cases ha : a.1 <;> cases hb : b.2 <;> simp [HasRoom, ha, hb])

/-- A time lasts from the start to the end of another one, and takes as long as that. -/
structure Covers (a b : Time) : Prop where
  start : ∀ t, b.1 = some t → ∃ s, a.1 = some s ∧ s.toNat ≤ t.toNat
  length : ∀ d, b.2 = some d → ∃ e, a.2 = some e ∧ d.toNat ≤ e.toNat
  finish : ∀ s t, a.1 = some s → b.1 = some t → s ≠ t → ∃ e, a.2 = some e
    ∧ t.toNat + (b.2.getD 0).toNat ≤ s.toNat + e.toNat ∧ s.toNat + e.toNat ≤ lastInstant.toNat

end Time

open Time

theorem toNat_min (s t : UInt64) : (min s t).toNat = min s.toNat t.toNat := by
  show (if s ≤ t then s else t).toNat = _
  simp only [UInt64.le_iff_toNat_le]
  split <;> omega

theorem toNat_max (s t : UInt64) : (max s t).toNat = max s.toNat t.toNat := by
  show (if s ≤ t then t else s).toNat = _
  simp only [UInt64.le_iff_toNat_le]
  split <;> omega

theorem toNat_addTime (s t : UInt64) :
    (addTime s t).toNat = min (s.toNat + t.toNat) lastInstant.toNat := by
  unfold addTime
  split
  · next h =>
    have : s.toNat + t.toNat < 2 ^ 64 := Nat.lt_succ_of_le h
    rw [UInt64.toNat_add, Nat.mod_eq_of_lt this]
    omega
  · omega

theorem toNat_finish (s : UInt64) (d : Option UInt64) :
    (finish s d).toNat = min (s.toNat + (d.getD 0).toNat) lastInstant.toNat :=
  toNat_addTime s _

section

variable {d e : Option UInt64} {x : UInt64}

theorem longer_eq_some (h : mergeTime.longer d e = some x) : d = some x ∨ e = some x := by
  have hmax : ∀ y z : UInt64, max y z = y ∨ max y z = z := fun y z => by
    show (if y ≤ z then z else y) = y ∨ (if y ≤ z then z else y) = z
    split <;> simp
  cases d <;> cases e <;> simp_all [mergeTime.longer]
  next y z => exact h ▸ (hmax y z).imp Eq.symm Eq.symm

theorem exists_le_longer (h : d = some x ∨ e = some x) :
    ∃ y, mergeTime.longer d e = some y ∧ x.toNat ≤ y.toNat := by
  cases d <;> cases e <;> simp_all [mergeTime.longer, toNat_max]
  next y z =>
    rcases h with rfl | rfl <;> omega

theorem toNat_getD_longer : ((mergeTime.longer d e).getD 0).toNat
    = max (d.getD 0).toNat (e.getD 0).toNat := by
  cases d <;> cases e <;> simp [mergeTime.longer, toNat_max]

theorem longer_eq_left (h : ∀ x, e = some x → ∃ y, d = some y ∧ x.toNat ≤ y.toNat) :
    mergeTime.longer d e = d := by
  cases e with
  | none => cases d <;> rfl
  | some x =>
    obtain ⟨y, rfl, hle⟩ := h x rfl
    apply congrArg some
    apply UInt64.toNat_inj.1
    rw [toNat_max]
    omega

end

/-- What merging two times comes to: a time that lasts to the later end if they start apart, and
otherwise the one start that there is with the longer duration. -/
theorem mergeTime_cases (a b : Time) :
    (∃ s t span, a.1 = some s ∧ b.1 = some t ∧ s ≠ t ∧ mergeTime a b = (some (min s t), some span)
        ∧ min s.toNat t.toNat + span.toNat = max (finish s a.2).toNat (finish t b.2).toNat)
      ∨ (∀ s t, a.1 = some s → b.1 = some t → s = t)
        ∧ mergeTime a b = (a.1.or b.1, mergeTime.longer a.2 b.2) := by
  obtain ⟨s, d⟩ := a
  obtain ⟨t, e⟩ := b
  cases s with
  | none => exact .inr ⟨by simp, by simp [mergeTime]⟩
  | some s =>
    cases t with
    | none => exact .inr ⟨by simp, by simp [mergeTime]⟩
    | some t =>
      by_cases hst : s = t
      · subst hst
        exact .inr ⟨by simp, by simp [mergeTime]⟩
      · refine .inl ⟨s, t, _, rfl, rfl, hst, by simp [mergeTime, hst]; rfl, ?_⟩
        have hs : s.toNat ≤ (finish s d).toNat := by
          have := s.toNat_lt
          rw [toNat_finish]
          exact Nat.le_min.2 ⟨by omega, Nat.le_of_lt_succ this⟩
        show _ = max (finish s d).toNat (finish t e).toNat
        rw [UInt64.toNat_sub_of_le, toNat_max, toNat_min]
        · omega
        · rw [UInt64.le_iff_toNat_le, toNat_max, toNat_min]
          omega

namespace Time

variable {a b c : Time}

theorem Covers.refl (a : Time) : Covers a a where
  start t ht := ⟨t, ht, Nat.le_refl _⟩
  length d hd := ⟨d, hd, Nat.le_refl _⟩
  finish _ _ hs ht hne := absurd (Option.some.inj (hs.symm.trans ht)) hne

theorem toNat_finish_of_hasRoom {t : UInt64} (h : HasRoom b b) (ht : b.1 = some t) :
    (Report.finish t b.2).toNat = t.toNat + (b.2.getD 0).toNat := by
  rw [toNat_finish]
  apply Nat.min_eq_left
  cases hd : b.2 with
  | none => exact Nat.le_of_lt_succ t.toNat_lt
  | some d => exact h t d ht hd

theorem toNat_finish_le (s : UInt64) (d : Option UInt64) :
    (Report.finish s d).toNat ≤ lastInstant.toNat := by
  rw [toNat_finish]
  exact Nat.min_le_right _ _

/-- A merged time covers the second of the times that it was merged from. -/
theorem covers_mergeTime (hb : HasRoom b b) : Covers (mergeTime a b) b := by
  rcases mergeTime_cases a b with ⟨s, t, span, hs, ht, hne, hmerge, hspan⟩ | ⟨hsame, hmerge⟩
  · have hend := toNat_finish_of_hasRoom hb ht
    have hmin := toNat_min s t
    rw [hmerge]
    constructor
    · intro t' ht'
      obtain rfl := Option.some.inj (ht.symm.trans ht')
      exact ⟨_, rfl, by omega⟩
    · intro d hd
      have hlength : (b.2.getD 0).toNat = d.toNat := by rw [hd, Option.getD_some]
      exact ⟨span, rfl, by omega⟩
    · intro s' t' hs' ht' hne'
      obtain rfl := Option.some.inj (ht.symm.trans ht')
      obtain rfl := Option.some.inj hs'
      have := toNat_finish_le s a.2
      have := toNat_finish_le t b.2
      exact ⟨span, rfl, by omega, by omega⟩
  · rw [hmerge]
    constructor
    · intro t ht
      cases hs : a.1 with
      | none => exact ⟨t, by simp [ht], Nat.le_refl _⟩
      | some s => exact ⟨s, rfl, Nat.le_of_eq (by rw [hsame s t hs ht])⟩
    · exact fun d hd => exists_le_longer (.inr hd)
    · intro s t hs ht hne
      cases ha : a.1 with
      | none => simp_all
      | some s' => simp_all

/-- A time goes on covering another one when it is merged with a third one. -/
theorem Covers.mergeTime (h : Covers a b) (hb : HasRoom b b) (hbc : HasRoom b c)
    (hcb : HasRoom c b) : Covers (mergeTime a c) b := by
  rcases mergeTime_cases a c with ⟨s, r, span, hs, hr, hne, hmerge, hspan⟩ | ⟨hsame, hmerge⟩
  · have hmin := toNat_min s r
    have hend := toNat_finish s a.2
    have := toNat_finish_le s a.2
    have := toNat_finish_le r c.2
    rw [hmerge]
    constructor
    · intro t ht
      obtain ⟨s', hs', hle⟩ := h.start t ht
      obtain rfl := Option.some.inj (hs.symm.trans hs')
      exact ⟨_, rfl, by omega⟩
    · intro d hd
      obtain ⟨e, he, hle⟩ := h.length d hd
      have hlength : (a.2.getD 0).toNat = e.toNat := by rw [he, Option.getD_some]
      have := hcb r d hr hd
      exact ⟨span, rfl, by omega⟩
    · intro s' t hs' ht _
      obtain rfl := Option.some.inj hs'
      obtain ⟨s', hs', hle⟩ := h.start t ht
      obtain rfl := Option.some.inj (hs.symm.trans hs')
      have hreach : t.toNat + (b.2.getD 0).toNat ≤ (Report.finish s a.2).toNat := by
        have hroom := toNat_finish_of_hasRoom hb ht
        have := toNat_finish_le t b.2
        by_cases hst : s = t
        · have : (b.2.getD 0).toNat ≤ (a.2.getD 0).toNat := by
            cases hd : b.2 with
            | none => exact Nat.zero_le _
            | some d =>
              obtain ⟨e, he, hle⟩ := h.length d hd
              rwa [he]
          subst hst
          omega
        · obtain ⟨e, he, hfinish, hlast⟩ := h.finish s t hs ht hst
          have hlength : (a.2.getD 0).toNat = e.toNat := by rw [he, Option.getD_some]
          omega
      exact ⟨span, rfl, by omega, by omega⟩
  · rw [hmerge]
    constructor
    · intro t ht
      obtain ⟨s, hs, hle⟩ := h.start t ht
      exact ⟨s, by simp [hs], hle⟩
    · intro d hd
      obtain ⟨e, he, hle⟩ := h.length d hd
      obtain ⟨y, hy, hey⟩ := exists_le_longer (e := c.2) (.inl he)
      exact ⟨y, hy, Nat.le_trans hle hey⟩
    · intro s t hs ht hne
      obtain ⟨s', hs', hle⟩ := h.start t ht
      obtain rfl : s' = s := by simpa [hs'] using hs
      obtain ⟨e, he, hfinish, hlast⟩ := h.finish s' t hs' ht hne
      obtain ⟨y, hy, hey⟩ := exists_le_longer (e := c.2) (.inl he)
      refine ⟨y, hy, by omega, ?_⟩
      rcases longer_eq_some hy with hye | hye
      · obtain rfl := Option.some.inj (he.symm.trans hye)
        exact hlast
      · have := hbc t y ht hye
        omega

/-- Merging with a time that is covered changes nothing. -/
theorem Covers.mergeTime_eq (h : Covers a b) : Report.mergeTime a b = a := by
  rcases mergeTime_cases a b with ⟨s, t, span, hs, ht, hne, hmerge, hspan⟩ | ⟨hsame, hmerge⟩
  · obtain ⟨s', hs', hle⟩ := h.start t ht
    obtain rfl := Option.some.inj (hs.symm.trans hs')
    obtain ⟨e, he, hfinish, hlast⟩ := h.finish s t hs ht hne
    have hlength : (a.2.getD 0).toNat = e.toNat := by rw [he, Option.getD_some]
    have hstart : min s t = s := by
      apply UInt64.toNat_inj.1
      rw [toNat_min]
      omega
    have hlonger : span = e := by
      apply UInt64.toNat_inj.1
      rw [toNat_finish, toNat_finish] at hspan
      omega
    rw [hmerge, hstart, hlonger, ← hs, ← he]
  · have hstart : a.1.or b.1 = a.1 := by
      cases hs : a.1 with
      | some s => rfl
      | none =>
        cases ht : b.1 with
        | none => rfl
        | some t =>
          obtain ⟨s, hs', -⟩ := h.start t ht
          cases hs.symm.trans hs'
    rw [hmerge, hstart, longer_eq_left h.length]

end Time

theorem mergeName_absorb (a b : Option String) :
    mergeName (mergeName a b) b = mergeName a b := by
  grind [mergeName]

/-- A name that stands against another one is followed only by a name that does so, too. -/
theorem mergeName_mergeName {a b : Option String} (h : mergeName a b = a) (c : Option String) :
    mergeName (mergeName a c) b = mergeName a c := by
  grind [mergeName]

/-- A report that tells all that another report of its span tells. -/
structure Absorbs (m r : Report) : Prop where
  parentId : r.parentId.isSome → m.parentId.isSome
  name : mergeName m.name r.name = m.name
  time : Covers m.time r.time
  events : ∀ e ∈ r.events, e ∈ m.events
  tags : ∀ t ∈ r.tags, t ∈ m.tags
  debug : r.debug → m.debug

section

variable {m r x : Report}

theorem absorbs_self (r : Report) : r.Absorbs r where
  parentId h := h
  name := by simp [mergeName]
  time := .refl _
  events _ he := he
  tags _ ht := ht
  debug h := h

theorem absorbs_merge (m : Report) (hr : HasRoom r.time r.time) : (m.merge r).Absorbs r where
  parentId h := by
    show (m.parentId.or r.parentId).isSome
    simp [h]
  name := mergeName_absorb m.name r.name
  time := covers_mergeTime hr
  events _ he := mem_events_merge.2 (.inr he)
  tags _ ht := mem_tags_merge.2 (.inr ht)
  debug h := by
    show m.debug || r.debug
    simp [h]

theorem Absorbs.merge (h : m.Absorbs r) (hr : HasRoom r.time r.time)
    (hrx : HasRoom r.time x.time) (hxr : HasRoom x.time r.time) : (m.merge x).Absorbs r where
  parentId hparent := by
    show (m.parentId.or x.parentId).isSome
    simp [h.parentId hparent]
  name := mergeName_mergeName h.name x.name
  time := h.time.mergeTime hr hrx hxr
  events e he := mem_events_merge.2 (.inl (h.events e he))
  tags t ht := mem_tags_merge.2 (.inl (h.tags t ht))
  debug hdebug := by
    show m.debug || x.debug
    simp [h.debug hdebug]

/-- Merging with a report that is absorbed changes nothing. -/
theorem Absorbs.merge_eq (h : m.Absorbs r) (hm : m.tidy = m) (hkey : m.key = r.key) :
    m.merge r = m := by
  have events : Ascending.ofList (m.events ++ r.events) = m.events := by
    apply Ascending.ofList_append_eq _ h.events
    rw [← congrArg Report.events hm]
    exact Ascending.ascending_ofList _
  have tags : Ascending.ofList (m.tags ++ r.tags) = m.tags := by
    apply Ascending.ofList_append_eq _ h.tags
    rw [← congrArg Report.tags hm]
    exact Ascending.ascending_ofList _
  have parentId : m.parentId.or r.parentId = m.parentId := by
    cases hm : m.parentId with
    | some p => rfl
    | none =>
      cases hr : r.parentId with
      | none => rfl
      | some p => simpa [hm, hr] using h.parentId
  have debug : (m.debug || r.debug) = m.debug := by
    cases hr : r.debug with
    | false => simp
    | true => simp [h.debug hr]
  have time : mergeTime (m.timestamp, m.duration) (r.timestamp, r.duration)
      = (m.timestamp, m.duration) := h.time.mergeTime_eq
  obtain ⟨htrace, -⟩ := Key.mk.inj hkey
  simp only [Report.merge, tidy, parentId, debug, time, h.name, events, tags, ← htrace, ite_self]

end

/-! Reports that are merged one after the other. -/

section

variable {rs xs ys zs : List Report} {m r : Report}

theorem tidy_mergeAll? (hrs : ∀ r ∈ rs, r.tidy = r) (h : mergeAll? rs = some m) :
    m.tidy = m := by
  induction rs using List.reverseRecOn with
  | nil => cases h
  | append_singleton rs r ih =>
    rw [mergeAll?_concat] at h
    obtain rfl := Option.some.inj h
    split
    · exact tidy_tidy _
    · exact hrs r (by simp)

/-- What some reports are merged to absorbs the last ones of them. -/
theorem absorbs_mergeAll? (hroom : ∀ x ∈ ys, ∀ y ∈ ys, HasRoom x.time y.time)
    (h : mergeAll? (xs ++ ys) = some m) : ∀ y ∈ ys, m.Absorbs y := by
  induction ys using List.reverseRecOn generalizing m with
  | nil => simp
  | append_singleton ys x ih =>
    rw [← List.append_assoc, mergeAll?_concat] at h
    obtain rfl := Option.some.inj h
    have hx : HasRoom x.time x.time := hroom x (by simp) x (by simp)
    have hys : ∀ y ∈ ys, ∀ z ∈ ys ++ [x], HasRoom y.time z.time ∧ HasRoom z.time y.time :=
      fun y hy z hz => ⟨hroom y (by simp [hy]) z hz, hroom z hz y (by simp [hy])⟩
    intro y hy
    rw [List.mem_append, List.mem_singleton] at hy
    cases hm : mergeAll? (xs ++ ys) with
    | some merged =>
      rcases hy with hy | rfl
      · have hmerged : merged.Absorbs y :=
          ih (fun y hy z hz => (hys y hy z (by simp [hz])).1) hm y hy
        obtain ⟨hyx, hxy⟩ := hys y hy x (by simp)
        exact hmerged.merge (hys y hy y (by simp [hy])).1 hyx hxy
      · exact absorbs_merge merged hx
    | none =>
      rcases hy with hy | rfl
      · obtain ⟨merged, hsome⟩ := exists_mergeAll?_iff.2 ⟨y, List.mem_append.2 (.inr hy)⟩
        cases hm.symm.trans hsome
      · exact absorbs_self y

/-- Absorbed reports do not change what the reports before them are merged to. -/
theorem mergeAll?_append_of_absorbs (h : mergeAll? xs = some m) (hm : m.tidy = m)
    (hkey : ∀ z ∈ zs, m.key = z.key) (hz : ∀ z ∈ zs, m.Absorbs z) :
    mergeAll? (xs ++ zs) = some m := by
  induction zs using List.reverseRecOn with
  | nil => rwa [List.append_nil]
  | append_singleton zs z ih =>
    have hzs : mergeAll? (xs ++ zs) = some m :=
      ih (fun y hy => hkey y (by simp [hy])) fun y hy => hz y (by simp [hy])
    rw [← List.append_assoc, mergeAll?_concat, hzs]
    exact congrArg some ((hz z (by simp)).merge_eq hm (hkey z (by simp)))

/-- Reports that come again after they were merged change nothing. -/
theorem mergeAll?_append_again {k : Key} (htidy : ∀ r ∈ xs ++ ys, r.tidy = r)
    (hkey : ∀ r ∈ xs ++ ys, r.key = k) (hroom : ∀ x ∈ ys, ∀ y ∈ ys, HasRoom x.time y.time)
    (hzs : ∀ z ∈ zs, z ∈ ys) : mergeAll? (xs ++ ys ++ zs) = mergeAll? (xs ++ ys) := by
  cases hm : mergeAll? (xs ++ ys) with
  | none =>
    have hys : ∀ y, y ∉ ys := by
      intro y hy
      obtain ⟨m, hsome⟩ := exists_mergeAll?_iff.2 ⟨y, List.mem_append.2 (.inr hy)⟩
      cases hm.symm.trans hsome
    have hnil : zs = [] := List.eq_nil_iff_forall_not_mem.2 fun z hz => hys z (hzs z hz)
    rw [hnil, List.append_nil, hm]
  | some m =>
    apply mergeAll?_append_of_absorbs hm (tidy_mergeAll? htidy hm)
    · intro z hz
      rw [key_mergeAll? hm hkey, hkey z (by simp [hzs z hz])]
    · exact fun z hz => absorbs_mergeAll? hroom hm z (hzs z hz)

theorem tidy_withTiming (r : Report) : r.withTiming.tidy = r.withTiming := by
  obtain ⟨timestamp, duration, h⟩ := withTiming_eq r
  rw [h, tidy_tidy]

end

end Report

end TraceArchive
