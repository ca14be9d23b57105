import TraceArchive.Proofs.Report.Interchanging
import TraceArchive.Proofs.Trace.Grouping
import TraceArchive.Trace.Skew

set_option autoImplicit false

/-!
Ties. The order of time does not tell apart the reports of a span that came with one start and one
name under different high halves, so those keep the order in which they were found. Merging them
gives the same but for the high half and the parent, which come from the first report; where ties
agree on these, nothing depends on the order in which reports are found.
-/

namespace TraceArchive

/-- A fold in which ties may be exchanged, in all states that are ready for them. -/
structure ExchangesTies {α β : Type} (f : β → α → β) (le : α → α → Prop) (Ready : β → α → Prop)
    (p : α → Prop) : Prop where
  exchange : ∀ z x y, p x → p y → le x y → le y x → Ready z x → f (f z x) y = f (f z y) x
  ready : ∀ z x y, p x → p y → le x y → Ready z x → Ready z y → Ready (f z x) y

namespace ExchangesTies

variable {α β : Type} {f : β → α → β} {le : α → α → Prop} {Ready : β → α → Prop} {p : α → Prop}

theorem foldl_middle (h : ExchangesTies f le Ready p) {x : α} {before : List α} (after : List α)
    (hx : p x) (hbefore : ∀ b ∈ before, p b) (hties : ∀ b ∈ before, le b x ∧ le x b)
    (hsorted : before.Pairwise le) {z : β} (hzx : Ready z x) (hz : ∀ b ∈ before, Ready z b) :
    (before ++ x :: after).foldl f z = (x :: (before ++ after)).foldl f z := by
  induction before generalizing z with
  | nil => rfl
  | cons b before ih =>
    have hb := List.pairwise_cons.1 hsorted
    have hpb : p b := hbefore b List.mem_cons_self
    have hpbefore : ∀ c ∈ before, p c := fun c hc => hbefore c (List.mem_cons_of_mem b hc)
    obtain ⟨hbx, hxb⟩ := hties b List.mem_cons_self
    have hzb : Ready z b := hz b List.mem_cons_self
    have hrest : ∀ c ∈ before, Ready (f z b) c := fun c hc =>
      h.ready z b c hpb (hpbefore c hc) (hb.1 c hc) hzb (hz c (List.mem_cons_of_mem b hc))
    have hmoved := ih hpbefore (fun c hc => hties c (List.mem_cons_of_mem b hc)) hb.2
      (h.ready z b x hpb hx hbx hzb hzx) hrest
    rw [List.cons_append, List.foldl_cons, hmoved, List.foldl_cons,
      h.exchange z b x hpb hx hbx hxb hzb]
    rfl

/-- Lists in order that are permutations of each other differ in the order of ties alone. -/
theorem foldl_eq_of_perm (h : ExchangesTies f le Ready p) {xs ys : List α}
    (hxs : xs.Pairwise le) (hys : ys.Pairwise le) (hperm : xs.Perm ys) (hp : ∀ x ∈ xs, p x) {z : β}
    (hz : ∀ x ∈ xs, Ready z x) : xs.foldl f z = ys.foldl f z := by
  induction xs generalizing ys z with
  | nil => rw [hperm.nil_eq]
  | cons x xs ih =>
    obtain ⟨before, after, rfl⟩ := List.append_of_mem (hperm.mem_iff.1 List.mem_cons_self)
    have hrest : xs.Perm (before ++ after) :=
      (List.perm_cons x).1 (hperm.trans List.perm_middle)
    have hx := List.pairwise_cons.1 hxs
    obtain ⟨hbefore, hxafter, hcross⟩ := List.pairwise_append.1 hys
    have hmem : ∀ b ∈ before, b ∈ xs := fun b hb =>
      hrest.mem_iff.2 (List.mem_append_left after hb)
    have hties : ∀ b ∈ before, le b x ∧ le x b := fun b hb =>
      ⟨hcross b hb x List.mem_cons_self, hx.1 b (hmem b hb)⟩
    have hpx : p x := hp x List.mem_cons_self
    have hpxs : ∀ y ∈ xs, p y := fun y hy => hp y (List.mem_cons_of_mem x hy)
    have hzx : Ready z x := hz x List.mem_cons_self
    have hzxs : ∀ y ∈ xs, Ready z y := fun y hy => hz y (List.mem_cons_of_mem x hy)
    have hsorted : (before ++ after).Pairwise le :=
      hys.sublist ((List.Sublist.refl before).append (List.sublist_cons_self x after))
    rw [h.foldl_middle after hpx (fun b hb => hpxs b (hmem b hb)) hties hbefore hzx
      fun b hb => hzxs b (hmem b hb)]
    exact ih hx.2 hsorted hrest hpxs fun y hy =>
      h.ready z x y hpx (hpxs y hy) (hx.1 y hy) hzx (hzxs y hy)

end ExchangesTies

theorem Report.notAfter_of_byTime {a b : Report} (h : (a.byTime b).isLE = true) :
    NotAfter a.timestamp b.timestamp := by
  intro x y hx hy
  have hle : (compare a.timestamp b.timestamp).isLE = true := Ordering.isLE_left_of_isLE_then h
  rw [hx, hy] at hle
  exact (Std.LawfulOrderOrd.isLE_compare x y).1 hle

theorem Report.byTime_congr {a b c d : Report}
    (hac : a.timestamp = c.timestamp ∧ a.name = c.name ∧ a.id = c.id)
    (hbd : b.timestamp = d.timestamp ∧ b.name = d.name ∧ b.id = d.id) :
    a.byTime b = c.byTime d := by
  obtain ⟨htimestamp, hname, hid⟩ := hac
  obtain ⟨htimestamp', hname', hid'⟩ := hbd
  simp only [byTime, compareLex, compareOn, htimestamp, hname, hid, htimestamp', hname', hid']

namespace Trace

theorem sortByTime_eq_self {rs : List Report}
    (h : rs.Pairwise fun a b => (a.byTime b).isLE = true) : sortByTime rs = rs :=
  List.mergeSort_of_pairwise h

/-- What changes neither time nor name nor id may be done before reports are sorted or after. -/
theorem sortByTime_map {g : Report → Report}
    (hg : ∀ r, (g r).timestamp = r.timestamp ∧ (g r).name = r.name ∧ (g r).id = r.id)
    (rs : List Report) : sortByTime (rs.map g) = (sortByTime rs).map g := by
  refine (List.map_mergeSort fun a _ b _ => ?_).symm
  rw [Report.byTime_congr (hg a) (hg b)]

/-! Merging reports by their span ids, in the order in which they come. -/

/-- One report for each span. -/
def collapse (rs : List Report) : List Report :=
  rs.foldl (fun merged r => absorb r merged) []

theorem mergeById_eq (rs : List Report) :
    mergeById rs = sortByTime (collapse (rs.map (fillHigh (highHalf rs)))) := rfl

/-- No report of the same span starts later. -/
def Ready (ts : List Report) (r : Report) : Prop :=
  ∀ t ∈ ts, t.id = r.id → Report.NotAfter t.timestamp r.timestamp

section

variable {ts : List Report} {a b : Report}

theorem mem_absorb {s : Report} (h : s ∈ absorb a ts) :
    s ∈ ts ∨ s = a ∨ ∃ t ∈ ts, t.id = a.id ∧ s = t.merge a := by
  induction ts with
  | nil => exact .inr (.inl (List.mem_singleton.1 h))
  | cons t ts ih =>
    rw [absorb] at h
    split at h
    · next hid =>
      rcases List.mem_cons.1 h with rfl | h
      · exact .inr (.inr ⟨t, List.mem_cons_self, hid, rfl⟩)
      · exact .inl (List.mem_cons_of_mem t h)
    · rcases List.mem_cons.1 h with rfl | h
      · exact .inl List.mem_cons_self
      · rcases ih h with h | h | ⟨u, hu, h⟩
        · exact .inl (List.mem_cons_of_mem t h)
        · exact .inr (.inl h)
        · exact .inr (.inr ⟨u, List.mem_cons_of_mem t hu, h⟩)

theorem Ready.absorb (ha : Ready ts a) (hb : Ready ts b)
    (hab : Report.NotAfter a.timestamp b.timestamp) : Ready (absorb a ts) b := by
  intro s hs hid
  rcases mem_absorb hs with hs | rfl | ⟨t, ht, hta, rfl⟩
  · exact hb s hs hid
  · exact hab
  · exact Report.notAfter_mergeTime (t := t.time) (u := a.time) (hb t ht hid) hab

theorem absorb_exchange (h : a.Interchangeable b) (ha : Ready ts a) :
    absorb b (absorb a ts) = absorb a (absorb b ts) := by
  have hid : a.id = b.id := (Key.mk.inj h.key).2
  induction ts with
  | nil => simp [Trace.absorb, hid, h.merge_comm]
  | cons t ts ih =>
    have htail : Ready ts a := fun s hs => ha s (List.mem_cons_of_mem t hs)
    by_cases ht : t.id = a.id
    · have hcomm := h.merge_right_comm (ha t List.mem_cons_self ht)
      have hmerged : ∀ x : Report, (t.merge x).id = t.id := fun _ => rfl
      simp [Trace.absorb, ht, ← hid, hmerged, hcomm]
    · simp [Trace.absorb, ht, ← hid, ih htail]

end

/-- Where ties may be exchanged, reports in the order of time are merged to the same reports. -/
theorem collapse_eq_of_perm {xs ys : List Report}
    (hxs : xs.Pairwise fun a b => (a.byTime b).isLE = true)
    (hys : ys.Pairwise fun a b => (a.byTime b).isLE = true) (hperm : xs.Perm ys)
    (hties : ∀ a ∈ xs, ∀ b ∈ xs, a.byTime b = .eq → a.Interchangeable b) :
    collapse xs = collapse ys := by
  have hexchange : ExchangesTies (fun merged r => absorb r merged)
      (fun a b => (a.byTime b).isLE = true) Ready (· ∈ xs) := by
    constructor
    · intro ts a b ha hb hab hba hready
      exact absorb_exchange (hties a ha b hb (Std.OrientedCmp.isLE_antisymm hab hba)) hready
    · intro ts a b ha hb hab hra hrb
      exact hra.absorb hrb (Report.notAfter_of_byTime hab)
  apply hexchange.foldl_eq_of_perm hxs hys hperm fun _ hx => hx
  intro x hx t ht
  cases ht

/-! What the order of ties decides: the high half and the parent. -/

end Trace

/-- A report apart from the high half of its trace and from its parent. -/
def Report.bare (r : Report) : Report :=
  { r with traceId := { r.traceId with high := 0 }, parentId := none }

theorem Report.bare_merge (a b : Report) : (a.merge b).bare = a.bare.merge b.bare := by
  simp [bare, merge, tidy]

namespace Trace

theorem map_bare_absorb (r : Report) (ts : List Report) :
    (absorb r ts).map Report.bare = absorb r.bare (ts.map Report.bare) := by
  induction ts with
  | nil => rfl
  | cons t ts ih =>
    have hid : t.bare.id = r.bare.id ↔ t.id = r.id := .rfl
    by_cases h : t.id = r.id
    · simp [absorb, h, hid, Report.bare_merge]
    · simp [absorb, h, hid, ih]

theorem map_bare_collapse (rs : List Report) :
    (collapse rs).map Report.bare = collapse (rs.map Report.bare) := by
  have fold : ∀ (rs ts : List Report),
      (rs.foldl (fun merged r => absorb r merged) ts).map Report.bare
        = (rs.map Report.bare).foldl (fun merged r => absorb r merged) (ts.map Report.bare) := by
    intro rs
    induction rs with
    | nil => exact fun _ => rfl
    | cons r rs ih =>
      intro ts
      rw [List.foldl_cons, ih, map_bare_absorb, List.map_cons, List.foldl_cons]
  exact fold rs []

theorem map_bare_sortByTime (rs : List Report) :
    (sortByTime rs).map Report.bare = sortByTime (rs.map Report.bare) :=
  (sortByTime_map (g := Report.bare) (fun _ => ⟨rfl, rfl, rfl⟩) rs).symm

theorem pairwise_map_of_byTime {g : Report → Report} {rs : List Report}
    (hg : ∀ r, (g r).timestamp = r.timestamp ∧ (g r).name = r.name ∧ (g r).id = r.id)
    (hrs : rs.Pairwise fun a b => (a.byTime b).isLE = true) :
    (rs.map g).Pairwise fun a b => (a.byTime b).isLE = true :=
  List.Pairwise.map g (fun a b hab => (Report.byTime_congr (hg a) (hg b)).symm ▸ hab) hrs

theorem fillHigh_kept (high : UInt64) (r : Report) : (fillHigh high r).timestamp = r.timestamp
    ∧ (fillHigh high r).name = r.name ∧ (fillHigh high r).id = r.id := by
  unfold fillHigh
  split <;> exact ⟨rfl, rfl, rfl⟩

theorem traceId_low_fillHigh (high : UInt64) (r : Report) :
    (fillHigh high r).traceId.low = r.traceId.low := by
  unfold fillHigh
  split <;> rfl

theorem parentId_fillHigh (high : UInt64) (r : Report) :
    (fillHigh high r).parentId = r.parentId := by
  unfold fillHigh
  split <;> rfl

theorem bare_fillHigh {high high' : UInt64} (h : high = 0 ↔ high' = 0) (r : Report) :
    (fillHigh high r).bare = (fillHigh high' r).bare := by
  simp only [fillHigh, Ne, h]
  split <;> rfl

theorem highHalf_eq (rs : List Report) : highHalf rs
    = ((rs.find? fun r => r.traceId.high ≠ 0).map (·.traceId.high)).getD 0 := by
  rw [highHalf, List.find?_map]
  rfl

theorem highHalf_eq_zero_iff {rs : List Report} :
    highHalf rs = 0 ↔ ∀ r ∈ rs, r.traceId.high = 0 := by
  rw [highHalf_eq]
  cases hx : rs.find? fun r => r.traceId.high ≠ 0 with
  | none => simpa using hx
  | some x =>
    have hhigh : x.traceId.high ≠ 0 := by simpa using List.find?_some hx
    exact ⟨fun h => absurd h hhigh, fun h => absurd (h x (List.mem_of_find?_eq_some hx)) hhigh⟩

/-- The high half of a trace is that of the first report with one. -/
theorem exists_highHalf {rs : List Report} (hrs : rs.Pairwise fun a b => (a.byTime b).isLE = true)
    (h : highHalf rs ≠ 0) : ∃ x ∈ rs, highHalf rs = x.traceId.high
      ∧ ∀ y ∈ rs, y.traceId.high ≠ 0 → (x.byTime y).isLE = true := by
  rw [highHalf_eq] at h ⊢
  cases hx : rs.find? fun r => r.traceId.high ≠ 0 with
  | none => exact absurd (by rw [hx]; rfl) h
  | some x =>
    obtain ⟨-, before, after, rfl, hbefore⟩ := List.find?_eq_some_iff_append.1 hx
    refine ⟨x, by simp, rfl, fun y hy hne => ?_⟩
    rcases List.mem_append.1 hy with hy | hy
    · exact absurd hne (by simpa using hbefore y hy)
    · rcases List.mem_cons.1 hy with rfl | hy
      · simp [Std.ReflCmp.compare_self]
      · exact (List.pairwise_cons.1 (List.pairwise_append.1 hrs).2.1).1 y hy

theorem traceId_fillHigh_of_ne_zero {high : UInt64} {r : Report} (h : r.traceId.high ≠ 0) :
    (fillHigh high r).traceId = r.traceId := by
  rw [fillHigh, if_neg fun hr => h hr.1]

/-- Reports of one span that are not told apart by their time have one high half, once those
without one have taken it from the trace, and do not have different parents. -/
def TiesAgree (rs : List Report) : Prop :=
  ∀ a ∈ rs, ∀ b ∈ rs, a.byTime b = .eq →
    (fillHigh (highHalf (sortByTime rs)) a).traceId
        = (fillHigh (highHalf (sortByTime rs)) b).traceId
      ∧ a.parentId.or b.parentId = b.parentId.or a.parentId

instance (rs : List Report) : Decidable (TiesAgree rs) :=
  inferInstanceAs (Decidable (∀ a ∈ rs, ∀ b ∈ rs, _ → _))

section

variable {rs rs' : List Report} (h : rs.Perm rs')

include h

theorem highHalf_eq_zero_congr :
    highHalf (sortByTime rs) = 0 ↔ highHalf (sortByTime rs') = 0 := by
  simp only [highHalf_eq_zero_iff, (sortByTime_perm_of_perm h).mem_iff]

theorem TiesAgree.highHalf_eq (hties : TiesAgree rs) :
    highHalf (sortByTime rs) = highHalf (sortByTime rs') := by
  by_cases hzero : highHalf (sortByTime rs) = 0
  · rw [hzero, (highHalf_eq_zero_congr h).1 hzero]
  · have hzero' := fun he => hzero ((highHalf_eq_zero_congr h).2 he)
    obtain ⟨x, hx, hhigh, hfirst⟩ := exists_highHalf (sortByTime_pairwise rs) hzero
    obtain ⟨y, hy, hhigh', hfirst'⟩ := exists_highHalf (sortByTime_pairwise rs') hzero'
    have hxne : x.traceId.high ≠ 0 := hhigh ▸ hzero
    have hyne : y.traceId.high ≠ 0 := hhigh' ▸ hzero'
    -- The first report with a high half in either order is not after the one in the other.
    have htie : x.byTime y = .eq := Std.OrientedCmp.isLE_antisymm
      (hfirst y ((sortByTime_perm_of_perm h).mem_iff.2 hy) hyne)
      (hfirst' x ((sortByTime_perm_of_perm h).mem_iff.1 hx) hxne)
    have hx : x ∈ rs := (sortByTime_perm rs).mem_iff.1 hx
    have hy : y ∈ rs := h.mem_iff.2 ((sortByTime_perm rs').mem_iff.1 hy)
    obtain ⟨hfilled, -⟩ := hties x hx y hy htie
    rw [traceId_fillHigh_of_ne_zero hxne, traceId_fillHigh_of_ne_zero hyne] at hfilled
    rw [hhigh, hhigh', hfilled]

/-- What changes neither time nor name nor id leaves the order of time alone. -/
theorem collapse_map_sortByTime {g : Report → Report}
    (hg : ∀ r, (g r).timestamp = r.timestamp ∧ (g r).name = r.name ∧ (g r).id = r.id)
    (hties : ∀ a ∈ rs, ∀ b ∈ rs, a.byTime b = .eq → (g a).Interchangeable (g b)) :
    collapse ((sortByTime rs).map g) = collapse ((sortByTime rs').map g) := by
  apply collapse_eq_of_perm
  · exact pairwise_map_of_byTime hg (sortByTime_pairwise rs)
  · exact pairwise_map_of_byTime hg (sortByTime_pairwise rs')
  · exact (sortByTime_perm_of_perm h).map g
  · intro a ha b hb hab
    obtain ⟨x, hx, rfl⟩ := List.mem_map.1 ha
    obtain ⟨y, hy, rfl⟩ := List.mem_map.1 hb
    rw [Report.byTime_congr (hg x) (hg y)] at hab
    exact hties x ((sortByTime_perm rs).mem_iff.1 hx) y ((sortByTime_perm rs).mem_iff.1 hy) hab

/-- Merged reports do not depend on the order in which they are found, apart from the high halves
and the parents. -/
theorem map_bare_mergeById {low : UInt64} (hlow : ∀ r ∈ rs, r.traceId.low = low) :
    (mergeById (sortByTime rs)).map Report.bare = (mergeById (sortByTime rs')).map Report.bare := by
  let g := Report.bare ∘ fillHigh (highHalf (sortByTime rs))
  have hg : Report.bare ∘ fillHigh (highHalf (sortByTime rs')) = g :=
    funext fun r => bare_fillHigh (highHalf_eq_zero_congr h.symm) r
  have hkept : ∀ r, (g r).timestamp = r.timestamp ∧ (g r).name = r.name ∧ (g r).id = r.id :=
    fillHigh_kept _
  have hkey : ∀ r ∈ rs, (g r).key = ⟨{ low }, r.id⟩ := by
    intro r hr
    rw [← hlow r hr, Report.key, (hkept r).2.2]
    simp only [g, Function.comp_apply, Report.bare, traceId_low_fillHigh]
  have hcollapse : collapse ((sortByTime rs).map g) = collapse ((sortByTime rs').map g) := by
    apply collapse_map_sortByTime h hkept
    intro a ha b hb hab
    obtain ⟨htimestamp, hname, hid⟩ := Report.byTime_eq_eq_iff.1 hab
    refine ⟨?_, rfl, ?_, ?_⟩
    · rw [hkey a ha, hkey b hb, hid]
    · rw [(hkept a).2.1, (hkept b).2.1, hname]
    · rw [(hkept a).1, (hkept b).1, htimestamp]
  rw [mergeById_eq, mergeById_eq, map_bare_sortByTime, map_bare_sortByTime, map_bare_collapse,
    map_bare_collapse, List.map_map, List.map_map, hg, hcollapse]

/-- Where ties agree, merged reports do not depend on the order in which they are found. -/
theorem TiesAgree.mergeById_eq (hties : TiesAgree rs) :
    mergeById (sortByTime rs) = mergeById (sortByTime rs') := by
  have hcollapse : collapse ((sortByTime rs).map (fillHigh (highHalf (sortByTime rs))))
      = collapse ((sortByTime rs').map (fillHigh (highHalf (sortByTime rs)))) := by
    apply collapse_map_sortByTime h (fillHigh_kept _)
    intro a ha b hb hab
    obtain ⟨hfilled, hparent⟩ := hties a ha b hb hab
    obtain ⟨htimestamp, hname, hid⟩ := Report.byTime_eq_eq_iff.1 hab
    obtain ⟨hta, hna, hia⟩ := fillHigh_kept (highHalf (sortByTime rs)) a
    obtain ⟨htb, hnb, hib⟩ := fillHigh_kept (highHalf (sortByTime rs)) b
    refine ⟨?_, ?_, ?_, ?_⟩
    · rw [Report.key, Report.key, hfilled, hia, hib, hid]
    · rw [parentId_fillHigh, parentId_fillHigh, hparent]
    · rw [hna, hnb, hname]
    · rw [hta, htb, htimestamp]
  rw [Trace.mergeById_eq, Trace.mergeById_eq, ← hties.highHalf_eq h, hcollapse]

end

/-- The merged reports of a trace, however they are found, are the same but for high halves and
parents. Where ties agree on these, the trace is the same once its clocks are corrected, and so is
what is told of the correction. -/
theorem mergeById_of_perm {rs rs' : List Report} {low : UInt64}
    (hlow : ∀ r ∈ rs, r.traceId.low = low) (h : rs.Perm rs') :
    (mergeById (sortByTime rs)).map Report.bare = (mergeById (sortByTime rs')).map Report.bare
      ∧ (TiesAgree rs →
        (mergeById (sortByTime rs)).correctSkew = (mergeById (sortByTime rs')).correctSkew) :=
  ⟨map_bare_mergeById h hlow, fun hties => by rw [hties.mergeById_eq h]⟩

/-- Two hosts reported one span from one start on, one of them with a 64-bit trace id, and a third
host reported the call below it. -/
def mixedHosts : List Report := [
  { traceId := ⟨10, 1⟩, id := 1, name := some "get", timestamp := some 10, duration := some 5 },
  { traceId := ⟨0, 1⟩, id := 1, name := some "get", timestamp := some 10, duration := some 9 },
  { traceId := ⟨10, 1⟩, id := 2, parentId := some 1, name := some "query",
    timestamp := some 12 }]

theorem mergeById_of_perm_mixedHosts :
    (∀ r ∈ mixedHosts, r.traceId.low = 1) ∧ mixedHosts.Perm mixedHosts.reverse
      ∧ TiesAgree mixedHosts
      ∧ (mergeById (sortByTime mixedHosts)).map Report.bare
          = (mergeById (sortByTime mixedHosts.reverse)).map Report.bare
      ∧ (mergeById (sortByTime mixedHosts)).correctSkew
          = (mergeById (sortByTime mixedHosts.reverse)).correctSkew := by
  have hlow : ∀ r ∈ mixedHosts, r.traceId.low = 1 := by decide
  have hperm : mixedHosts.Perm mixedHosts.reverse := (List.reverse_perm mixedHosts).symm
  have hties : TiesAgree mixedHosts := by
    rw [TiesAgree, sortByTime_eq_self (by decide)]
    decide
  obtain ⟨hbare, hcorrected⟩ := mergeById_of_perm hlow hperm
  exact ⟨hlow, hperm, hties, hbare, hcorrected hties⟩

/-- A report of the one span that all traces with a low half of 1 have. -/
def getReport (high : UInt64) : Report :=
  { traceId := ⟨high, 1⟩, id := 1, name := some "get", timestamp := some 10 }

/-- The span takes the high half of the report that was found first. -/
theorem not_correctSkew_of_perm :
    ¬ ∀ (rs rs' : List Report) (low : UInt64), (rs.map Report.key).Nodup →
      (∀ r ∈ rs, r.traceId.low = low) → rs.Perm rs' →
      (mergeById (sortByTime rs)).correctSkew.value
        = (mergeById (sortByTime rs')).correctSkew.value := by
  intro h
  have hsame := h [getReport 10, getReport 20] [getReport 20, getReport 10] 1 (by decide)
    (by decide) (List.Perm.swap ..)
  have hmerged : ∀ x y : UInt64, x ≠ 0 → y ≠ 0 →
      mergeById (sortByTime [getReport x, getReport y]) = [(getReport x).merge (getReport y)] := by
    intro x y hx hy
    have htie : (getReport x).byTime (getReport y) = .eq :=
      Report.byTime_eq_eq_iff.2 ⟨rfl, rfl, rfl⟩
    rw [sortByTime_eq_self (by simp [htie])]
    simp [mergeById, fillHigh, absorb, sortByTime, getReport, hx, hy]
  rw [hmerged 10 20 (by decide) (by decide), hmerged 20 10 (by decide) (by decide)] at hsame
  exact absurd (congrArg (List.map (·.traceId.high)) hsame) (by decide +kernel)

end Trace

end TraceArchive
