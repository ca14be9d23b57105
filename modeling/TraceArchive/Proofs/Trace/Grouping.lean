import Mathlib.Data.List.Nodup
import TraceArchive.Proofs.Sorted.Map
import TraceArchive.Trace.Grouping

set_option autoImplicit false

/-!
Grouping. Every trace that some report belongs to has one group, which holds all its reports.
-/

namespace TraceArchive

theorem Report.byTime_eq_eq_iff {a b : Report} : a.byTime b = .eq
    ↔ a.timestamp = b.timestamp ∧ a.name = b.name ∧ a.id = b.id := by
  constructor
  · intro h
    obtain ⟨htimestamp, h⟩ := compareLex_eq_eq.1 h
    obtain ⟨hname, hid⟩ := compareLex_eq_eq.1 h
    exact ⟨Std.LawfulEqCmp.eq_of_compare htimestamp, Std.LawfulEqCmp.eq_of_compare hname,
      Std.LawfulEqCmp.eq_of_compare hid⟩
  · rintro ⟨htimestamp, hname, hid⟩
    simp [byTime, compareLex, compareOn, htimestamp, hname, hid, Std.ReflCmp.compare_self]

namespace Trace

variable {strict : Bool} {rs : List Report}

/-- The reports of one trace among others. -/
def ofKey (strict : Bool) (rs : List Report) (id : TraceId) : List Report :=
  rs.filter fun r => r.traceKey strict = id

theorem mem_ofKey {id : TraceId} {r : Report} :
    r ∈ ofKey strict rs id ↔ r ∈ rs ∧ r.traceKey strict = id := by
  simp [ofKey]

theorem get?_gather (strict : Bool) (rs : List Report) (id : TraceId) :
    (gather strict rs).get? id
      = if (ofKey strict rs id).isEmpty then none else some (ofKey strict rs id) := by
  -- The groups after some reports are the groups before them with these reports at their ends.
  have step : ∀ (rs : List Report) (groups : SortedMap TraceId (List Report)),
      (rs.foldl (fun groups r => groups.modify (r.traceKey strict) fun g => g.getD [] ++ [r])
        groups).get? id
      = if (ofKey strict rs id).isEmpty then groups.get? id
        else some ((groups.get? id).getD [] ++ ofKey strict rs id) := by
    intro rs
    induction rs with
    | nil => exact fun groups => rfl
    | cons r rs ih =>
      intro groups
      rw [List.foldl_cons, ih, SortedMap.modify, SortedMap.get?_insert]
      by_cases h : id = r.traceKey strict
      · have : ofKey strict (r :: rs) id = r :: ofKey strict rs id := by simp [ofKey, h]
        rw [this, if_pos h]
        cases hrs : ofKey strict rs id <;> simp [h]
      · have : ofKey strict (r :: rs) id = ofKey strict rs id := by
          rw [ofKey, List.filter_cons_of_neg (by simpa using Ne.symm h), ofKey]
        rw [this, if_neg h]
  rw [gather, step]
  simp

theorem mem_group {id : TraceId} {t : Trace} :
    (id, t) ∈ group strict rs ↔ (∃ r ∈ rs, r.traceKey strict = id)
      ∧ t = sortByTime (ofKey strict rs id) := by
  have hne : (∃ r ∈ rs, r.traceKey strict = id) ↔ ofKey strict rs id ≠ [] := by
    constructor
    · rintro ⟨r, hr, hk⟩
      exact List.ne_nil_of_mem (mem_ofKey.2 ⟨hr, hk⟩)
    · intro hne
      obtain ⟨r, hr⟩ := List.exists_mem_of_ne_nil _ hne
      exact ⟨r, mem_ofKey.1 hr⟩
  rw [hne, group, List.mem_map]
  constructor
  · rintro ⟨⟨k, g⟩, hg, heq⟩
    obtain ⟨rfl, rfl⟩ := Prod.mk.inj heq
    have := SortedMap.get?_eq_some_iff.2 hg
    rw [get?_gather] at this
    split at this
    · cases this
    · next hempty =>
      obtain rfl := Option.some.inj this
      exact ⟨by simpa using hempty, rfl⟩
  · rintro ⟨hne, rfl⟩
    refine ⟨(id, ofKey strict rs id), SortedMap.get?_eq_some_iff.1 ?_, rfl⟩
    rw [get?_gather, if_neg (by simpa using hne)]

theorem nodup_map_fst_group (strict : Bool) (rs : List Report) :
    ((group strict rs).map Prod.fst).Nodup := by
  rw [group, List.map_map]
  exact (gather strict rs).nodup_keys

theorem mem_map_fst_group {id : TraceId} :
    id ∈ (group strict rs).map Prod.fst ↔ ∃ r ∈ rs, r.traceKey strict = id := by
  rw [List.mem_map]
  constructor
  · rintro ⟨t, ht, rfl⟩
    exact (mem_group.1 ht).1
  · exact fun h => ⟨(id, _), mem_group.2 ⟨h, rfl⟩, rfl⟩

/-- A trace of a group holds the reports of its key, each as often as there are such reports, in
the order of time. -/
theorem mem_of_mem_group {id : TraceId} {t : Trace} (h : (id, t) ∈ group strict rs) (r : Report) :
    r ∈ t ↔ r ∈ rs ∧ r.traceKey strict = id := by
  rw [(mem_group.1 h).2, (sortByTime_perm _).mem_iff, mem_ofKey]

theorem nodup_of_mem_group (hrs : rs.Nodup) {id : TraceId} {t : Trace}
    (h : (id, t) ∈ group strict rs) : t.Nodup := by
  rw [(mem_group.1 h).2, (sortByTime_perm _).nodup_iff]
  exact hrs.filter _

theorem pairwise_of_mem_group {id : TraceId} {t : Trace} (h : (id, t) ∈ group strict rs) :
    t.Pairwise fun a b => (a.byTime b).isLE = true := by
  rw [(mem_group.1 h).2]
  exact sortByTime_pairwise _

/-! What is grouped may come in any order: the spans of one trace have different ids, so nothing
compares equal. -/

theorem nodup_map_id {id : TraceId} (hkeys : (rs.map Report.key).Nodup)
    (htrace : ∀ r ∈ rs, r.traceId = id) : (rs.map (·.id)).Nodup := by
  have hkey : ∀ r ∈ rs, Report.key r = ((fun i => ⟨id, i⟩ : UInt64 → Key) ∘ (·.id)) r := by
    intro r hr
    rw [Report.key, htrace r hr]
    rfl
  rw [List.map_congr_left hkey, ← List.map_map] at hkeys
  exact List.Nodup.of_map _ hkeys

theorem sortByTime_perm_of_perm {rs' : List Report} (h : rs.Perm rs') :
    (sortByTime rs).Perm (sortByTime rs') :=
  ((sortByTime_perm rs).trans h).trans (sortByTime_perm rs').symm

theorem sortByTime_eq_of_perm {rs' : List Report} (hids : (rs.map (·.id)).Nodup)
    (h : rs.Perm rs') : sortByTime rs = sortByTime rs' := by
  refine (sortByTime_perm_of_perm h).eq_of_pairwise ?_
    (sortByTime_pairwise rs) (sortByTime_pairwise rs')
  intro a b ha hb hab hba
  obtain ⟨-, -, hid⟩ := Report.byTime_eq_eq_iff.1 (Std.OrientedCmp.isLE_antisymm hab hba)
  have ha : a ∈ rs := (sortByTime_perm rs).mem_iff.1 ha
  have hb : b ∈ rs := h.mem_iff.2 ((sortByTime_perm rs').mem_iff.1 hb)
  exact List.inj_on_of_nodup_map hids ha hb hid

theorem map_fst_group (strict : Bool) (rs : List Report) :
    (group strict rs).map Prod.fst = (gather strict rs).keys := by
  rw [group, List.map_map]
  rfl

theorem group_eq_map (strict : Bool) (rs : List Report) :
    group strict rs
      = (gather strict rs).keys.map fun id => (id, sortByTime (ofKey strict rs id)) := by
  rw [← map_fst_group, List.map_map]
  have : ∀ t ∈ group strict rs,
      ((fun id => (id, sortByTime (ofKey strict rs id))) ∘ Prod.fst) t = t :=
    fun t ht => Prod.ext rfl (mem_group.1 ht).2.symm
  rw [List.map_congr_left this, List.map_id']

theorem group_eq_of_perm {rs' : List Report} (hkeys : (rs.map Report.key).Nodup)
    (h : rs.Perm rs') : group true rs = group true rs' := by
  have hgathered : (gather true rs).keys = (gather true rs').keys := by
    apply Ascending.eq_of_mem_iff (gather true rs).ascending (gather true rs').ascending
    intro id
    show id ∈ (gather true rs).keys ↔ id ∈ (gather true rs').keys
    rw [← map_fst_group, ← map_fst_group, mem_map_fst_group, mem_map_fst_group]
    simp only [h.mem_iff]
  rw [group_eq_map, group_eq_map, hgathered]
  apply List.map_congr_left
  intro id _
  have htrace : ∀ r ∈ ofKey true rs id, r.traceId = id := fun r hr => (mem_ofKey.1 hr).2
  have hown : ((ofKey true rs id).map Report.key).Nodup :=
    hkeys.sublist (List.filter_sublist.map Report.key)
  rw [sortByTime_eq_of_perm (nodup_map_id hown htrace) (h.filter _)]
  rfl

end Trace

end TraceArchive
