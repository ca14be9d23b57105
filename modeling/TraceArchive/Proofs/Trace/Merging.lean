import Mathlib.Data.List.Forall2
import TraceArchive.Proofs.Report.Contents
import TraceArchive.Trace.Grouping

set_option autoImplicit false

/-!
Merging the reports of a trace by their span ids. There is one merged report for each span, and it
tells what the reports of the span tell together.
-/

namespace TraceArchive.Trace

/-- Reports merged by span ids. -/
structure Merged (merged rs : List Report) : Prop where
  once : (merged.map (·.id)).Nodup
  ids : ∀ id, id ∈ merged.map (·.id) ↔ id ∈ rs.map (·.id)
  sums : ∀ s ∈ merged, s.Sums fun r => r ∈ rs ∧ r.id = s.id

theorem Merged.nil : Merged [] [] := ⟨by simp, by simp, by simp⟩

theorem Merged.perm {ts us rs : List Report} (h : Merged ts rs) (hperm : us.Perm ts) :
    Merged us rs where
  once := (hperm.map _).nodup_iff.2 h.once
  ids id := (hperm.map _).mem_iff.trans (h.ids id)
  sums s hs := h.sums s (hperm.mem_iff.1 hs)

section

variable {r : Report} {ts : List Report}

theorem absorb_of_not_mem (h : r.id ∉ ts.map (·.id)) : absorb r ts = ts ++ [r] := by
  induction ts with
  | nil => rfl
  | cons t ts ih =>
    rw [List.map_cons, List.mem_cons, not_or] at h
    rw [absorb, if_neg (Ne.symm h.1), ih h.2, List.cons_append]

/-- Where the span has a report already, that one changes and no other. -/
theorem absorb_perm (h : r.id ∈ ts.map (·.id)) : ∃ t rest, t.id = r.id ∧ ts.Perm (t :: rest)
    ∧ (absorb r ts).Perm (t.merge r :: rest) := by
  induction ts with
  | nil => simp at h
  | cons t ts ih =>
    by_cases ht : t.id = r.id
    · exact ⟨t, ts, ht, .refl _, by rw [absorb, if_pos ht]⟩
    · rw [List.map_cons, List.mem_cons] at h
      obtain ⟨s, rest, hs, hts, habsorb⟩ := ih (h.resolve_left (Ne.symm ht))
      refine ⟨s, t :: rest, hs, (hts.cons t).trans (.swap s t rest), ?_⟩
      rw [absorb, if_neg ht]
      exact (habsorb.cons t).trans (.swap _ t rest)

end

section

variable {ts rs : List Report} {r r' : Report}

theorem Merged.merge_head {t : Report} (h : Merged (t :: ts) rs) (hid : t.id = r.id)
    (halike : r'.Alike r) : Merged (t.merge r' :: ts) (rs ++ [r]) := by
  have hmerge : (t.merge r').id = t.id := rfl
  have honce := h.once
  rw [List.map_cons, List.nodup_cons] at honce
  constructor
  · exact h.once
  · intro i
    rw [List.map_append, List.mem_append, ← h.ids, List.map_cons, List.map_cons, hmerge]
    refine (or_iff_left_of_imp ?_).symm
    intro hi
    rw [List.map_singleton, List.mem_singleton, ← hid] at hi
    exact hi ▸ List.mem_cons_self
  · intro s hs
    rcases List.mem_cons.1 hs with rfl | hs
    · have ht := h.sums t List.mem_cons_self
      exact (ht.merge (halike.sums (Report.sums_self r))).append_own hid.symm
    · apply (h.sums s (List.mem_cons_of_mem _ hs)).append_other
      intro e
      apply honce.1
      rw [hid, e]
      exact List.mem_map_of_mem hs

theorem Merged.append_new (h : Merged ts rs) (hnew : r.id ∉ ts.map (·.id))
    (halike : r'.Alike r) : Merged (ts ++ [r']) (rs ++ [r]) := by
  constructor
  · rw [List.map_append, List.map_singleton, halike.id]
    refine List.nodup_append.2 ⟨h.once, by simp, fun i hi j hj e => hnew ?_⟩
    rw [← List.mem_singleton.1 hj, ← e]
    exact hi
  · intro i
    simp only [List.map_append, List.mem_append, h.ids, List.map_singleton, halike.id]
  · intro s hs
    rcases List.mem_append.1 hs with hs | hs
    · apply (h.sums s hs).append_other
      intro e
      apply hnew
      rw [e]
      exact List.mem_map_of_mem hs
    · obtain rfl := List.mem_singleton.1 hs
      have hnone : ∀ x, ¬ (x ∈ rs ∧ x.id = s.id) := by
        rintro x ⟨hx, hxid⟩
        exact hnew ((h.ids _).2 (List.mem_map.2 ⟨x, hx, hxid.trans halike.id⟩))
      have hs := (halike.sums (Report.sums_self r)).congr fun x => (or_iff_right (hnone x)).symm
      exact hs.append_own halike.id.symm

theorem Merged.absorb (h : Merged ts rs) (halike : r'.Alike r) :
    Merged (absorb r' ts) (rs ++ [r]) := by
  by_cases hmem : r'.id ∈ ts.map (·.id)
  · obtain ⟨t, rest, hid, hts, habsorb⟩ := absorb_perm hmem
    exact ((h.perm hts.symm).merge_head (hid.trans halike.id) halike).perm habsorb
  · rw [absorb_of_not_mem hmem]
    exact h.append_new (halike.id ▸ hmem) halike

end

theorem alike_fillHigh (high : UInt64) (r : Report) : (fillHigh high r).Alike r := by
  unfold fillHigh
  split
  · exact (Report.Alike.tidy _).trans (.of_mem_iff rfl (fun _ => .rfl) fun _ => .rfl)
  · exact .refl r

theorem merged_mergeById (rs : List Report) : Merged (mergeById rs) rs := by
  have step : ∀ (high : UInt64) (rs seen merged : List Report), Merged merged seen →
      Merged ((rs.map (fillHigh high)).foldl (fun merged r => Trace.absorb r merged) merged)
        (seen ++ rs) := by
    intro high rs
    induction rs with
    | nil => exact fun seen merged h => by simpa using h
    | cons r rs ih =>
      intro seen merged h
      have := ih (seen ++ [r]) _ (h.absorb (alike_fillHigh high r))
      simpa using this
  exact (step _ rs [] [] .nil).perm (sortByTime_perm _)

/-! What was merged may be put in another order, and its times may be set anew. -/

section

variable {ts us rs : List Report}

theorem Merged.congr (h : Merged ts rs) {rs' : List Report} (hperm : rs.Perm rs') :
    Merged ts rs' where
  once := h.once
  ids id := (h.ids id).trans (hperm.map _).mem_iff
  sums s hs := (h.sums s hs).congr fun _ => and_congr_left fun _ => hperm.mem_iff

theorem map_id_of_alike (h : List.Forall₂ Report.Alike us ts) :
    us.map (·.id) = ts.map (·.id) := by
  induction h with
  | nil => rfl
  | cons halike _ ih => rw [List.map_cons, List.map_cons, halike.id, ih]

theorem exists_alike_of_mem (h : List.Forall₂ Report.Alike us ts) {u : Report} (hu : u ∈ us) :
    ∃ t ∈ ts, u.Alike t := by
  induction h with
  | nil => cases hu
  | cons halike _ ih =>
    rcases List.mem_cons.1 hu with rfl | hu
    · exact ⟨_, List.mem_cons_self, halike⟩
    · obtain ⟨t, ht, hut⟩ := ih hu
      exact ⟨t, List.mem_cons_of_mem _ ht, hut⟩

theorem Merged.alike (h : Merged ts rs) (hus : List.Forall₂ Report.Alike us ts) :
    Merged us rs where
  once := map_id_of_alike hus ▸ h.once
  ids id := map_id_of_alike hus ▸ h.ids id
  sums u hu := by
    obtain ⟨t, ht, hut⟩ := exists_alike_of_mem hus hu
    rw [hut.id]
    exact hut.sums (h.sums t ht)

end

end TraceArchive.Trace
