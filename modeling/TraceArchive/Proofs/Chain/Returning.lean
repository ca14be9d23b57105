import TraceArchive.Proofs.Chain

set_option autoImplicit false

/-!
Chains that may come back. They are followed as far as to the first value that was met before, so
nothing is met twice and only values with a successor can make them long. Where a chain stops does
not depend on how it is followed: there is only one way to meet all its values once.
-/

namespace TraceArchive

variable {β : Type} {next : β → Option β} {met bs cs : List β} {start : Option β} {b : β}

/-- The values met by following a partial function, as far as to one that was met before. -/
def followNew [DecidableEq β] (next : β → Option β) :
    (limit : Nat) → (met : List β) → (start : Option β) → List β
  | 0, _, _ => []
  | _, _, none => []
  | limit + 1, met, some b =>
    if b ∈ met then [] else b :: followNew next limit (b :: met) (next b)

section

variable [DecidableEq β]

@[simp] theorem followNew_none (limit : Nat) : followNew next limit met none = [] := by
  cases limit <;> rfl

theorem length_followNew_le (limit : Nat) : (followNew next limit met start).length ≤ limit := by
  induction limit generalizing met start with
  | zero => exact Nat.le_refl 0
  | succ limit ih =>
    cases start with
    | none => exact Nat.zero_le _
    | some b =>
      rw [followNew]
      split
      · exact Nat.zero_le _
      · exact Nat.succ_le_succ ih

/-- What is left to be met gets less by what is met for the first time. -/
theorem length_filter_not_mem_cons_lt {α : Type} {l : List α} {a : α} (f : α → β) (ha : a ∈ l)
    (hmet : f a ∉ met) :
    (l.filter fun x => f x ∉ f a :: met).length < (l.filter fun x => f x ∉ met).length := by
  have hsplit : (l.filter fun x => f x ∉ f a :: met)
      = (l.filter fun x => f x ∉ met).filter fun x => f x ≠ f a := by
    simp [List.filter_filter]
  rw [hsplit, List.length_filter_lt_length_iff_exists]
  exact ⟨a, List.mem_filter.2 ⟨ha, by simpa using hmet⟩, by simp⟩

end

/-- A chain as far as to its end, or as far as to a value that was met before: one of those that are
given, or one of its own. -/
structure MetOnce (next : β → Option β) (met : List β) (start : Option β) (bs : List β) : Prop where
  chain : follow next bs.length start = bs
  nodup : bs.Nodup
  unmet : ∀ b ∈ bs, b ∉ met
  stops : ∀ b, follow next (bs.length + 1) start = bs ++ [b] → b ∈ bs ∨ b ∈ met

namespace MetOnce

theorem ended : MetOnce next met none [] where
  chain := rfl
  nodup := List.nodup_nil
  unmet := by simp
  stops _ h := by simp at h

theorem returned (h : b ∈ met) : MetOnce next met (some b) [] where
  chain := rfl
  nodup := List.nodup_nil
  unmet := by simp
  stops c hc := by
    obtain rfl : b = c := by simpa [follow] using hc
    exact .inr h

theorem cons (hb : b ∉ met) (h : MetOnce next (b :: met) (next b) bs) :
    MetOnce next met (some b) (b :: bs) where
  chain := by rw [List.length_cons, follow_succ_some, h.chain]
  nodup := List.nodup_cons.2 ⟨fun hmem => h.unmet b hmem List.mem_cons_self, h.nodup⟩
  unmet := by
    refine List.forall_mem_cons.2 ⟨hb, fun c hc hmem => ?_⟩
    exact h.unmet c hc (List.mem_cons_of_mem b hmem)
  stops c hc := by
    rw [List.length_cons, follow_succ_some, List.cons_append] at hc
    rcases h.stops c (List.tail_eq_of_cons_eq hc) with hmem | hmem
    · exact .inl (List.mem_cons_of_mem b hmem)
    · rcases List.mem_cons.1 hmem with rfl | hmem
      · exact .inl List.mem_cons_self
      · exact .inr hmem

/-- A longer chain would go on with the value at which the other one stops. -/
theorem length_le (h : MetOnce next met start bs) (hcs : MetOnce next met start cs) :
    cs.length ≤ bs.length := by
  by_contra hlt
  have hlonger : bs.length < cs.length := Nat.lt_of_not_le hlt
  have htake : cs.take bs.length = bs := by
    have hsame : (follow next cs.length start).take bs.length = follow next bs.length start :=
      take_follow (Nat.le_of_lt hlonger) start
    rwa [hcs.chain, h.chain] at hsame
  have hnext : follow next (bs.length + 1) start = bs ++ [cs[bs.length]] := by
    rw [← take_follow hlonger, hcs.chain, List.take_succ_eq_append_getElem hlonger, htake]
  rcases h.stops _ hnext with hmem | hmem
  · have hbefore : cs[bs.length] ∈ cs.take bs.length := by rwa [htake]
    obtain ⟨i, hi, heq⟩ := List.mem_take_iff_getElem.1 hbefore
    have hsame := hcs.nodup.getElem_inj_iff.1 heq
    omega
  · exact hcs.unmet _ (List.getElem_mem hlonger) hmem

theorem unique (h : MetOnce next met start bs) (hcs : MetOnce next met start cs) : cs = bs := by
  have hlength : cs.length = bs.length := Nat.le_antisymm (h.length_le hcs) (hcs.length_le h)
  rw [← h.chain, ← hcs.chain, hlength]

end MetOnce

/-- A walk stops by itself if it may go on for more steps than there are values with a successor
that were not met yet. -/
theorem metOnce_followNew [DecidableEq β] (support : List β)
    (hs : ∀ b, (next b).isSome → b ∈ support) {limit : Nat}
    (hlimit : (support.filter (· ∉ met)).length < limit) :
    MetOnce next met start (followNew next limit met start) := by
  induction limit generalizing met start with
  | zero => exact absurd hlimit (Nat.not_lt_zero _)
  | succ limit ih =>
    cases start with
    | none => exact .ended
    | some b =>
      rw [followNew]
      split
      · next hb => exact .returned hb
      · next hb =>
        apply MetOnce.cons hb
        cases hnext : next b with
        | none =>
          rw [followNew_none]
          exact .ended
        | some c =>
          have hmem : b ∈ support := hs b (by rw [hnext]; rfl)
          have hfewer := length_filter_not_mem_cons_lt id hmem hb
          exact ih (Nat.lt_of_lt_of_le hfewer (Nat.le_of_lt_succ hlimit))

end TraceArchive
