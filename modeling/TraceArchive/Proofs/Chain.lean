import Mathlib.Data.List.Nodup
import Mathlib.Order.WellFounded

set_option autoImplicit false

/-!
Chains: what is met by following a partial function. Where following never comes back, no value is
met twice, so a chain ends by itself after all values that have a successor.
-/

namespace TraceArchive

variable {β : Type} {next : β → Option β}

/-- The first values that are met by following a partial function. -/
def follow (next : β → Option β) : (limit : Nat) → (start : Option β) → List β
  | 0, _ => []
  | _, none => []
  | limit + 1, some b => b :: follow next limit (next b)

/-- Following never comes back to a value. -/
def Acyclic (next : β → Option β) : Prop := WellFounded fun b a => next a = some b

@[simp] theorem follow_none (limit : Nat) : follow next limit none = [] := by
  cases limit <;> rfl

@[simp] theorem follow_succ_some (limit : Nat) (b : β) :
    follow next (limit + 1) (some b) = b :: follow next limit (next b) := rfl

theorem take_follow {m n : Nat} (h : m ≤ n) (start : Option β) :
    (follow next n start).take m = follow next m start := by
  induction m generalizing n start with
  | zero => simp [follow]
  | succ m ih =>
    obtain ⟨n, rfl⟩ : ∃ k, n = k + 1 := ⟨n - 1, by omega⟩
    cases start with
    | none => simp
    | some b => simp [ih (Nat.le_of_succ_le_succ h)]

/-- A chain that ends by itself stays the same under a higher limit. -/
theorem follow_eq_of_length_le {m n : Nat} {start : Option β} (h : m ≤ n)
    (short : (follow next n start).length ≤ m) : follow next n start = follow next m start := by
  rw [← take_follow h, List.take_of_length_le short]

theorem mem_follow_of_le {m n : Nat} {start : Option β} {b : β} (h : m ≤ n)
    (hb : b ∈ follow next m start) : b ∈ follow next n start := by
  rw [← take_follow h] at hb
  exact List.mem_of_mem_take hb

theorem transGen_of_mem_follow {n : Nat} {a b : β} (h : b ∈ follow next n (next a)) :
    Relation.TransGen (fun b a => next a = some b) b a := by
  induction n generalizing a with
  | zero => simp [follow] at h
  | succ n ih =>
    cases ha : next a with
    | none => simp [ha] at h
    | some c =>
      rw [ha, follow_succ_some] at h
      rcases List.mem_cons.1 h with rfl | h
      · exact .single ha
      · exact .tail (ih h) ha

/-- What is met at all is what successors lead to. -/
theorem exists_mem_follow_iff {a b : β} : (∃ n, b ∈ follow next n (some a))
    ↔ Relation.ReflTransGen (fun a b => next a = some b) a b := by
  constructor
  · rintro ⟨n, h⟩
    induction n generalizing a with
    | zero => simp [follow] at h
    | succ n ih =>
      rw [follow_succ_some] at h
      rcases List.mem_cons.1 h with rfl | h
      · exact .refl
      · cases ha : next a with
        | none => simp [ha] at h
        | some c => exact .head ha (ih (ha ▸ h))
  · intro h
    induction h using Relation.ReflTransGen.head_induction_on with
    | refl => exact ⟨1, by simp⟩
    | head ha _ ih =>
      obtain ⟨n, hn⟩ := ih
      refine ⟨n + 1, ?_⟩
      rw [follow_succ_some, ha]
      exact List.mem_cons_of_mem _ hn

theorem exists_next_of_mem_follow {n : Nat} {a b : β} (h : b ∈ follow next n (next a)) :
    ∃ c, next c = some b := by
  obtain ⟨c, hc, -⟩ := Relation.TransGen.head'_iff.1 (transGen_of_mem_follow h)
  exact ⟨c, hc⟩

theorem Acyclic.not_mem_follow (h : Acyclic next) (n : Nat) (a : β) :
    a ∉ follow next n (next a) := fun ha =>
  h.transGen.irrefl.irrefl a (transGen_of_mem_follow ha)

theorem Acyclic.nodup_follow (h : Acyclic next) (n : Nat) (start : Option β) :
    (follow next n start).Nodup := by
  induction n generalizing start with
  | zero => simp [follow]
  | succ n ih =>
    cases start with
    | none => simp
    | some b => exact List.nodup_cons.2 ⟨h.not_mem_follow n b, ih _⟩

/-- Only the last value of a chain may have no successor. -/
theorem isSome_of_mem_dropLast_follow {n : Nat} {start : Option β} {b : β}
    (h : b ∈ (follow next n start).dropLast) : (next b).isSome := by
  induction n generalizing start with
  | zero => simp [follow] at h
  | succ n ih =>
    cases start with
    | none => simp at h
    | some c =>
      rw [follow_succ_some] at h
      cases hc : next c with
      | none => simp [hc] at h
      | some d =>
        cases n with
        | zero => simp [follow] at h
        | succ n =>
          rw [hc, follow_succ_some, List.dropLast_cons_cons] at h
          rcases List.mem_cons.1 h with rfl | h
          · simp [hc]
          · have hd : b ∈ (follow next (n + 1) (some d)).dropLast := by simpa using h
            exact ih hd

theorem Acyclic.length_follow_le (h : Acyclic next) {support : List β}
    (hs : ∀ b, (next b).isSome → b ∈ support) (n : Nat) (start : Option β) :
    (follow next n start).length ≤ support.length + 1 := by
  have inner : (follow next n start).dropLast.length ≤ support.length :=
    ((h.nodup_follow n start).sublist (List.dropLast_sublist _)).length_le_of_subset
      fun b hb => hs b (isSome_of_mem_dropLast_follow hb)
  rw [List.length_dropLast] at inner
  omega

/-- As many steps as there are values with a successor, and one more, meet all there is. -/
theorem Acyclic.mem_follow_support (h : Acyclic next) {support : List β}
    (hs : ∀ b, (next b).isSome → b ∈ support) {n : Nat} {start : Option β} {b : β}
    (hb : b ∈ follow next n start) : b ∈ follow next (support.length + 1) start := by
  rcases Nat.le_total n (support.length + 1) with hn | hn
  · exact mem_follow_of_le hn hb
  · rwa [← follow_eq_of_length_le hn (h.length_follow_le hs n start)]

/-- A chain that did not reach its limit ends at a value without a successor. -/
theorem getLast?_follow {n : Nat} {start : Option β} {b : β}
    (short : (follow next n start).length < n)
    (hb : (follow next n start).getLast? = some b) : next b = none := by
  induction n generalizing start with
  | zero => simp at short
  | succ n ih =>
    cases start with
    | none => simp at hb
    | some c =>
      cases hc : next c with
      | none =>
        simp only [follow_succ_some, hc, follow_none, List.getLast?_singleton,
          Option.some.injEq] at hb
        rw [← hb, hc]
      | some d =>
        rw [follow_succ_some, hc] at hb short
        cases n with
        | zero => simp [follow] at short
        | succ n =>
          rw [follow_succ_some, List.getLast?_cons_cons, ← follow_succ_some] at hb
          exact ih (by simpa using short) hb

/-- A new link keeps a function acyclic unless it closes a circle. The values that do not lead to
the changed one are reached as before, then the changed one itself, and then all others. -/
theorem Acyclic.update [DecidableEq β] (h : Acyclic next) {a : β} {target : Option β}
    (free : ∀ n, a ∉ follow next n target) :
    Acyclic fun b => if b = a then target else next b := by
  have away : ∀ b, (∀ n, a ∉ follow next n (some b)) →
      Acc (fun y x => (if x = a then target else next x) = some y) b := by
    intro b
    induction b using h.induction with
    | _ b ih =>
      intro hb
      have hba : b ≠ a := fun e => hb 1 (by simp [e])
      refine .intro _ fun c hc => ?_
      rw [if_neg hba] at hc
      refine ih c hc fun n hn => hb (n + 1) ?_
      rw [follow_succ_some, hc]
      exact List.mem_cons_of_mem _ hn
  have changed : Acc (fun y x => (if x = a then target else next x) = some y) a := by
    refine .intro _ fun c hc => ?_
    rw [if_pos rfl] at hc
    exact away c (hc ▸ free)
  refine ⟨fun b => ?_⟩
  induction b using h.induction with
  | _ b ih =>
    by_cases hba : b = a
    · exact hba ▸ changed
    · refine .intro _ fun c hc => ih c ?_
      simpa [hba] using hc

end TraceArchive
