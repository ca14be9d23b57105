import TraceArchive.Proofs.Sorted.Map
import TraceArchive.ServiceIndex

set_option autoImplicit false

/-!
What a service index lists after names were recorded in it. A name that is listed already leaves
the index as it is.
-/

namespace TraceArchive

namespace ServiceIndex

variable {x : ServiceIndex} {service name : String}

/-- Records names for services one after the other. -/
def recordAll (x : ServiceIndex) (entries : List (String × String)) : ServiceIndex :=
  entries.foldl (fun x e => x.put e.1 e.2) x

theorem recordAll_append (x : ServiceIndex) (entries more : List (String × String)) :
    x.recordAll (entries ++ more) = (x.recordAll entries).recordAll more :=
  List.foldl_append

theorem contains_iff : x.contains service name = true ↔ name ∈ x.get service :=
  decide_eq_true_iff

theorem mem_get_put {other : String × String} :
    name ∈ (x.put other.1 other.2).get service
      ↔ name ∈ x.get service ∨ (service, name) = other := by
  rw [get_put]
  by_cases h : service = other.1
  · rw [if_pos h, SortedSet.mem_insert, h, Prod.ext_iff, or_comm]
    simp
  · rw [if_neg h, Prod.ext_iff]
    simp [h]

theorem mem_get_recordAll {entries : List (String × String)} :
    name ∈ (x.recordAll entries).get service
      ↔ name ∈ x.get service ∨ (service, name) ∈ entries := by
  induction entries generalizing x with
  | nil => simp [recordAll]
  | cons e entries ih =>
    rw [recordAll, List.foldl_cons, ← recordAll, ih, mem_get_put, List.mem_cons, or_assoc]

theorem put_eq_self (h : name ∈ x.get service) : x.put service name = x := by
  have hset : (x.get service).insert name = x.get service := by
    apply SortedSet.ext_mem
    intro other
    rw [SortedSet.mem_insert]
    exact or_iff_right_of_imp fun e => e ▸ h
  have hget : x.services.get? service = some (x.get service) := by
    unfold get at h ⊢
    cases hfound : x.services.get? service with
    | none =>
      rw [hfound] at h
      cases h
    | some names => rfl
  rw [put, hset, SortedMap.insert_eq_self hget]

/-- Names leave the index as it is if they are listed already, and only then. -/
theorem recordAll_eq_self_iff {entries : List (String × String)} :
    x.recordAll entries = x ↔ ∀ e ∈ entries, e.2 ∈ x.get e.1 := by
  constructor
  · intro h e he
    rw [← h]
    exact mem_get_recordAll.2 (.inr he)
  · intro h
    induction entries with
    | nil => rfl
    | cons e entries ih =>
      rw [recordAll, List.foldl_cons, put_eq_self (h e (by simp)), ← recordAll]
      exact ih fun f hf => h f (by simp [hf])

theorem recordAll_again (x : ServiceIndex) (entries : List (String × String)) :
    (x.recordAll entries).recordAll entries = x.recordAll entries :=
  recordAll_eq_self_iff.2 fun _ he => mem_get_recordAll.2 (.inr he)

end ServiceIndex

end TraceArchive
