import TraceArchive.Name
import TraceArchive.Proofs.Text.Trimming
import TraceArchive.Report

set_option autoImplicit false

/-!
Names, as they are spelled and as they are stored and searched. A cleansed name does not depend on
case or on blanks around it, and it stays as it is when it is cleansed again. The name of a span
keeps the blanks around it, so the two agree if there are none.
-/

namespace TraceArchive

variable {n m : String}

theorem cleanse_eq_some_iff :
    cleanse n = some m ↔ Text.trim n ≠ "" ∧ Text.lowercase (Text.trim n) = m := by
  unfold cleanse
  split <;> simp [*]

theorem spanName?_eq_some_iff : spanName? n = some m ↔ n ≠ "" ∧ Text.lowercase n = m := by
  unfold spanName?
  split <;> simp [*]

theorem trim_of_cleanse (h : cleanse n = some m) : Text.trim m = m := by
  obtain ⟨-, rfl⟩ := cleanse_eq_some_iff.1 h
  rw [Text.trim_lowercase, Text.trim_trim]

/-- A cleansed name stays as it is. -/
theorem cleanse_of_cleanse (h : cleanse n = some m) : cleanse m = some m := by
  refine cleanse_eq_some_iff.2 ⟨?_, ?_⟩
  · rw [trim_of_cleanse h]
    exact cleanse_ne_empty h
  · obtain ⟨-, rfl⟩ := cleanse_eq_some_iff.1 h
    rw [Text.trim_lowercase, Text.trim_trim, Text.lowercase_lowercase]

/-- What is recorded of a name does not depend on its spelling in the span. -/
theorem bind_cleanse_spanName? (n : String) : (spanName? n).bind cleanse = cleanse n := by
  unfold spanName?
  split
  · next h =>
    subst h
    rfl
  · simp only [Option.bind_some, cleanse, Text.trim_lowercase, Text.lowercase_eq_empty_iff,
      Text.lowercase_lowercase]

/-- Names are normalised alike if there are no blanks around them. -/
theorem spanName?_eq_cleanse_iff (h : cleanse n = some m) :
    spanName? n = some m ↔ Text.trim n = n := by
  obtain ⟨hblank, rfl⟩ := cleanse_eq_some_iff.1 h
  have hempty : n ≠ "" := by
    rintro rfl
    exact hblank rfl
  rw [spanName?_eq_some_iff, and_iff_right hempty, ← Text.trim_lowercase, eq_comm,
    Text.trim_lowercase_eq_self_iff]

theorem Report.mem_services {r : Report} {service : String} :
    service ∈ r.services ↔ ∃ e ∈ r.endpoints, cleanse e.service = some service := by
  simp only [services, SortedSet.mem_ofList, List.mem_filter, List.mem_map, decide_eq_true_eq,
    cleanse_eq_some_iff]
  constructor
  · rintro ⟨⟨e, he, rfl⟩, hne⟩
    exact ⟨e, he, fun h => hne (Text.lowercase_eq_empty_iff.2 h), rfl⟩
  · rintro ⟨e, he, hne, rfl⟩
    exact ⟨⟨e, he, rfl⟩, fun h => hne (Text.lowercase_eq_empty_iff.1 h)⟩

end TraceArchive
