set_option autoImplicit false

/-!
Cutting texts at separators. The parts and the separators between them make up the whole text.
-/

namespace TraceArchive.Text

/-- The parts between the occurrences of one character; there is always at least one part. -/
def splitChar (sep : Char) : List Char → List (List Char)
  | [] => [[]]
  | c :: cs =>
    if c = sep then [] :: splitChar sep cs
    else match splitChar sep cs with
      | [] => [[c]]
      | part :: parts => (c :: part) :: parts

/-- What stands before and after the first occurrence of a separator. -/
def cut? (sep : List Char) : List Char → Option (List Char × List Char)
  | [] => if sep.isEmpty then some ([], []) else none
  | c :: cs =>
    if sep.isPrefixOf (c :: cs) then some ([], (c :: cs).drop sep.length)
    else (cut? sep cs).map fun p => (c :: p.1, p.2)

theorem eq_of_cut? {sep cs before after : List Char} (h : cut? sep cs = some (before, after)) :
    cs = before ++ sep ++ after := by
  induction cs generalizing before with
  | nil =>
    simp only [cut?] at h
    split at h <;> simp_all
  | cons c cs ih =>
    simp only [cut?] at h
    split at h
    · next hp =>
      obtain ⟨rest, hr⟩ := List.isPrefixOf_iff_prefix.1 hp
      simp only [Option.some.injEq, Prod.mk.injEq] at h
      rw [← hr, List.drop_left] at h
      simp [← hr, ← h.1, ← h.2]
    · obtain ⟨p, hp, he⟩ := Option.map_eq_some_iff.1 h
      cases p
      simp only [Prod.mk.injEq] at he
      obtain ⟨rfl, rfl⟩ := he
      simpa using ih hp

/-- The parts between the occurrences of a separator, found from left to right. -/
def splitWord (sep cs : List Char) : List (List Char) :=
  match _h : cut? sep cs with
  | none => [cs]
  | some (before, after) =>
    if _hs : sep = [] then [cs] else before :: splitWord sep after
termination_by cs.length
decreasing_by
  have := congrArg List.length (eq_of_cut? _h)
  have : sep.length ≠ 0 := by simpa using _hs
  simp only [List.length_append] at *
  omega

end TraceArchive.Text
