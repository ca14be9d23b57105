import TraceArchive.Text.Split

set_option autoImplicit false

/-!
Cutting a joined text. A text is cut where the separator starts for the first time. So where no part
holds the first character of the separator, a text is split into the parts that it was joined from.
-/

namespace TraceArchive.Text

variable {sep cs rest : List Char} {s : Char}

theorem splitChar_eq_splitOn (s : Char) (cs : List Char) : splitChar s cs = cs.splitOn s := by
  induction cs with
  | nil => rfl
  | cons c cs ih =>
    rw [splitChar, List.splitOn_cons_eq_if_modifyHead, ih]
    by_cases hc : c = s
    · rw [if_pos hc, if_pos (beq_iff_eq.2 hc)]
    · rw [if_neg hc, if_neg (by simpa using hc)]
      cases hparts : cs.splitOn s with
      | nil => exact absurd hparts (List.splitOn_ne_nil s cs)
      | cons part parts => rfl

theorem splitChar_intercalate {parts : List (List Char)} (hne : parts ≠ [])
    (h : ∀ part ∈ parts, s ∉ part) : splitChar s (List.intercalate [s] parts) = parts := by
  rw [splitChar_eq_splitOn, List.splitOn_intercalate s h hne]

theorem splitChar_of_not_mem (h : s ∉ cs) : splitChar s cs = [cs] := by
  rw [splitChar_eq_splitOn, List.splitOn_eq_singleton h]

/-- Parts are read back in their order, each as it was written. -/
theorem mapM_map_eq_pure {m : Type → Type} [Monad m] [LawfulMonad m] {α β : Type} (write : α → β)
    (read : β → m α) (h : ∀ a, read (write a) = pure a) (as : List α) :
    (as.map write).mapM read = pure as := by
  have hread : read ∘ write = fun a => pure a := funext h
  rw [List.mapM_map, hread, List.mapM_pure, List.map_id']

/-! The first occurrence of a separator. -/

theorem cut?_cons_of_not_starts {c : Char} (h : ¬ sep <+: c :: cs) :
    cut? sep (c :: cs) = (cut? sep cs).map fun p => (c :: p.1, p.2) := by
  rw [cut?, if_neg (by rwa [List.isPrefixOf_iff_prefix])]

theorem cut?_separator (sep rest : List Char) : cut? sep (sep ++ rest) = some ([], rest) := by
  cases hcs : sep ++ rest with
  | nil =>
    obtain ⟨rfl, rfl⟩ := List.append_eq_nil_iff.1 hcs
    rfl
  | cons c cs =>
    have hstarts : sep <+: c :: cs := hcs ▸ List.prefix_append sep rest
    rw [cut?, if_pos (List.isPrefixOf_iff_prefix.2 hstarts), ← hcs, List.drop_left]

/-- What stands before a separator is cut off if the separator does not start within it. -/
theorem cut?_append (h : ∀ c after, c :: after <:+ cs → ¬ sep <+: c :: after ++ (sep ++ rest)) :
    cut? sep (cs ++ (sep ++ rest)) = some (cs, rest) := by
  induction cs with
  | nil => exact cut?_separator sep rest
  | cons c cs ih =>
    have htail := ih fun d after hsuffix => h d after (hsuffix.trans (List.suffix_cons c cs))
    have hhead : ¬ sep <+: c :: (cs ++ (sep ++ rest)) := h c cs (List.suffix_refl _)
    rw [List.cons_append, cut?_cons_of_not_starts hhead, htail]
    rfl

theorem cut?_eq_none (hsep : sep ≠ [])
    (h : ∀ c after, c :: after <:+ cs → ¬ sep <+: c :: after) : cut? sep cs = none := by
  induction cs with
  | nil => simpa [cut?] using hsep
  | cons c cs ih =>
    have htail := ih fun d after hsuffix => h d after (hsuffix.trans (List.suffix_cons c cs))
    rw [cut?_cons_of_not_starts (h c cs (List.suffix_refl _)), htail]
    rfl

theorem not_starts_of_not_mem (hs : s ∉ cs) {c : Char} {after : List Char}
    (hsuffix : c :: after <:+ cs) (sep more : List Char) : ¬ s :: sep <+: c :: after ++ more := by
  intro hstarts
  obtain rfl : s = c := (List.cons_prefix_cons.1 hstarts).1
  exact hs (hsuffix.subset List.mem_cons_self)

theorem cut?_append_of_not_mem (hs : s ∉ cs) :
    cut? (s :: sep) (cs ++ (s :: sep ++ rest)) = some (cs, rest) :=
  cut?_append fun _ _ hsuffix => not_starts_of_not_mem hs hsuffix _ _

theorem cut?_eq_none_of_not_mem (hs : s ∉ cs) : cut? (s :: sep) cs = none := by
  apply cut?_eq_none (List.cons_ne_nil s sep)
  intro c after hsuffix
  simpa using not_starts_of_not_mem hs hsuffix sep []

theorem splitWord_of_cut?_eq_none (h : cut? sep cs = none) : splitWord sep cs = [cs] := by
  rw [splitWord]
  split
  · rfl
  · next hcut => rw [h] at hcut; cases hcut

theorem splitWord_of_cut? (hsep : sep ≠ []) {before after : List Char}
    (h : cut? sep cs = some (before, after)) :
    splitWord sep cs = before :: splitWord sep after := by
  rw [splitWord]
  split
  · next hcut => rw [h] at hcut; cases hcut
  · next hcut =>
    rw [h] at hcut
    obtain ⟨rfl, rfl⟩ := Prod.mk.inj (Option.some.inj hcut)
    rw [dif_neg hsep]

/-- A text is split into the parts that it was joined from. -/
theorem splitWord_intercalate (sep : List Char) {parts : List (List Char)} (hne : parts ≠ [])
    (h : ∀ part ∈ parts, s ∉ part) :
    splitWord (s :: sep) (List.intercalate (s :: sep) parts) = parts := by
  induction parts with
  | nil => exact absurd rfl hne
  | cons part parts ih =>
    have hpart : s ∉ part := h part List.mem_cons_self
    cases parts with
    | nil =>
      rw [List.intercalate_singleton, splitWord_of_cut?_eq_none (cut?_eq_none_of_not_mem hpart)]
    | cons next parts =>
      have htail := ih (List.cons_ne_nil next parts) fun p hp => h p (List.mem_cons_of_mem part hp)
      rw [List.intercalate_cons_cons, List.append_assoc,
        splitWord_of_cut? (List.cons_ne_nil s sep) (cut?_append_of_not_mem hpart), htail]

end TraceArchive.Text
