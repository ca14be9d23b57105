import Mathlib.Data.List.DropRight
import TraceArchive.Proofs.Text.Lowercase
import TraceArchive.Text.Blank

set_option autoImplicit false

/-!
Trimming and lowercasing. Blanks have no case, they end words, and no other character is lowercased
to one. So a text may be trimmed before or after it is lowercased, and it has blanks at its ends in
lowercase if and only if it has them in its own spelling.
-/

namespace TraceArchive.Text

/-- The code points of the blanks. -/
def blankCodes : List Nat :=
  [0x9, 0xA, 0xB, 0xC, 0xD, 0x20, 0x85, 0xA0, 0x1680, 0x2000, 0x2001, 0x2002, 0x2003, 0x2004,
    0x2005, 0x2006, 0x2007, 0x2008, 0x2009, 0x200A, 0x2028, 0x2029, 0x202F, 0x205F, 0x3000]

theorem toNat_mem_blankCodes {c : Char} (h : isBlank c = true) : c.toNat ∈ blankCodes := by
  simp only [isBlank, Bool.or_eq_true, Bool.and_eq_true, decide_eq_true_eq, beq_iff_eq] at h
  simp only [blankCodes, List.mem_cons, List.not_mem_nil, or_false]
  omega

namespace Lowercase

/-- A character that lowercasing leaves alone and that ends a word. -/
def EndsWord (c : Char) : Prop := IsLower c ∧ isCased c = false ∧ isIgnorable c = false

instance (c : Char) : Decidable (EndsWord c) := inferInstanceAs (Decidable (_ ∧ _ ∧ _))

variable {b : Bool} {c : Char}

theorem endsWord_of_isBlank (h : isBlank c = true) : EndsWord c := by
  have : ∀ n ∈ blankCodes, EndsWord (Char.ofNat n) := by decide +kernel
  rw [← Char.ofNat_toNat c]
  exact this _ (toNat_mem_blankCodes h)

/-- The run does not lead to a blank. -/
def Run.avoidsBlanks (r : Run) : Bool :=
  blankCodes.all fun n => Nat.blt n r.low || Nat.blt r.high n

theorem Run.target_not_blank {r : Run} (hr : r ∈ runs) {n : Nat} (hn : r.covers n = true) :
    r.target n ∉ blankCodes := by
  have : runs.all Run.avoidsBlanks = true := by decide +kernel
  intro hmem
  have havoid := List.all_eq_true.1 (List.all_eq_true.1 this r hr) _ hmem
  obtain ⟨hlow, hhigh, -⟩ := Run.target_mem (isSound_of_mem hr) hn
  simp only [Bool.or_eq_true, Nat.blt_eq] at havoid
  omega

theorem isBlank_simple (c : Char) : isBlank (simple c) = isBlank c := by
  obtain hc | hc | ⟨r, hr, hcovers, hc⟩ := simple_cases c
  · exact @forall_ascii (fun c => isBlank (simple c) = isBlank c) (by decide +kernel) c hc
  · rw [hc]
  · have htarget : isBlank (simple c) = false := by
      refine Bool.eq_false_iff.2 fun h => Run.target_not_blank hr hcovers ?_
      rw [← toNat_ofNat_of_isSound (isSound_of_mem hr) hcovers, ← hc]
      exact toNat_mem_blankCodes h
    rw [htarget]
    refine (Bool.eq_false_iff.2 fun h => ?_).symm
    rw [(endsWord_of_isBlank h).1.1, h] at htarget
    cases htarget

/-- What a character becomes is as blank as the character. -/
theorem exists_rest_cons (b : Bool) (c : Char) (cs : List Char) : ∃ d ds b',
    rest b (c :: cs) = d :: ds ++ rest b' cs ∧ ∀ e ∈ d :: ds, isBlank e = isBlank c := by
  rw [rest]
  split
  · next h =>
    subst h
    exact ⟨_, [], _, rfl, List.forall_mem_singleton.2 (by split <;> decide)⟩
  · split
    · next h =>
      subst h
      exact ⟨_, [_], _, rfl, List.forall_mem_cons.2
        ⟨by decide, List.forall_mem_singleton.2 (by decide)⟩⟩
    · exact ⟨_, [], _, rfl, by simp [isBlank_simple]⟩

theorem rest_cons_of_isBlank (h : isBlank c = true) (cs : List Char) :
    rest b (c :: cs) = c :: rest false cs := by
  obtain ⟨⟨hsimple, hsigma, hdotted⟩, hcased, hignorable⟩ := endsWord_of_isBlank h
  simp [rest, hsimple, hsigma, hdotted, hcased, hignorable]

theorem letterFollows_concat (h : isBlank c = true) (cs : List Char) :
    letterFollows (cs ++ [c]) = letterFollows cs := by
  obtain ⟨-, hcased, hignorable⟩ := endsWord_of_isBlank h
  rw [letterFollows, letterFollows, List.dropWhile_append]
  cases cs.dropWhile isIgnorable with
  | nil => simp [hignorable, hcased]
  | cons d ds => rfl

theorem rest_concat_of_isBlank (h : isBlank c = true) (cs : List Char) :
    rest b (cs ++ [c]) = rest b cs ++ [c] := by
  induction cs generalizing b with
  | nil => exact rest_cons_of_isBlank h []
  | cons d cs ih =>
    simp only [List.cons_append, rest, letterFollows_concat h, ih, List.append_assoc]

theorem getLast?_rest (b : Bool) (cs : List Char) :
    (rest b cs).getLast?.map isBlank = cs.getLast?.map isBlank := by
  induction cs generalizing b with
  | nil => rfl
  | cons c cs ih =>
    obtain ⟨d, ds, b', hrest, hblank⟩ := exists_rest_cons b c cs
    have hlast : (d :: ds).getLast?.map isBlank = some (isBlank c) := by
      rw [List.getLast?_eq_some_getLast (List.cons_ne_nil d ds), Option.map_some,
        hblank _ (List.getLast_mem _)]
    rw [hrest, List.getLast?_append, Option.map_or, ih, hlast]
    show _ = ([c] ++ cs).getLast?.map isBlank
    rw [List.getLast?_append, Option.map_or]
    rfl

theorem head?_rest (b : Bool) (cs : List Char) :
    (rest b cs).head?.map isBlank = cs.head?.map isBlank := by
  cases cs with
  | nil => rfl
  | cons c cs =>
    obtain ⟨d, ds, b', hrest, hblank⟩ := exists_rest_cons b c cs
    rw [hrest]
    exact congrArg some (hblank d List.mem_cons_self)

theorem dropWhile_rest (cs : List Char) :
    (rest false cs).dropWhile isBlank = rest false (cs.dropWhile isBlank) := by
  induction cs with
  | nil => rfl
  | cons c cs ih =>
    by_cases hc : isBlank c = true
    · rw [rest_cons_of_isBlank hc, List.dropWhile_cons_of_pos hc, List.dropWhile_cons_of_pos hc, ih]
    · obtain ⟨d, ds, b', hrest, hblank⟩ := exists_rest_cons false c cs
      have hd : ¬ isBlank d = true := by rwa [hblank d List.mem_cons_self]
      rw [List.dropWhile_cons_of_neg hc, hrest, List.cons_append, List.dropWhile_cons_of_neg hd]

end Lowercase

open Lowercase

variable {cs : List Char} {c : Char}

theorem trimEnd_concat_of_isBlank (h : isBlank c = true) (cs : List Char) :
    trimEnd (cs ++ [c]) = trimEnd cs := List.rdropWhile_concat_pos isBlank cs c h

theorem dropWhile_eq_self_iff : cs.dropWhile isBlank = cs ↔ cs.head?.map isBlank ≠ some true := by
  cases cs with
  | nil => simp
  | cons c cs =>
    by_cases hc : isBlank c = true
    · have hlength : (cs.dropWhile isBlank).length ≤ cs.length :=
        (List.dropWhile_suffix isBlank).length_le
      rw [List.dropWhile_cons_of_pos hc]
      refine iff_of_false (fun h => ?_) (by simp [hc])
      rw [h, List.length_cons] at hlength
      omega
    · rw [List.dropWhile_cons_of_neg hc]
      exact iff_of_true rfl (by simpa using hc)

theorem trimEnd_eq_self_iff : trimEnd cs = cs ↔ cs.getLast?.map isBlank ≠ some true := by
  rw [trimEnd, List.reverse_eq_iff, dropWhile_eq_self_iff, List.head?_reverse]

/-- Trimming leaves a text alone if no blank stands at either end. -/
theorem trimChars_eq_self_iff : trimChars cs = cs
    ↔ cs.head?.map isBlank ≠ some true ∧ cs.getLast?.map isBlank ≠ some true := by
  rw [← dropWhile_eq_self_iff, ← trimEnd_eq_self_iff, trimChars]
  constructor
  · intro h
    have hprefix : trimEnd (cs.dropWhile isBlank) <+: cs.dropWhile isBlank :=
      List.rdropWhile_prefix isBlank _
    have hsuffix : cs.dropWhile isBlank <:+ cs := List.dropWhile_suffix isBlank
    have hlength := hprefix.length_le
    rw [h] at hlength
    have hdrop : cs.dropWhile isBlank = cs :=
      hsuffix.eq_of_length (Nat.le_antisymm hsuffix.length_le hlength)
    exact ⟨hdrop, by rwa [hdrop] at h⟩
  · rintro ⟨hdrop, hend⟩
    rw [hdrop, hend]

theorem trimEnd_rest (b : Bool) (cs : List Char) : trimEnd (rest b cs) = rest b (trimEnd cs) := by
  induction cs using List.reverseRecOn with
  | nil => rfl
  | append_singleton cs c ih =>
    by_cases hc : isBlank c = true
    · rw [rest_concat_of_isBlank hc, trimEnd_concat_of_isBlank hc, trimEnd_concat_of_isBlank hc, ih]
    · have hlast : (cs ++ [c]).getLast?.map isBlank ≠ some true := by simpa using hc
      rw [trimEnd_eq_self_iff.2 hlast, trimEnd_eq_self_iff.2]
      rwa [getLast?_rest]

theorem trimChars_rest (cs : List Char) :
    trimChars (rest false cs) = rest false (trimChars cs) := by
  rw [trimChars, dropWhile_rest, trimEnd_rest, trimChars]

/-- A text may be trimmed before or after it is lowercased. -/
theorem trim_lowercase (s : String) : trim (lowercase s) = lowercase (trim s) := by
  rw [← String.toList_inj, toList_trim, toList_lowercase, toList_lowercase, toList_trim,
    trimChars_rest]

/-- The blank at the end makes a word end before it. -/
example : trim (lowercase "ΟΔΟΣ ") = "οδος" := by decide +kernel

theorem trim_eq_self_iff {s : String} : trim s = s ↔ trimChars s.toList = s.toList := by
  rw [← String.toList_inj, toList_trim]

/-- A text has blanks at its ends in lowercase if it has them in its own spelling. -/
theorem trim_lowercase_eq_self_iff {s : String} :
    trim (lowercase s) = lowercase s ↔ trim s = s := by
  rw [trim_eq_self_iff, trim_eq_self_iff, toList_lowercase, trimChars_eq_self_iff,
    trimChars_eq_self_iff, head?_rest, getLast?_rest]

theorem trimChars_trimChars (cs : List Char) : trimChars (trimChars cs) = trimChars cs := by
  have hhead : (cs.dropWhile isBlank).head?.map isBlank ≠ some true :=
    dropWhile_eq_self_iff.1 (List.dropWhile_idempotent isBlank cs)
  have hlast : trimEnd (trimChars cs) = trimChars cs := List.rdropWhile_idempotent isBlank _
  refine trimChars_eq_self_iff.2 ⟨?_, trimEnd_eq_self_iff.1 hlast⟩
  -- What is left at the end of a text starts as the text does, if anything is left.
  obtain ⟨blanks, hprefix⟩ : trimChars cs <+: cs.dropWhile isBlank :=
    List.rdropWhile_prefix isBlank _
  cases htrim : trimChars cs with
  | nil => simp
  | cons c ds =>
    rw [← hprefix, htrim] at hhead
    exact hhead

@[simp] theorem trim_trim (s : String) : trim (trim s) = trim s := by
  rw [trim_eq_self_iff, toList_trim, trimChars_trimChars]

end TraceArchive.Text
