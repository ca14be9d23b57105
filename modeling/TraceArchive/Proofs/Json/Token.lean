import Mathlib.Data.List.TakeWhile
import TraceArchive.Json.Printer
import TraceArchive.Json.Token
import TraceArchive.Proofs.Text.Hex

set_option autoImplicit false

/-!
The tokens of written JSON. A string ends at the quote that was written behind it, since no quote in
it stands without a backslash; a number ends where no digit and no mark of a longer number follows.
-/

namespace TraceArchive.Json.Token

open Text

/-! Strings. -/

/-- The code of a character that is no half of a surrogate pair. -/
theorem string?_code {n : Nat} (h : n < 0xD800) (seen cs : List Char) :
    string? (some seen) ('\\' :: 'u' :: Hex.digits 4 n ++ cs)
      = string? (some (Char.ofNat n :: seen)) cs := by
  obtain ⟨w, x, y, z, hdigits⟩ : ∃ w x y z, Hex.digits 4 n = [w, x, y, z] := ⟨_, _, _, _, rfl⟩
  have hall : [w, x, y, z].all Hex.isDigit = true :=
    List.all_eq_true.2 fun _ hc => Hex.isDigit_of_mem_digits (hdigits ▸ hc)
  have hread : hex4? w x y z = some n := by
    rw [hex4?, if_pos hall, ← hdigits, Hex.value_digits, Nat.mod_eq_of_lt (by omega)]
  have hhigh : isHighSurrogate n = false := by
    simp [isHighSurrogate]
    omega
  have hlow : isLowSurrogate n = false := by
    simp [isLowSurrogate]
    omega
  simp [hdigits, string?, hread, hhigh, hlow]

theorem string?_plain {c : Char} (hquote : c ≠ '"') (hescape : c ≠ '\\') (hc : ¬c.toNat < 0x20)
    (seen cs : List Char) : string? (some seen) (c :: cs) = string? (some (c :: seen)) cs := by
  rw [string?, if_neg (not_or_intro hc hescape)]
  · rfl
  · exact hquote
  · exact fun _ _ _ _ _ h _ => hescape h
  · exact fun _ _ h _ => hescape h

theorem string?_escape (seen : List Char) (c : Char) (cs : List Char) :
    string? (some seen) (escape c ++ cs) = string? (some (c :: seen)) cs := by
  unfold escape
  split
  case h_6 hquote hescape _ _ _ =>
    split
    · next hc =>
      have hcode := string?_code (n := c.toNat) (by omega) seen cs
      rw [Char.ofNat_toNat] at hcode
      exact hcode
    · next hc => exact string?_plain hquote hescape hc seen cs
  all_goals simp [string?, simpleEscape?]

theorem string?_flatMap_escape (seen cs rest : List Char) :
    string? (some seen) (cs.flatMap escape ++ '"' :: rest)
      = some (.string (String.ofList (seen.reverse ++ cs)), rest) := by
  induction cs generalizing seen with
  | nil => simp [string?]
  | cons c cs ih =>
    rw [List.flatMap_cons, List.append_assoc, string?_escape, ih, List.reverse_cons,
      List.append_assoc, List.singleton_append]

theorem next?_quote (s : String) (rest : List Char) :
    next? ((quote s).toList ++ rest) = some (.scalar (.string s), rest) := by
  have hread := string?_flatMap_escape [] s.toList rest
  simp [quote, next?, hread]

/-! Numbers. -/

/-- What comes next is no part of a number. -/
def EndsNumber (cs : List Char) : Prop :=
  ∀ c ∈ cs.head?, c.isDigit = false ∧ c ≠ '.' ∧ c ≠ 'e' ∧ c ≠ 'E'

theorem endsNumber_nil : EndsNumber [] := nofun

theorem endsNumber_cons {c : Char} (h : c.isDigit = false ∧ c ≠ '.' ∧ c ≠ 'e' ∧ c ≠ 'E')
    (cs : List Char) : EndsNumber (c :: cs) := by
  intro d hd
  obtain rfl := Option.some.inj hd
  exact h

theorem isDigit_of_mem_toDigits {n : Nat} {c : Char} (h : c ∈ Nat.toDigits 10 n) :
    c.isDigit = true :=
  Nat.isDigit_of_mem_toDigits (by decide) (by decide) h

theorem head?_toDigits_ne_zero {n : Nat} (h : n ≠ 0) : (Nat.toDigits 10 n).head? ≠ some '0' := by
  induction n using Nat.strongRecOn with
  | ind n ih =>
    rw [Nat.toDigits_eq_if (by decide)]
    split
    · next hn =>
      have hsmall : ∀ i : Fin 10, i.val ≠ 0 → [Nat.digitChar i.val].head? ≠ some '0' := by decide
      exact hsmall ⟨n, hn⟩ h
    · next hn =>
      rw [List.head?_append_of_ne_nil _ Nat.toDigits_ne_nil]
      exact ih (n / 10) (by omega) (by omega)

/-- No other token starts with a digit. -/
theorem next?_of_isDigit {d : Char} (hd : d.isDigit = true) (cs : List Char) :
    next? (d :: cs) = (number? (d :: cs)).map fun r => (.scalar r.1, r.2) := by
  unfold next?
  split
  case h_11 => rfl
  all_goals
    next htext =>
      obtain ⟨rfl, -⟩ := List.cons.inj htext
      exact absurd hd (by decide)

section

variable {rest : List Char} (h : EndsNumber rest)

include h

theorem digits_append {cs : List Char} (hcs : ∀ c ∈ cs, c.isDigit = true) :
    digits (cs ++ rest) = (cs, rest) := by
  have hrest : rest.takeWhile Char.isDigit = [] ∧ rest.dropWhile Char.isDigit = rest := by
    cases rest with
    | nil => exact ⟨rfl, rfl⟩
    | cons c rest => simp [(h c rfl).1]
  rw [digits, List.takeWhile_append_of_pos hcs, List.dropWhile_append_of_pos hcs, hrest.1, hrest.2,
    List.append_nil]

theorem fraction?_eq_nil : fraction? rest = some ([], rest) := by
  cases rest with
  | nil => rfl
  | cons c rest =>
    rw [fraction?]
    exact fun _ hc => (h c rfl).2.1 (List.cons.inj hc).1

theorem exponent?_eq_nil : exponent? rest = some ([], rest) := by
  cases rest with
  | nil => rfl
  | cons c rest => exact if_neg (not_or_intro (h c rfl).2.2.1 (h c rfl).2.2.2)

theorem number?_toDigits (n : Nat) :
    number? (Nat.toDigits 10 n ++ rest) = some (.natural n, rest) := by
  have hsign : (Nat.toDigits 10 n ++ rest).head? ≠ some '-' := by
    rw [List.head?_append_of_ne_nil _ Nat.toDigits_ne_nil]
    intro hhead
    exact absurd (isDigit_of_mem_toDigits (List.mem_of_head? hhead)) (by decide)
  have hunsigned : unsigned (Nat.toDigits 10 n ++ rest) = Nat.toDigits 10 n ++ rest :=
    if_neg hsign
  have hzero : ¬(Nat.toDigits 10 n = [] ∨
      (Nat.toDigits 10 n).head? = some '0' ∧ (Nat.toDigits 10 n).length ≠ 1) := by
    rintro (hnil | ⟨hhead, hlength⟩)
    · exact Nat.toDigits_ne_nil hnil
    · by_cases hn : n = 0
      · subst hn
        exact hlength rfl
      · exact head?_toDigits_ne_zero hn hhead
  have hvalue : (Nat.toDigits 10 n).foldl (fun n c => 10 * n + (c.toNat - 48)) 0 = n :=
    Nat.ofDigitChars_toDigits (by decide) (by decide)
  simp only [number?, hunsigned, digits_append h fun _ => isDigit_of_mem_toDigits]
  rw [if_neg hzero, fraction?_eq_nil h, Option.bind_some, exponent?_eq_nil h, Option.map_some,
    if_neg hsign, hvalue]
  rfl

theorem next?_repr (n : Nat) :
    next? (n.repr.toList ++ rest) = some (.scalar (.natural n), rest) := by
  have hnumber := number?_toDigits h n
  rw [Nat.repr_eq_ofList_toDigits, String.toList_ofList]
  cases hdigits : Nat.toDigits 10 n with
  | nil => exact absurd hdigits Nat.toDigits_ne_nil
  | cons d ds =>
    have hd : d.isDigit = true := isDigit_of_mem_toDigits (hdigits ▸ List.mem_cons_self)
    rw [hdigits] at hnumber
    rw [List.cons_append] at hnumber ⊢
    rw [next?_of_isDigit hd, hnumber]
    rfl

end

/-! Texts. -/

theorem next?_of_isBlank {c : Char} (h : isBlank c = true) (cs : List Char) :
    next? (c :: cs) = none := by
  simp only [isBlank, Bool.or_eq_true, beq_iff_eq] at h
  rcases h with ((rfl | rfl) | rfl) | rfl <;> simp [next?, number?, unsigned, digits, Char.isDigit]

theorem list?_eq {cs after : List Char} {t : Token} (h : next? cs = some (t, after)) :
    list? cs = (list? after).map (t :: ·) := by
  cases cs with
  | nil => simp [next?, number?, unsigned, digits] at h
  | cons c cs =>
    have hblank : ¬isBlank c = true := by
      intro hblank
      rw [next?_of_isBlank hblank] at h
      cases h
    have hdrop : (c :: cs).dropWhile isBlank = c :: cs := List.dropWhile_cons_of_neg hblank
    rw [list?]
    split
    · simp_all
    · next hc =>
      rw [hdrop] at hc
      obtain ⟨rfl, rfl⟩ := List.cons.inj hc
      split <;> simp_all

end TraceArchive.Json.Token
