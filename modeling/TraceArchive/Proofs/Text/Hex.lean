import Mathlib.Data.Nat.Digits.Lemmas
import TraceArchive.Proofs.Text.Lowercase
import TraceArchive.Text.Hex.Value

set_option autoImplicit false

/-!
What hexadecimal digits denote. The sixteen digits stand for their places among each other, in
lowercase and in uppercase, and a text of digits denotes the number that has them in base sixteen.
-/

namespace TraceArchive.Text.Hex

def lowercaseDigits : List Char := "0123456789abcdef".toList

def uppercaseDigits : List Char := "0123456789ABCDEF".toList

/-- A character is the digit for a number, in one case or the other. -/
def StandsFor (c : Char) (n : Nat) : Prop :=
  lowercaseDigits[n]? = some c ∨ uppercaseDigits[n]? = some c

instance (c : Char) (n : Nat) : Decidable (StandsFor c n) :=
  inferInstanceAs (Decidable (_ ∨ _))

/-- Digits, the most significant one first, denote a number. -/
def Denotes (cs : List Char) (n : Nat) : Prop :=
  ∃ ds : List Nat, List.Forall₂ StandsFor cs ds ∧ Nat.ofDigits 16 ds.reverse = n

theorem StandsFor.lt {c : Char} {n : Nat} (h : StandsFor c n) : n < 16 := by
  rcases h with h | h
  · exact (List.getElem?_eq_some_iff.1 h).1
  · exact (List.getElem?_eq_some_iff.1 h).1

theorem digit?_of_standsFor {c : Char} {n : Nat} (h : StandsFor c n) : digit? c = some n := by
  have hlower : ∀ i : Fin 16, lowercaseDigits[i.val]?.map digit? = some (some i.val) := by decide
  have hupper : ∀ i : Fin 16, uppercaseDigits[i.val]?.map digit? = some (some i.val) := by decide
  rcases h with hc | hc
  · simpa [hc] using hlower ⟨n, StandsFor.lt (.inl hc)⟩
  · simpa [hc] using hupper ⟨n, StandsFor.lt (.inr hc)⟩

theorem lt_of_isDigit {c : Char} (h : isDigit c = true) : c.toNat < 128 := by
  simp only [isDigit, digit?, Char.le_def, UInt32.le_iff_toNat_le] at h
  change c.val.toNat < 128
  repeat' split at h
  all_goals simp_all
  all_goals omega

theorem standsFor_of_digit? {c : Char} {n : Nat} (h : digit? c = some n) : StandsFor c n := by
  have hc : c.toNat < 128 := lt_of_isDigit (by rw [isDigit, h]; rfl)
  revert h
  refine Lowercase.forall_ascii (p := fun c => digit? c = some n → StandsFor c n) ?_ hc
  have hdigits : ∀ m ∈ List.range 128, ∀ i ∈ digit? (Char.ofNat m), StandsFor (Char.ofNat m) i := by
    decide +kernel
  exact fun m hm h => hdigits m hm n h

theorem digit?_eq_some_iff {c : Char} {n : Nat} : digit? c = some n ↔ StandsFor c n :=
  ⟨standsFor_of_digit?, digit?_of_standsFor⟩

theorem isDigit_iff {c : Char} : isDigit c = true ↔ ∃ n, StandsFor c n := by
  rw [isDigit, Option.isSome_iff_exists]
  simp only [digit?_eq_some_iff]

/-! The number of a text of digits. -/

theorem value_append (cs ds : List Char) :
    value (cs ++ ds) = 16 ^ ds.length * value cs + value ds := by
  induction ds using List.reverseRecOn with
  | nil => simp [value]
  | append_singleton ds d ih =>
    rw [← List.append_assoc, value_append_singleton, value_append_singleton, ih,
      List.length_append, List.length_singleton, Nat.pow_succ]
    ring

theorem value_eq_ofDigits {cs : List Char} {ds : List Nat} (h : List.Forall₂ StandsFor cs ds) :
    value cs = Nat.ofDigits 16 ds.reverse := by
  induction h with
  | nil => rfl
  | @cons c d cs ds hcd hrest ih =>
    have hc : value [c] = d := by simp [value, digit?_of_standsFor hcd]
    rw [← List.singleton_append, value_append, ih, hc, Nat.ofDigits_reverse_cons,
      hrest.length_eq, Nat.add_comm]

theorem denotes_value {cs : List Char} (h : ∀ c ∈ cs, isDigit c = true) :
    Denotes cs (value cs) := by
  have hdigits : ∃ ds, List.Forall₂ StandsFor cs ds := by
    induction cs with
    | nil => exact ⟨[], .nil⟩
    | cons c cs ih =>
      obtain ⟨d, hd⟩ := isDigit_iff.1 (h c List.mem_cons_self)
      obtain ⟨ds, hds⟩ := ih fun c hc => h c (List.mem_cons_of_mem _ hc)
      exact ⟨d :: ds, .cons hd hds⟩
  obtain ⟨ds, hds⟩ := hdigits
  exact ⟨ds, hds, (value_eq_ofDigits hds).symm⟩

theorem Denotes.eq_value {cs : List Char} {n : Nat} (h : Denotes cs n) : n = value cs := by
  obtain ⟨ds, hds, rfl⟩ := h
  exact (value_eq_ofDigits hds).symm

theorem value_lt {cs : List Char} (h : ∀ c ∈ cs, isDigit c = true) :
    value cs < 16 ^ cs.length := by
  obtain ⟨ds, hds, hvalue⟩ := denotes_value h
  have hsmall : ∀ d ∈ ds.reverse, d < 16 := by
    intro d hd
    obtain ⟨i, hi, rfl⟩ := List.getElem_of_mem (List.mem_reverse.1 hd)
    exact (List.Forall₂.get hds (hds.length_eq ▸ hi) hi).lt
  rw [← hvalue, hds.length_eq, ← List.length_reverse]
  exact Nat.ofDigits_lt_base_pow_length (by decide) hsmall

theorem isDigit_digitChar {n : Nat} (h : n < 16) : isDigit (Nat.digitChar n) = true := by
  rw [isDigit, digit?_digitChar h]
  rfl

theorem isDigit_of_mem_digits {width n : Nat} {c : Char} (h : c ∈ digits width n) :
    isDigit c = true := by
  induction width generalizing n with
  | zero => cases h
  | succ width ih =>
    rcases List.mem_append.1 h with h | h
    · exact ih h
    · rw [List.mem_singleton.1 h]
      exact isDigit_digitChar (Nat.mod_lt _ (by decide))

/-! Digits without leading zeros. -/

theorem value_toDigits (n : Nat) : value (Nat.toDigits 16 n) = n := by
  induction n using Nat.strongRecOn with
  | ind n ih =>
    rw [Nat.toDigits_eq_if (by decide)]
    split
    · next hn => simp [value, digit?_digitChar hn]
    · next hn =>
      rw [value_append_singleton, ih (n / 16) (by omega),
        digit?_digitChar (Nat.mod_lt _ (by decide)), Option.getD_some]
      omega

theorem isDigit_of_mem_toDigits {n : Nat} {c : Char} (h : c ∈ Nat.toDigits 16 n) :
    isDigit c = true := by
  induction n using Nat.strongRecOn with
  | ind n ih =>
    rw [Nat.toDigits_eq_if (by decide)] at h
    split at h
    · next hn =>
      rw [List.mem_singleton.1 h]
      exact isDigit_digitChar hn
    · next hn =>
      rcases List.mem_append.1 h with h | h
      · exact ih (n / 16) (by omega) h
      · rw [List.mem_singleton.1 h]
        exact isDigit_digitChar (Nat.mod_lt _ (by decide))

end TraceArchive.Text.Hex
