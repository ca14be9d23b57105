set_option autoImplicit false

/-!
Hexadecimal numbers: digits of either case are read, lowercase digits are written.
-/

namespace TraceArchive.Text.Hex

/-- The value of one digit. -/
def digit? (c : Char) : Option Nat :=
  if '0' ≤ c ∧ c ≤ '9' then some (c.toNat - 48)
  else if 'a' ≤ c ∧ c ≤ 'f' then some (c.toNat - 87)
  else if 'A' ≤ c ∧ c ≤ 'F' then some (c.toNat - 55)
  else none

def isDigit (c : Char) : Bool := (digit? c).isSome

/-- The number that digits denote, most significant digit first. -/
def value (cs : List Char) : Nat := cs.foldl (fun n c => 16 * n + (digit? c).getD 0) 0

/-- The last `width` digits of a number, most significant first. -/
def digits : (width n : Nat) → List Char
  | 0, _ => []
  | width + 1, n => digits width (n / 16) ++ [Nat.digitChar (n % 16)]

@[simp] theorem length_digits (width n : Nat) : (digits width n).length = width := by
  induction width generalizing n with
  | zero => rfl
  | succ width ih => simp [digits, ih]

theorem value_append_singleton (cs : List Char) (c : Char) :
    value (cs ++ [c]) = 16 * value cs + (digit? c).getD 0 := by
  simp [value]

theorem digit?_digitChar {n : Nat} (h : n < 16) : digit? (Nat.digitChar n) = some n := by
  have : ∀ i : Fin 16, digit? (Nat.digitChar i.val) = some i.val := by decide
  exact this ⟨n, h⟩

end TraceArchive.Text.Hex
