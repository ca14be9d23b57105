import Mathlib.Algebra.Group.Nat.Defs
import TraceArchive.Text.Hex

set_option autoImplicit false

/-!
What written digits denote: `width` digits denote a number modulo `16 ^ width`.
-/

namespace TraceArchive.Text.Hex

theorem value_digits (width n : Nat) : value (digits width n) = n % 16 ^ width := by
  induction width generalizing n with
  | zero => simp [digits, value, Nat.mod_one]
  | succ width ih =>
    rw [digits, value_append_singleton, ih, digit?_digitChar (Nat.mod_lt _ (by decide)),
      Option.getD_some, Nat.pow_succ, Nat.mul_comm (16 ^ width), Nat.mod_mul]
    omega

end TraceArchive.Text.Hex
