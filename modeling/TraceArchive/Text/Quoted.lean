import TraceArchive.Text.Hex
import TraceArchive.Text.Quoted.Table

set_option autoImplicit false

/-!
Texts in double quotes, as error messages show them: quotes, backslashes and characters without
a picture of their own are escaped, so that a reader sees every character.
-/

namespace TraceArchive.Text

namespace Quoted

def hasPicture (c : Char) : Bool :=
  let n := c.toNat
  if n < 128 then decide (0x20 ≤ n) && decide (n < 0x7F)
  else !pictureless.any fun r => decide (r.1 ≤ n) && decide (n ≤ r.2)

/-- The code point in braces, without leading zeros. -/
def escape (c : Char) : List Char :=
  ['\\', 'u', '\x7b'] ++ Nat.toDigits 16 c.toNat ++ ['\x7d']

def character (c : Char) : List Char :=
  match c with
  | '"' => ['\\', '"']
  | '\\' => ['\\', '\\']
  | '\n' => ['\\', 'n']
  | '\r' => ['\\', 'r']
  | '\t' => ['\\', 't']
  | '\x00' => ['\\', '0']
  | c => if hasPicture c then [c] else escape c

end Quoted

def quoted (s : String) : String :=
  String.ofList ('"' :: s.toList.flatMap Quoted.character ++ ['"'])

end TraceArchive.Text
