import TraceArchive.Json
import TraceArchive.Text.Hex

set_option autoImplicit false

/-!
The tokens of JSON texts. Blanks are spaces, tabs and line ends; a number has no leading zeros;
a string has no control characters.
-/

namespace TraceArchive.Json

inductive Token where
  | openBrace
  | closeBrace
  | openBracket
  | closeBracket
  | comma
  | colon
  /-- A value without parts: a string, a number, a truth value or null. -/
  | scalar (value : Json)

namespace Token

def hex4? (a b c d : Char) : Option Nat :=
  if [a, b, c, d].all Text.Hex.isDigit then some (Text.Hex.value [a, b, c, d]) else none

def simpleEscape? : Char → Option Char
  | '"' => some '"'
  | '\\' => some '\\'
  | '/' => some '/'
  | 'b' => some '\x08'
  | 'f' => some '\x0c'
  | 'n' => some '\n'
  | 'r' => some '\r'
  | 't' => some '\t'
  | _ => none

def isHighSurrogate (n : Nat) : Bool := decide (0xD800 ≤ n) && decide (n < 0xDC00)

def isLowSurrogate (n : Nat) : Bool := decide (0xDC00 ≤ n) && decide (n < 0xE000)

def combine (high low : Nat) : Char :=
  Char.ofNat (0x10000 + (high - 0xD800) * 0x400 + (low - 0xDC00))

/-- The value of the second half of a surrogate pair, if one comes next. -/
def lowSurrogate? : List Char → Option Nat
  | '\\' :: 'u' :: a :: b :: c :: d :: _ => (hex4? a b c d).filter isLowSurrogate
  | _ => none

/-- The rest of a string, up to the quote that closes it. `seen` are the characters before it,
last one first, or `none` when half of a surrogate pair was among them. -/
def string? (seen : Option (List Char)) : List Char → Option (Json × List Char)
  | [] => none
  | '"' :: cs => some (((seen.map fun s => .string (String.ofList s.reverse)).getD .unreadable), cs)
  | '\\' :: 'u' :: a :: b :: c :: d :: cs =>
    match hex4? a b c d with
    | none => none
    | some n =>
      if isHighSurrogate n then
        match lowSurrogate? cs with
        | some low => string? (seen.map (combine n low :: ·)) (cs.drop 6)
        | none => string? none cs
      else if isLowSurrogate n then string? none cs
      else string? (seen.map (Char.ofNat n :: ·)) cs
  | '\\' :: e :: cs =>
    match simpleEscape? e with
    | some c => string? (seen.map (c :: ·)) cs
    | none => none
  | c :: cs => if c.toNat < 0x20 ∨ c = '\\' then none else string? (seen.map (c :: ·)) cs
termination_by cs => cs.length

theorem length_of_string? {seen : Option (List Char)} {cs rest : List Char} {j : Json}
    (h : string? seen cs = some (j, rest)) : rest.length < cs.length := by
  fun_induction string? seen cs <;> simp_all <;> grind

/-- Some digits and what comes after them. -/
def digits (cs : List Char) : List Char × List Char :=
  (cs.takeWhile Char.isDigit, cs.dropWhile Char.isDigit)

theorem length_digits (cs : List Char) :
    (digits cs).1.length + (digits cs).2.length = cs.length := by
  rw [digits, ← List.length_append, List.takeWhile_append_dropWhile]

/-- A dot and at least one digit, or nothing. -/
def fraction? : List Char → Option (List Char × List Char)
  | '.' :: cs => if (digits cs).1.isEmpty then none else some ('.' :: (digits cs).1, (digits cs).2)
  | cs => some ([], cs)

theorem length_fraction? {cs part rest : List Char} (h : fraction? cs = some (part, rest)) :
    rest.length ≤ cs.length := by
  unfold fraction? at h
  split at h
  next cs =>
    have := length_digits cs
    split at h <;> simp_all
    omega
  · simp_all

def sign : List Char → List Char × List Char
  | '+' :: cs => (['+'], cs)
  | '-' :: cs => (['-'], cs)
  | cs => ([], cs)

theorem length_sign (cs : List Char) : (sign cs).2.length ≤ cs.length := by
  fun_cases sign cs <;> simp

/-- A mark, perhaps a sign, and at least one digit, or nothing. -/
def exponent? : List Char → Option (List Char × List Char)
  | c :: cs =>
    if c = 'e' ∨ c = 'E' then
      let s := sign cs
      let d := digits s.2
      if d.1.isEmpty then none else some (c :: s.1 ++ d.1, d.2)
    else some ([], c :: cs)
  | [] => some ([], [])

theorem length_exponent? {cs part rest : List Char} (h : exponent? cs = some (part, rest)) :
    rest.length ≤ cs.length := by
  cases cs with
  | nil => simp [exponent?] at h; simp [h.2]
  | cons c cs =>
    have := length_sign cs
    have := length_digits (sign cs).2
    simp only [exponent?] at h
    split at h
    · split at h <;> simp_all; omega
    · simp_all

/-- Without a minus sign in front. -/
def unsigned (cs : List Char) : List Char := if cs.head? = some '-' then cs.drop 1 else cs

theorem length_unsigned (cs : List Char) : (unsigned cs).length ≤ cs.length := by
  unfold unsigned
  split <;> simp

/-- A number is natural unless it has a sign, a fraction or an exponent. -/
def number? (cs : List Char) : Option (Json × List Char) :=
  let whole := digits (unsigned cs)
  if whole.1 = [] ∨ whole.1.head? = some '0' ∧ whole.1.length ≠ 1 then none
  else
    (fraction? whole.2).bind fun fraction =>
    (exponent? fraction.2).map fun exponent =>
      let text := whole.1 ++ fraction.1 ++ exponent.1
      if cs.head? = some '-' then (.number (String.ofList ('-' :: text)), exponent.2)
      else if fraction.1 ≠ [] ∨ exponent.1 ≠ [] then (.number (String.ofList text), exponent.2)
      else (.natural (whole.1.foldl (fun n c => 10 * n + (c.toNat - 48)) 0), exponent.2)

theorem length_of_number? {cs rest : List Char} {j : Json} (h : number? cs = some (j, rest)) :
    rest.length < cs.length := by
  simp only [number?] at h
  split at h
  · cases h
  next hw =>
    obtain ⟨fraction, hf, h⟩ := Option.bind_eq_some_iff.1 h
    obtain ⟨exponent, he, h⟩ := Option.map_eq_some_iff.1 h
    have hrest : exponent.2 = rest := by split at h <;> (try split at h) <;> simp_all
    have hd := length_digits (unsigned cs)
    have hu := length_unsigned cs
    have h₁ := length_fraction? hf
    have h₂ := length_exponent? he
    have hpos := List.length_pos_iff.2 fun e => hw (Or.inl e)
    rw [← hrest]
    omega

/-- The token at the start of a text that does not start with a blank. -/
def next? : List Char → Option (Token × List Char)
  | '\x7b' :: cs => some (.openBrace, cs)
  | '\x7d' :: cs => some (.closeBrace, cs)
  | '[' :: cs => some (.openBracket, cs)
  | ']' :: cs => some (.closeBracket, cs)
  | ',' :: cs => some (.comma, cs)
  | ':' :: cs => some (.colon, cs)
  | '"' :: cs => (string? (some []) cs).map fun r => (.scalar r.1, r.2)
  | 't' :: 'r' :: 'u' :: 'e' :: cs => some (.scalar (.bool true), cs)
  | 'f' :: 'a' :: 'l' :: 's' :: 'e' :: cs => some (.scalar (.bool false), cs)
  | 'n' :: 'u' :: 'l' :: 'l' :: cs => some (.scalar .null, cs)
  | cs => (number? cs).map fun r => (.scalar r.1, r.2)

theorem length_of_next? {cs rest : List Char} {t : Token} (h : next? cs = some (t, rest)) :
    rest.length < cs.length := by
  unfold next? at h
  split at h <;> simp only [Option.some.injEq, Prod.mk.injEq, Option.map_eq_some_iff] at h
  case h_7 =>
    obtain ⟨r, hr, -, rfl⟩ := h
    have := length_of_string? hr
    simp; omega
  case h_11 =>
    obtain ⟨r, hr, -, rfl⟩ := h
    exact length_of_number? hr
  all_goals obtain ⟨-, rfl⟩ := h; simp <;> omega

def isBlank (c : Char) : Bool := c == ' ' || c == '\t' || c == '\n' || c == '\r'

/-- All tokens of a text. -/
def list? (cs : List Char) : Option (List Token) :=
  match _h : cs.dropWhile isBlank with
  | [] => some []
  | c :: rest =>
    match _hn : next? (c :: rest) with
    | none => none
    | some (token, after) => (list? after).map (token :: ·)
termination_by cs.length
decreasing_by
  have h₁ := length_of_next? _hn
  have h₂ := (List.dropWhile_suffix isBlank (l := cs)).length_le
  rw [_h] at h₂
  omega

end Token

end TraceArchive.Json
