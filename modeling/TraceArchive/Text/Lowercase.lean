import TraceArchive.Text.Lowercase.Table

set_option autoImplicit false

/-!
Lowercase texts. Most characters are lowercased one by one; `İ` becomes two characters, and a
capital sigma becomes the final form `ς` at the end of a word, which is where a letter stands
before it and none after it, case-ignorable characters apart.
-/

namespace TraceArchive.Text

namespace Lowercase

def within (ranges : List (Nat × Nat)) (n : Nat) : Bool :=
  ranges.any fun r => decide (r.1 ≤ n) && decide (n ≤ r.2)

def isCased (c : Char) : Bool := c.isAlpha || (c.toNat ≥ 128 && within casedRanges c.toNat)

def isIgnorable (c : Char) : Bool :=
  c.toNat == 0x27 || c == '.' || c == ':' || c == '^' || c.toNat == 0x60
    || (c.toNat ≥ 128 && within ignorableRanges c.toNat)

/-- The simple mapping of one character. -/
def simple (c : Char) : Char :=
  if c.toNat < 128 then c.toLower
  else match runs.find? (·.covers c.toNat) with
    | some r => Char.ofNat (c.toNat + r.shift).toNat
    | none => c

/-- Whether the next character that counts is a letter. -/
def letterFollows (cs : List Char) : Bool :=
  match cs.dropWhile isIgnorable with
  | [] => false
  | c :: _ => isCased c

/-- Lowercases the rest of a text; `letterBefore` tells whether a letter stands before it. -/
def rest (letterBefore : Bool) : List Char → List Char
  | [] => []
  | c :: cs =>
    let lower :=
      if c = 'Σ' then [if letterBefore && !letterFollows cs then 'ς' else 'σ']
      else if c = 'İ' then ['i', Char.ofNat 0x307]
      else [simple c]
    lower ++ rest (if isIgnorable c then letterBefore else isCased c) cs

end Lowercase

def lowercase (s : String) : String := String.ofList (Lowercase.rest false s.toList)

@[simp] theorem toList_lowercase (s : String) :
    (lowercase s).toList = Lowercase.rest false s.toList := by
  simp [lowercase]

theorem lowercase_eq_empty_iff {s : String} : lowercase s = "" ↔ s = "" := by
  simp only [← String.toList_inj, toList_lowercase, String.toList_empty]
  cases s.toList with
  | nil => simp [Lowercase.rest]
  | cons c cs => simp only [Lowercase.rest]; split <;> (try split) <;> simp

end TraceArchive.Text
