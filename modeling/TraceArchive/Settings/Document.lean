import TraceArchive.Settings
import TraceArchive.Text.Hex
import TraceArchive.Text.Split

set_option autoImplicit false

/-!
Settings documents, which are written in TOML. A document sets `strict_trace_id` and
`shard_amount`, each at most once, on a line of its own; what it does not set has its default.
All other tables and keys are refused, so of the format only lines with a truth value or an
integer have to be understood.
-/

namespace TraceArchive.Settings

open Text

inductive Entry where
  | strictTraceId (value : Bool)
  | shardAmount (value : Nat)
  deriving DecidableEq

namespace Entry

def strictTraceId? : Entry → Option Bool
  | .strictTraceId b => some b
  | .shardAmount _ => none

def shardAmount? : Entry → Option Nat
  | .strictTraceId _ => none
  | .shardAmount n => some n

end Entry

def isSpace (c : Char) : Bool := c = ' ' || c = '\t'

def isBare (c : Char) : Bool := c.isAlphanum || c = '_' || c = '-'

/-- Control characters are refused, also in comments. -/
def isPlain (c : Char) : Bool := c = '\t' || (0x20 ≤ c.toNat && c.toNat ≠ 0x7F)

def isApostrophe (c : Char) : Bool := c.toNat == 0x27

/-- The character with a number in hexadecimal digits. -/
def charOfHex? (digits : List Char) : Option Char :=
  let n := Hex.value digits
  if digits.all Hex.isDigit && decide (n.isValidChar) then some (Char.ofNat n) else none

/-- A key between quotation marks, and what stands behind it. Of the escapes only those by number
are read: all others denote characters that are in no key. -/
def escapedKey? : List Char → Option (List Char × List Char)
  | [] => none
  | '"' :: rest => some ([], rest)
  | '\\' :: 'u' :: a :: b :: c :: d :: rest => do
    let key ← escapedKey? rest
    return ((← charOfHex? [a, b, c, d]) :: key.1, key.2)
  | '\\' :: 'U' :: a :: b :: c :: d :: e :: f :: g :: h :: rest => do
    let key ← escapedKey? rest
    return ((← charOfHex? [a, b, c, d, e, f, g, h]) :: key.1, key.2)
  | c :: rest =>
    if c = '\\' then none else (escapedKey? rest).map fun key => (c :: key.1, key.2)

/-- The key at the beginning of a line, and what stands behind it. -/
def key? : List Char → Option (List Char × List Char)
  | [] => none
  | c :: cs =>
    if c = '"' then escapedKey? cs
    else if isApostrophe c then
      match cs.dropWhile (!isApostrophe ·) with
      | [] => none
      | _ :: rest => some (cs.takeWhile (!isApostrophe ·), rest)
    else some ((c :: cs).takeWhile isBare, (c :: cs).dropWhile isBare)

/-- Digits in groups, which underscores divide. -/
def grouped? (isDigit : Char → Bool) (cs : List Char) : Option (List Char) :=
  let groups := splitChar '_' cs
  if groups.all fun g => !g.isEmpty && g.all isDigit then some groups.flatten else none

def inBase (base : Nat) (digits : List Char) : Nat :=
  digits.foldl (fun n c => base * n + (Hex.digit? c).getD 0) 0

def isDigitIn (base : Nat) (c : Char) : Bool := (Hex.digit? c).any (· < base)

/-- A decimal number without needless zeros in front. -/
def decimal? (cs : List Char) : Option Nat := do
  let digits ← grouped? (isDigitIn 10) cs
  if digits.head? = some '0' && digits ≠ ['0'] then none else some (inBase 10 digits)

/-- An integer, which may have a sign if it is decimal. -/
def integer? : List Char → Option Int
  | '0' :: 'x' :: cs => (grouped? (isDigitIn 16) cs).map fun ds => (inBase 16 ds : Int)
  | '0' :: 'o' :: cs => (grouped? (isDigitIn 8) cs).map fun ds => (inBase 8 ds : Int)
  | '0' :: 'b' :: cs => (grouped? (isDigitIn 2) cs).map fun ds => (inBase 2 ds : Int)
  | '+' :: cs => (decimal? cs).map fun n => (n : Int)
  | '-' :: cs => (decimal? cs).map fun n => -(n : Int)
  | cs => (decimal? cs).map fun n => (n : Int)

def bool? (cs : List Char) : Option Bool :=
  if cs = "true".toList then some true
  else if cs = "false".toList then some false
  else none

/-- Integers are signed and have 64 bits; an amount is not negative. -/
def amount? (cs : List Char) : Option Nat := do
  let n ← integer? cs
  if 0 ≤ n ∧ n ≤ Int64.maxValue.toInt then some n.toNat else none

def settingOf? (key value : List Char) : Option Entry :=
  if key = "strict_trace_id".toList then (bool? value).map .strictTraceId
  else if key = "shard_amount".toList then (amount? value).map .shardAmount
  else none

/-- Nothing but blanks and a comment. -/
def isRemark (cs : List Char) : Bool :=
  match cs.dropWhile isSpace with
  | [] => true
  | c :: cs => c = '#' && cs.all isPlain

/-- What a line sets, which may be nothing. -/
def line? (cs : List Char) : Option (Option Entry) :=
  if isRemark cs then some none
  else do
    let (key, rest) ← key? (cs.dropWhile isSpace)
    match rest.dropWhile isSpace with
    | '=' :: rest =>
      let rest := rest.dropWhile isSpace
      let isValue := fun c => !isSpace c && c ≠ '#'
      if isRemark (rest.dropWhile isValue) then (settingOf? key (rest.takeWhile isValue)).map some
      else none
    | _ => none

/-- The lines of a document. A line may end in a carriage return, unless it is the last one. -/
def linesOf : List (List Char) → List (List Char)
  | [] => []
  | [last] => [last]
  | line :: more =>
    (if line.getLast? = some '\r' then line.dropLast else line) :: linesOf more

/-- A byte order mark may stand in front. -/
def withoutMark : List Char → List Char
  | [] => []
  | c :: cs => if c.toNat = 0xFEFF then cs else c :: cs

def entries? (text : String) : Option (List Entry) :=
  ((linesOf (splitChar '\n' (withoutMark text.toList))).mapM line?).map (·.filterMap id)

def ofDocument (text : String) : Except SettingsError Settings :=
  match entries? text with
  | none => .error .malformed
  | some entries =>
    let strict := entries.filterMap (·.strictTraceId?)
    let shards := entries.filterMap (·.shardAmount?)
    if strict.length ≤ 1 ∧ shards.length ≤ 1 then
      validate (strict.head?.getD true) (shards.head?.getD 16)
    else .error .malformed

/-- The settings in a file, whose contents are absent if it cannot be read. -/
def ofFile (contents : Option String) : Except SettingsError Settings :=
  match contents with
  | none => .error .unreadable
  | some text => ofDocument text

end TraceArchive.Settings
