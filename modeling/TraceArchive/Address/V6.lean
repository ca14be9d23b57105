import TraceArchive.Text.Hex
import TraceArchive.Address.V4

set_option autoImplicit false

/-!
Version 6 internet addresses. Any textual form is read: groups of up to four digits, `::` for
one or more zero groups, the last two groups in dotted decimal. The canonical form is written:
no leading zeros, the first longest run of zero groups as `::`, addresses that stand for a
version 4 address with that address in dotted decimal.
-/

namespace TraceArchive.Address

structure V6 where
  groups : Vector UInt16 8
  deriving DecidableEq

namespace V6

instance : Ord V6 := ⟨compareOn groups⟩

instance : Std.TransOrd V6 := inferInstanceAs (Std.TransCmp (compareOn groups))

instance : Std.LawfulEqOrd V6 where
  eq_of_compare {a b} h := by
    have : compare a.groups b.groups = .eq := h
    have : a.groups = b.groups := Std.LawfulEqCmp.eq_of_compare this
    cases a; cases b; simp_all

def group? (cs : List Char) : Option UInt16 :=
  if cs ≠ [] ∧ cs.length ≤ 4 ∧ cs.all Text.Hex.isDigit then
    some (UInt16.ofNat (Text.Hex.value cs))
  else none

def pair (high low : UInt8) : UInt16 := UInt16.ofNat (256 * high.toNat + low.toNat)

/-- The last part may be a version 4 address, which makes two groups. -/
def groups? : List (List Char) → Option (List UInt16)
  | [] => some []
  | [last] =>
    match V4.ofChars? last with
    | some a => some [pair a.octets[0] a.octets[1], pair a.octets[2] a.octets[3]]
    | none => (group? last).map ([·])
  | part :: parts => do return (← group? part) :: (← groups? parts)

def parts (cs : List Char) : List (List Char) :=
  if cs.isEmpty then [] else Text.splitChar ':' cs

def ofGroups? (groups : List UInt16) : Option V6 :=
  if h : groups.length = 8 then some ⟨⟨groups.toArray, by simpa using h⟩⟩ else none

def ofString? (s : String) : Option V6 :=
  match Text.cut? [':', ':'] s.toList with
  | none => groups? (parts s.toList) >>= ofGroups?
  | some (before, after) => do
    let head ← (parts before).mapM group?
    let tail ← groups? (parts after)
    if head.length + tail.length ≤ 7 then
      ofGroups? (head ++ List.replicate (8 - head.length - tail.length) 0 ++ tail)
    else none

/-- The version 4 address that the address stands for. -/
def mapped? (a : V6) : Option V4 :=
  match a.groups.toList with
  | [0, 0, 0, 0, 0, 0xFFFF, high, low] =>
    some ⟨#v[UInt8.ofNat (high.toNat / 256), UInt8.ofNat (high.toNat % 256),
      UInt8.ofNat (low.toNat / 256), UInt8.ofNat (low.toNat % 256)]⟩
  | _ => none

/-- Where the first longest run of zeros starts, and its length. -/
def zeroRun (groups : List UInt16) : Nat × Nat :=
  (List.range groups.length).foldl (fun best start =>
    let run := ((groups.drop start).takeWhile (· == 0)).length
    if best.2 < run then (start, run) else best) (0, 0)

def join (groups : List UInt16) : String :=
  String.intercalate ":" (groups.map fun g => String.ofList (Nat.toDigits 16 g.toNat))

def toString (a : V6) : String :=
  match a.mapped? with
  | some v4 => "::ffff:" ++ v4.toString
  | none =>
    let groups := a.groups.toList
    let (start, run) := zeroRun groups
    if run < 2 then join groups
    else join (groups.take start) ++ "::" ++ join (groups.drop (start + run))

end V6

end TraceArchive.Address
