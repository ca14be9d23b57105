import TraceArchive.Json
import TraceArchive.Text.Hex

set_option autoImplicit false

/-!
Writing JSON texts without blanks. Quotes, backslashes and control characters are escaped, all
other characters stand for themselves.
-/

namespace TraceArchive.Json

def escape (c : Char) : List Char :=
  match c with
  | '"' => ['\\', '"']
  | '\\' => ['\\', '\\']
  | '\n' => ['\\', 'n']
  | '\r' => ['\\', 'r']
  | '\t' => ['\\', 't']
  | c => if c.toNat < 0x20 then ['\\', 'u'] ++ Text.Hex.digits 4 c.toNat else [c]

def quote (s : String) : String := String.ofList ('"' :: s.toList.flatMap escape ++ ['"'])

mutual

/-- An unreadable value is written as null. -/
def toText : Json → String
  | .null => "null"
  | .bool true => "true"
  | .bool false => "false"
  | .natural n => n.repr
  | .number text => text
  | .string text => quote text
  | .array items => "[" ++ itemsText items ++ "]"
  | .object members => "\x7b" ++ membersText members ++ "\x7d"
  | .unreadable => "null"

def itemsText : List Json → String
  | [] => ""
  | [item] => toText item
  | item :: items => toText item ++ "," ++ itemsText items

def membersText : List (String × Json) → String
  | [] => ""
  | [(name, value)] => quote name ++ ":" ++ toText value
  | (name, value) :: members => quote name ++ ":" ++ toText value ++ "," ++ membersText members

end

end TraceArchive.Json
