import TokenLedger.Bytes
import TokenLedger.Json.Basic
import TokenLedger.Number.Printer

/-!
# JSON text

Values are written without blanks.  In strings a quotation mark, a backslash and the control
characters are escaped and nothing else; an infinite number is written `null`.
-/

namespace TokenLedger.Json

/-- A character as it stands in a JSON string. -/
def escape (c : Char) : List Char :=
  if c = '"' then ['\\', '"']
  else if c = '\\' then ['\\', '\\']
  else if c = '\n' then ['\\', 'n']
  else if c = '\r' then ['\\', 'r']
  else if c = '\t' then ['\\', 't']
  else if c.toNat = 8 then ['\\', 'b']
  else if c.toNat = 12 then ['\\', 'f']
  else if c.toNat < 32 then
    ['\\', 'u', '0', '0', Bytes.hexDigit (c.toNat / 16), Bytes.hexDigit (c.toNat % 16)]
  else [c]

/-- A quoted string. -/
def quoted (s : String) : List Char := '"' :: (s.toList.flatMap escape ++ ['"'])

/-- A number as it stands in JSON text. -/
def numeral : Number → List Char
  | .finite q => (Number.toText (.finite q)).toList
  | .infinite _ => "null".toList

mutual

/-- The text of a value. -/
def chars : Json → List Char
  | .null => "null".toList
  | .bool true => "true".toList
  | .bool false => "false".toList
  | .num n => numeral n
  | .str s => quoted s
  | .arr items => '[' :: (itemsChars items ++ [']'])
  | .obj members => '\x7b' :: (membersChars members ++ ['\x7d'])

/-- The texts of array items, separated by commas. -/
def itemsChars : List Json → List Char
  | [] => []
  | [j] => chars j
  | j :: k :: rest => chars j ++ ',' :: itemsChars (k :: rest)

/-- The texts of object members, separated by commas. -/
def membersChars : List (String × Json) → List Char
  | [] => []
  | [(name, j)] => quoted name ++ ':' :: chars j
  | (name, j) :: m :: rest => quoted name ++ ':' :: (chars j ++ ',' :: membersChars (m :: rest))

end

/-- The text of a value. -/
def toText (j : Json) : String := String.ofList (chars j)

end TokenLedger.Json
