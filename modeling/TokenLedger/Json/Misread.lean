import TokenLedger.Number.Reader
import TokenLedger.Text.Units

/-!
# Texts that are no JSON

A text is misread at the first character that cannot stand in its place.  The wording says what is
wrong there, and either where it is, counted in UTF-16 units and in lines, or what stands around it.
-/

namespace TokenLedger.Json

/-! ### Defects -/

/-- What is wrong where reading stops. -/
inductive Defect
  /-- Nothing that can begin a value or go on with what is read. -/
  | unexpected
  | number (defect : Number.Defect)
  /-- A string that has no end. -/
  | openString
  | controlCharacter
  /-- An escape that spells nothing. -/
  | badEscape
  /-- An escape of a unit with fewer than four hexadecimal digits. -/
  | badUnit
  /-- Neither the end of an object nor its first name. -/
  | firstName
  /-- A comma in an object without a name behind it. -/
  | nextName
  | noColon
  /-- A member with neither a comma nor the end of the object behind it. -/
  | afterMember
  /-- An item with neither a comma nor the end of the array behind it. -/
  | afterItem
  /-- Something behind the value that should be the whole text. -/
  | afterValue
deriving Repr

/-- A text that is no JSON: why, what was read, and what stands where reading stopped. -/
structure Misread where
  defect : Defect
  before : List Char
  rest : List Char
deriving Repr

namespace Misread

/-! ### Places -/

/-- The line and the column behind a text, from those in front of it.  A carriage return and a line
feed in sequence end one line. -/
def place : (line column : Nat) → List Char → Nat × Nat
  | line, column, [] => (line, column)
  | line, _, '\r' :: '\n' :: rest => place (line + 1) 1 rest
  | line, column, c :: rest =>
    if c = '\n' ∨ c = '\r' then place (line + 1) 1 rest
    else place line (column + Text.charUnits c) rest

/-- A complaint about JSON with the place where reading stopped. -/
def located (m : Misread) (complaint : String) : String :=
  let (line, column) := place 1 1 m.before
  complaint ++ " JSON at position " ++ (Text.unitCount m.before).repr ++
    " (line " ++ line.repr ++ " column " ++ column.repr ++ ")"

/-! ### Surroundings -/

/-- A text between quotation marks, as it is. -/
def quoted (cs : List Char) : String := "\"" ++ String.ofList cs ++ "\""

/-- So many units are shown on each side of a place. -/
def contextUnits : Nat := 10

/-- The text around the place; a short text is shown whole. -/
def surroundings (m : Misread) : String :=
  let text := m.before ++ m.rest
  let position := Text.unitCount m.before
  let size := Text.unitCount text
  if size ≤ 2 * contextUnits then quoted text
  else if position < contextUnits then
    quoted (Text.takeUnits (position + contextUnits) text) ++ "..."
  else
    let shown := Text.dropUnits (position - contextUnits) m.before
    if position + contextUnits < size then
      "..." ++ quoted (shown ++ Text.takeUnits contextUnits m.rest) ++ "..."
    else "..." ++ quoted (shown ++ m.rest)

/-- Names of things that have no JSON text; they are shown alone. -/
def placeholders : List String := ["[object Object]", "NaN", "Infinity", "undefined"]

/-! ### Wording -/

/-- The wording where no character, or one that begins nothing, is in place. -/
def unexpectedMessage (m : Misread) : String :=
  match m.rest with
  | [] => "Unexpected end of JSON input"
  | c :: _ =>
    if c = '"' then m.located "Unexpected string in"
    else if c.isDigit || c == '-' then m.located "Unexpected number in"
    else if placeholders.contains (String.ofList (m.before ++ m.rest)) then
      quoted (m.before ++ m.rest) ++ " is not valid JSON"
    else "Unexpected token '" ++ c.toString ++ "', " ++ m.surroundings ++ " is not valid JSON"

/-- The wording of a misread text. -/
def message (m : Misread) : String :=
  match m.defect with
  | .unexpected => m.unexpectedMessage
  | .number .noWhole => m.located "No number after minus sign in"
  | .number .leadingZero => m.located "Unexpected number in"
  | .number .noFraction => m.located "Unterminated fractional number in"
  | .number .noExponent => m.located "Exponent part is missing a number in"
  | .openString => m.located "Unterminated string in"
  | .controlCharacter => m.located "Bad control character in string literal in"
  | .badEscape => m.located "Bad escaped character in"
  | .badUnit => m.located "Bad Unicode escape in"
  | .firstName => m.located "Expected property name or '\x7d' in"
  | .nextName => m.located "Expected double-quoted property name in"
  | .noColon => m.located "Expected ':' after property name in"
  | .afterMember => m.located "Expected ',' or '\x7d' after property value in"
  | .afterItem => m.located "Expected ',' or ']' after array element in"
  | .afterValue => m.located "Unexpected non-whitespace character after"

end Misread

end TokenLedger.Json
