import TokenLedger.Json.Basic
import TokenLedger.Number.Printer

/-!
# Values as plain text

How a value reads where a text is wanted: a string is itself, an array is its items with commas
between them, `null` items being empty, and all objects read alike.  An object with a member
`toString` hides how it reads: it has no text, and neither has an array that holds it.
-/

namespace TokenLedger.Json

mutual

/-- A value as plain text, if it has one. -/
def display? : Json → Option String
  | .null => some "null"
  | .bool b => some (if b then "true" else "false")
  | .num n => some n.toText
  | .str s => some s
  | .arr items => (displayItems? items).map fun texts => ",".intercalate texts
  | .obj members => if (find? "toString" members).isSome then none else some "[object Object]"

/-- Array items as plain texts, if all have one. -/
def displayItems? : List Json → Option (List String)
  | [] => some []
  | .null :: rest => (displayItems? rest).map ("" :: ·)
  | j :: rest => do
    let text ← j.display?
    let texts ← displayItems? rest
    some (text :: texts)

end

end TokenLedger.Json
