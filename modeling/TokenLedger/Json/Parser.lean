import TokenLedger.Bytes
import TokenLedger.Json.Basic
import TokenLedger.Json.Misread

/-!
# Reading JSON text

The strict grammar: blanks are space, tab, line feed and carriage return; no trailing commas, no
comments, no byte-order mark.  Escapes spell UTF-16 units; a high and a low surrogate in sequence
are one character.  A text that is no JSON is refused at the first character that cannot stand in
its place.

Texts hold Unicode scalar values only.  A reader whose texts are sequences of UTF-16 units keeps an
escaped surrogate that has no partner; here such an escape is read as the replacement character
U+FFFD, which is also what UTF-8 makes of it when the text is written to bytes.
-/

namespace TokenLedger.Json

/-- Where reading stops: why, and the text from there on. -/
structure Stop where
  defect : Defect
  rest : List Char

/-! ### Strings -/

/-- Whether a UTF-16 unit is the first of a pair. -/
def isHighSurrogate (u : Nat) : Bool := 0xd800 ≤ u && u < 0xdc00

/-- Whether a UTF-16 unit is the second of a pair. -/
def isLowSurrogate (u : Nat) : Bool := 0xdc00 ≤ u && u < 0xe000

/-- Turns units into characters in front of `out`; the units are given last first.  A surrogate
without a partner is no scalar value: U+FFFD stands in its place. -/
def joinSurrogates : (reversed : List Nat) → (out : List Char) → List Char
  | [], out => out
  | [u], out => (if isHighSurrogate u || isLowSurrogate u then '\uFFFD' else Char.ofNat u) :: out
  | u :: v :: rest, out =>
    if isLowSurrogate u && isHighSurrogate v then
      joinSurrogates rest (Char.ofNat (0x10000 + (v - 0xd800) * 0x400 + (u - 0xdc00)) :: out)
    else
      let c := if isHighSurrogate u || isLowSurrogate u then '\uFFFD' else Char.ofNat u
      joinSurrogates (v :: rest) (c :: out)

/-- The unit that four hexadecimal digits spell. -/
def unit? (a b c d : Char) : Option Nat := do
  let a ← Bytes.hexValue? a
  let b ← Bytes.hexValue? b
  let c ← Bytes.hexValue? c
  let d ← Bytes.hexValue? d
  some (((a * 16 + b) * 16 + c) * 16 + d)

/-- The character that a one-letter escape spells. -/
def shortEscape? (c : Char) : Option Nat :=
  if c = '"' ∨ c = '\\' ∨ c = '/' then some c.toNat
  else if c = 'b' then some 8
  else if c = 'f' then some 12
  else if c = 'n' then some 10
  else if c = 'r' then some 13
  else if c = 't' then some 9
  else none

/-- What is wrong with a character behind a backslash where it spells nothing: one of the first 256
makes a bad escape, and any other is out of place altogether. -/
def escapeDefect (c : Char) : Defect := if c.toNat ≤ 0xff then .badEscape else .unexpected

/-- Whether a character is a hexadecimal digit. -/
def isHexDigit (c : Char) : Bool := (Bytes.hexValue? c).isSome

/-- Reads a string up to its closing quotation mark, behind the units already read. -/
def readString (reversed : List Nat) : List Char → Except Stop (String × List Char)
  | [] => .error ⟨.openString, []⟩
  | '"' :: rest => .ok (String.ofList (joinSurrogates reversed []), rest)
  | '\\' :: 'u' :: a :: b :: c :: d :: rest =>
    match unit? a b c d with
    | some u => readString (u :: reversed) rest
    | none => .error ⟨.badUnit, (a :: b :: c :: d :: rest).dropWhile isHexDigit⟩
  | '\\' :: 'u' :: rest => .error ⟨.badUnit, rest.dropWhile isHexDigit⟩
  | '\\' :: c :: rest =>
    match shortEscape? c with
    | some u => readString (u :: reversed) rest
    | none => .error ⟨escapeDefect c, c :: rest⟩
  | ['\\'] => .error ⟨.unexpected, []⟩
  | c :: rest =>
    if c.toNat < 32 then .error ⟨.controlCharacter, c :: rest⟩
    else readString (c.toNat :: reversed) rest

/-! ### Values -/

/-- Drops blanks at the front. -/
def skipBlank : List Char → List Char
  | [] => []
  | c :: rest =>
    if c = ' ' ∨ c = '\t' ∨ c = '\n' ∨ c = '\r' then skipBlank rest else c :: rest

/-- Reads the characters of a literal, which stands for `a`. -/
def readLiteral {α : Type} (a : α) : (literal text : List Char) → Except Stop (α × List Char)
  | [], text => .ok (a, text)
  | _ :: _, [] => .error ⟨.unexpected, []⟩
  | l :: literal, c :: text =>
    if l = c then readLiteral a literal text else .error ⟨.unexpected, c :: text⟩

/-- Reads a numeral. -/
def readNumber (text : List Char) : Except Stop (Json × List Char) :=
  match Number.read text with
  | .ok (n, rest) => .ok (.num n, rest)
  | .error stop => .error ⟨.number stop.defect, stop.rest⟩

/-- Reads the name of a member and the colon behind it. -/
def readName (defect : Defect) (text : List Char) : Except Stop (String × List Char) :=
  match skipBlank text with
  | '"' :: rest => do
    let (name, rest) ← readString [] rest
    match skipBlank rest with
    | ':' :: rest => .ok (name, rest)
    | rest => .error ⟨.noColon, rest⟩
  | text => .error ⟨defect, text⟩

mutual

/-- Reads a value and returns what follows it. -/
def readValue : (fuel : Nat) → List Char → Except Stop (Json × List Char)
  | 0, text => .error ⟨.unexpected, text⟩
  | fuel + 1, text =>
    match skipBlank text with
    | 'n' :: rest => readLiteral .null "ull".toList rest
    | 't' :: rest => readLiteral (.bool true) "rue".toList rest
    | 'f' :: rest => readLiteral (.bool false) "alse".toList rest
    | '"' :: rest => do
      let (s, rest) ← readString [] rest
      .ok (.str s, rest)
    | '[' :: rest =>
      match skipBlank rest with
      | ']' :: rest => .ok (.arr [], rest)
      | rest => do
        let (items, rest) ← readItems fuel rest
        .ok (.arr items, rest)
    | '\x7b' :: rest =>
      match skipBlank rest with
      | '\x7d' :: rest => .ok (.obj [], rest)
      | rest => do
        let (members, rest) ← readMembers .firstName fuel rest
        .ok (object members, rest)
    | c :: rest =>
      if c.isDigit || c == '-' then readNumber (c :: rest)
      else .error ⟨.unexpected, c :: rest⟩
    | [] => .error ⟨.unexpected, []⟩

/-- Reads array items up to the closing bracket. -/
def readItems : (fuel : Nat) → List Char → Except Stop (List Json × List Char)
  | 0, text => .error ⟨.unexpected, text⟩
  | fuel + 1, text => do
    let (j, rest) ← readValue fuel text
    match skipBlank rest with
    | ',' :: rest =>
      let (items, rest) ← readItems fuel rest
      .ok (j :: items, rest)
    | ']' :: rest => .ok ([j], rest)
    | rest => .error ⟨.afterItem, rest⟩

/-- Reads object members up to the closing brace; a missing name has the given defect. -/
def readMembers (defect : Defect) :
    (fuel : Nat) → List Char → Except Stop (List (String × Json) × List Char)
  | 0, text => .error ⟨.unexpected, text⟩
  | fuel + 1, text => do
    let (name, rest) ← readName defect text
    let (j, rest) ← readValue fuel rest
    match skipBlank rest with
    | ',' :: rest =>
      let (members, rest) ← readMembers .nextName fuel rest
      .ok ((name, j) :: members, rest)
    | '\x7d' :: rest => .ok ([(name, j)], rest)
    | rest => .error ⟨.afterMember, rest⟩

end

/-- Reads a text up to its end: one value with blanks around it.  Each level of nesting takes at
most two steps a character. -/
def readWhole (text : List Char) : Except Stop Json := do
  let (j, rest) ← readValue (2 * text.length + 2) text
  match skipBlank rest with
  | [] => .ok j
  | rest => .error ⟨.afterValue, rest⟩

/-- Reads a text that is one value. -/
def parseChars (text : List Char) : Except Misread Json :=
  match readWhole text with
  | .ok j => .ok j
  | .error stop =>
    .error ⟨stop.defect, text.take (text.length - stop.rest.length), stop.rest⟩

/-- Reads a text that is one value. -/
def parse (s : String) : Except Misread Json := parseChars s.toList

end TokenLedger.Json
