import TokenLedger.Number.Basic
import TokenLedger.Text.Decimal

/-!
# Numerals

The JSON grammar of numbers: an optional minus sign, an integer part without superfluous leading
zeros, an optional fraction, an optional exponent.  A numeral stands for the nearest binary64
number; one too large for any is infinite.  A text that is none is refused at the first character
that cannot stand in its place.
-/

namespace TokenLedger.Number

/-- The parts of a numeral. -/
structure Numeral where
  negative : Bool
  whole : List Char
  fraction : List Char
  exponent : Int

/-- The number that a numeral stands for.  Exponents that put the first digit far outside the
binary64 range are settled without computing the power. -/
def Numeral.toNumber (n : Numeral) : Number :=
  let m := Decimal.value (n.whole ++ n.fraction)
  let place := n.exponent - n.fraction.length
  if m = 0 then .finite 0
  else
    let point := ((Nat.toDigits 10 m).length : Int) + place
    if 310 < point then .infinite n.negative
    else if point < -330 then .finite 0
    else
      let magnitude := decimal m place
      ofRat (if n.negative then -magnitude else magnitude)

/-- Splits a run of digits off a text. -/
def spanDigits (cs : List Char) : List Char × List Char :=
  (cs.takeWhile Char.isDigit, cs.dropWhile Char.isDigit)

/-- Why a text is no numeral. -/
inductive Defect
  /-- No digit behind the minus sign. -/
  | noWhole
  /-- A digit behind a leading zero. -/
  | leadingZero
  /-- No digit behind the point. -/
  | noFraction
  /-- No digit behind the mark of the exponent. -/
  | noExponent
deriving Repr

/-- Where reading a numeral stops: why, and the text from there on. -/
structure Stop where
  defect : Defect
  rest : List Char
deriving Repr

/-- Reads one or more digits. -/
def readDigits (defect : Defect) (cs : List Char) : Except Stop (List Char × List Char) :=
  let (digits, rest) := spanDigits cs
  if digits.isEmpty then .error ⟨defect, cs⟩ else .ok (digits, rest)

/-- Reads an integer part; a zero in front stands alone. -/
def readWhole (cs : List Char) : Except Stop (List Char × List Char) :=
  match readDigits .noWhole cs with
  | .ok ('0' :: d :: digits, rest) => .error ⟨.leadingZero, d :: digits ++ rest⟩
  | reading => reading

/-- Reads the fraction behind an integer part; at least one digit follows the point. -/
def readFraction : List Char → Except Stop (List Char × List Char)
  | '.' :: cs => readDigits .noFraction cs
  | cs => .ok ([], cs)

/-- Reads the digits of an exponent. -/
def readExponentDigits (negative : Bool) (cs : List Char) : Except Stop (Int × List Char) := do
  let (digits, rest) ← readDigits .noExponent cs
  let e : Int := Decimal.value digits
  .ok (if negative then -e else e, rest)

/-- Reads the exponent behind a fraction. -/
def readExponent : List Char → Except Stop (Int × List Char)
  | c :: cs =>
    if c = 'e' ∨ c = 'E' then
      match cs with
      | '+' :: ds => readExponentDigits false ds
      | '-' :: ds => readExponentDigits true ds
      | ds => readExponentDigits false ds
    else .ok (0, c :: cs)
  | [] => .ok (0, [])

/-- Reads a numeral without its sign. -/
def readUnsigned (negative : Bool) (cs : List Char) : Except Stop (Number × List Char) := do
  let (whole, rest) ← readWhole cs
  let (fraction, rest) ← readFraction rest
  let (exponent, rest) ← readExponent rest
  .ok ((Numeral.mk negative whole fraction exponent).toNumber, rest)

/-- Reads a numeral from the front of a text. -/
def read : List Char → Except Stop (Number × List Char)
  | '-' :: cs => readUnsigned true cs
  | cs => readUnsigned false cs

end TokenLedger.Number
