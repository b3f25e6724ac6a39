import TokenLedger.Number.Basic
import TokenLedger.Text.Decimal

/-!
# The shortest decimal text of a binary64 number

A number is written with the fewest significant digits that round back to it; of several such
decimals the nearest is taken, and of two equally near the one with an even last digit.  The digits
are written positionally while the decimal point lies at most 21 places to the right of the first
digit and at most six zeros to its left; otherwise with an exponent.
-/

namespace TokenLedger.Number

/-! ### Digits -/

/-- The least `n` from `n` upward with `den ≤ num * 10 ^ n`: the number of places to move the
decimal point for a quotient below one to reach one. -/
def placesToOne (num den : Nat) : (fuel n : Nat) → Nat
  | 0, n => n
  | fuel + 1, n => if den ≤ num * Nat.pow 10 n then n else placesToOne num den fuel (n + 1)

/-- The place of the decimal point behind the first digit: the `e` with
`10 ^ (e - 1) ≤ num / den < 10 ^ e`, for a positive quotient of at least `10 ^ (-400)`. -/
def pointPlace (num den : Nat) : Int :=
  if den ≤ num then ((Nat.toDigits 10 (num / den)).length : Int)
  else 1 - (placesToOne num den 400 1 : Int)

/-- The decimal with last place `place` that reads back as the positive number `q`, if there is
one: a number of steps of that place. -/
def stepsAt? (q : Rat) (place : Int) : Option Nat :=
  let scaled := q * decimal 1 (-place)
  let low := scaled.floor.toNat
  let readsBack (m : Nat) : Bool := ofRat (decimal m place) == .finite q
  let below := scaled - (low : Rat)
  if readsBack low && (below < mkRat 1 2 || (below == mkRat 1 2 && low % 2 == 0) ||
      !readsBack (low + 1)) then some low
  else if readsBack (low + 1) then some (low + 1)
  else none

/-- Tries `digits` significant digits, then more, until a decimal reads back. -/
def shortestFrom (q : Rat) (point : Int) : (fuel digits : Nat) → Nat × Int
  | 0, digits => ((q * decimal 1 (digits - point)).floor.toNat, point - digits)
  | fuel + 1, digits =>
    match stepsAt? q (point - digits) with
    | some m => (m, point - digits)
    | none => shortestFrom q point fuel (digits + 1)

/-- The significant digits of a positive number without trailing zeros, and the place of the
decimal point behind the first of them.  Seventeen digits always read back. -/
def shortestDigits (q : Rat) : List Char × Int :=
  let (m, place) := shortestFrom q (pointPlace q.num.natAbs q.den) 17 1
  let digits := Nat.toDigits 10 m
  let kept := (digits.reverse.dropWhile (· == '0')).reverse
  (kept, digits.length + place)

/-! ### Layout -/

/-- Writes digits with the decimal point `point` places behind the first of them. -/
def layOut (digits : List Char) (point : Int) : List Char :=
  let count : Int := digits.length
  if count ≤ point ∧ point ≤ 21 then digits ++ List.replicate (point - count).toNat '0'
  else if 0 < point ∧ point ≤ 21 then digits.take point.toNat ++ '.' :: digits.drop point.toNat
  else if -6 < point ∧ point ≤ 0 then '0' :: '.' :: List.replicate (-point).toNat '0' ++ digits
  else
    let e := point - 1
    let mantissa := match digits with
      | [] => []
      | [d] => [d]
      | d :: ds => d :: '.' :: ds
    let sign := if 0 ≤ e then '+' else '-'
    mantissa ++ 'e' :: sign :: Nat.toDigits 10 e.natAbs

/-- The text of a number.  An integer of at most 53 bits is its own shortest decimal. -/
def toText : Number → String
  | .infinite false => "Infinity"
  | .infinite true => "-Infinity"
  | .finite q =>
    if q.den = 1 ∧ q.num.natAbs ≤ 1 <<< 53 then Decimal.ofInt q.num
    else
      let (digits, point) := shortestDigits (if q < 0 then -q else q)
      let text := String.ofList (layOut digits point)
      if q < 0 then "-" ++ text else text

end TokenLedger.Number
