/-!
# Binary64 numbers

A JSON number is a binary64 number.  A finite one is kept as the rational it stands for, so that
arithmetic and comparison are exact; the sign of zero is not kept, since nothing that is printed
shows it.  `Number.ofRat` rounds to the nearest binary64 number, ties going to the even
significand.
-/

namespace TokenLedger

/-- A binary64 number other than a NaN. -/
inductive Number
  | finite (value : Rat)
  | infinite (negative : Bool)
deriving DecidableEq, Repr

namespace Number

instance : Inhabited Number := ⟨.finite 0⟩

/-! ### Rounding -/

/-- The quotient of two naturals rounded to the nearest integer, ties to even. -/
def divHalfEven (num den : Nat) : Nat :=
  let q := num / den
  let r := num % den
  if 2 * r < den then q
  else if den < 2 * r then q + 1
  else if q % 2 = 0 then q else q + 1

/-- The exponent `e` with `2 ^ e ≤ num / den < 2 ^ (e + 1)`, for positive `num` and `den`. -/
def binaryExponent (num den : Nat) : Int :=
  let e : Int := (num.log2 : Int) - den.log2
  let reached := if 0 ≤ e then den <<< e.toNat ≤ num else den ≤ num <<< (-e).toNat
  if reached then e else e - 1

/-- Rounds a positive quotient: the multiple of the last place it keeps, and that place's binary
exponent.  A significand has 53 bits, and no place lies below `2 ^ (-1074)`. -/
def significand (num den : Nat) : Nat × Int :=
  let place := max (binaryExponent num den - 52) (-1074)
  let m :=
    if 0 ≤ place then divHalfEven num (den <<< place.toNat)
    else divHalfEven (num <<< (-place).toNat) den
  (m, place)

/-- The nearest binary64 number.  Integers up to `2 ^ 53` are binary64 numbers themselves. -/
def ofRat (q : Rat) : Number :=
  if q.den = 1 ∧ q.num.natAbs ≤ 1 <<< 53 then .finite q
  else
    let (m, place) := significand q.num.natAbs q.den
    let scaled : Rat :=
      if 0 ≤ place then ((m <<< place.toNat : Nat) : Rat) else mkRat m (1 <<< (-place).toNat)
    let magnitude := if m = 0 then 0 else scaled
    if ((1 <<< 1024 : Nat) : Rat) ≤ magnitude then .infinite (q.num < 0)
    else .finite (if q.num < 0 then -magnitude else magnitude)

/-- The rational `m * 10 ^ place`. -/
def decimal (m : Nat) (place : Int) : Rat :=
  if 0 ≤ place then ((m * Nat.pow 10 place.toNat : Nat) : Rat)
  else mkRat m (Nat.pow 10 (-place).toNat)

/-- A natural number, rounded. -/
def ofNat (n : Nat) : Number := ofRat n

/-- An integer, rounded. -/
def ofInt (n : Int) : Number := ofRat n

instance (n : Nat) : OfNat Number n := ⟨ofNat n⟩

/-- The sum of two binary64 numbers, for a finite right operand. -/
def addNat : Number → Nat → Number
  | .finite q, n => ofRat (q + n)
  | .infinite s, _ => .infinite s

/-! ### Integers -/

/-- Whether a number is a finite integer. -/
def isInteger : Number → Bool
  | .finite q => q.den == 1
  | .infinite _ => false

/-- The integer that a number is, if it is one. -/
def toInt? : Number → Option Int
  | .finite q => if q.den = 1 then some q.num else none
  | .infinite _ => none

/-- Whether a number is smaller than an integer. -/
def ltInt : Number → Int → Bool
  | .finite q, n => q < n
  | .infinite s, _ => s

end Number

end TokenLedger
