/-!
# Bytes

Byte strings are lists of bytes, ordered lexicographically.  This module holds the two notations
the rest of the library needs for them: big-endian integers without leading zeros, and lower-case
hexadecimal text.
-/

namespace TokenLedger

/-- A byte string. -/
abbrev Bytes := List UInt8

namespace Bytes

/-! ### Big-endian integers -/

/-- Pushes the base-256 digits of `n` in front of `acc`, most significant first; `fuel` bounds the
number of digits. -/
def bigEndianOnto : (fuel n : Nat) → Bytes → Bytes
  | 0, _, acc => acc
  | fuel + 1, n, acc =>
    if n = 0 then acc else bigEndianOnto fuel (n / 256) (UInt8.ofNat (n % 256) :: acc)

/-- The big-endian bytes of `n` without leading zeros; zero is the empty string.  A number has at
most as many digits as its own value, so `n` itself is enough fuel. -/
def bigEndian (n : Nat) : Bytes := bigEndianOnto n n []

/-- The number that big-endian bytes stand for, leading zeros allowed. -/
def toNat (b : Bytes) : Nat := b.foldl (fun n x => n * 256 + x.toNat) 0

@[simp] theorem bigEndian_zero : bigEndian 0 = [] := rfl

@[simp] theorem toNat_nil : toNat [] = 0 := rfl

/-! ### Hexadecimal text -/

/-- The lower-case hexadecimal digit of a number below sixteen. -/
def hexDigit (n : Nat) : Char := if n < 10 then Char.ofNat (48 + n) else Char.ofNat (87 + n)

/-- The value of a hexadecimal digit of either case. -/
def hexValue? (c : Char) : Option Nat :=
  if '0' ≤ c ∧ c ≤ '9' then some (c.toNat - 48)
  else if 'a' ≤ c ∧ c ≤ 'f' then some (c.toNat - 87)
  else if 'A' ≤ c ∧ c ≤ 'F' then some (c.toNat - 55)
  else none

/-- Two lower-case hexadecimal digits a byte. -/
def toHex (b : Bytes) : String :=
  String.ofList (b.flatMap fun x => [hexDigit (x.toNat / 16), hexDigit (x.toNat % 16)])

/-- Reads pairs of hexadecimal digits behind the bytes already read, which are held in reverse. -/
def ofHexOnto (acc : Bytes) : List Char → Option Bytes
  | [] => some acc.reverse
  | [_] => none
  | hi :: lo :: rest => do
    let h ← hexValue? hi
    let l ← hexValue? lo
    ofHexOnto (UInt8.ofNat (h * 16 + l) :: acc) rest

/-- Reads hexadecimal text; `none` when it has an odd length or another character. -/
def ofHex? (s : String) : Option Bytes := ofHexOnto [] s.toList

end Bytes

end TokenLedger
