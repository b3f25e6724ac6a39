import TokenLedger.Bytes
import TokenLedger.Fault

/-!
# Base64

The standard alphabet with padding.  Writing pads to a multiple of four characters.  Reading drops
padding at the end, however much there is, and refuses bits that are left over unless they are fewer
than six zeros.
-/

namespace TokenLedger.Base64

/-- The character of a number below 64. -/
def digit (n : Nat) : Char :=
  if n < 26 then Char.ofNat (65 + n)
  else if n < 52 then Char.ofNat (71 + n)
  else if n < 62 then Char.ofNat (n - 4)
  else if n = 62 then '+'
  else '/'

/-- The number of a character.  Padding inside a text counts as 64, which is one in the last place
of the character before it. -/
def value? (c : Char) : Option Nat :=
  if 'A' ≤ c ∧ c ≤ 'Z' then some (c.toNat - 65)
  else if 'a' ≤ c ∧ c ≤ 'z' then some (c.toNat - 71)
  else if '0' ≤ c ∧ c ≤ '9' then some (c.toNat + 4)
  else if c = '+' then some 62
  else if c = '/' then some 63
  else if c = '=' then some 64
  else none

/-- The characters of bytes, four for three. -/
def encodeChars : Bytes → List Char
  | [] => []
  | [a] => [digit (a.toNat / 4), digit (a.toNat % 4 * 16), '=', '=']
  | [a, b] =>
    [digit (a.toNat / 4), digit (a.toNat % 4 * 16 + b.toNat / 16), digit (b.toNat % 16 * 4), '=']
  | a :: b :: c :: rest =>
    digit (a.toNat / 4) :: digit (a.toNat % 4 * 16 + b.toNat / 16) ::
      digit (b.toNat % 16 * 4 + c.toNat / 64) :: digit (c.toNat % 64) :: encodeChars rest

/-- The text of bytes. -/
def encode (b : Bytes) : String := String.ofList (encodeChars b)

/-- Reads characters behind bytes already read, which are held in reverse; `pending` are the
`count` bits that have not made a byte yet. -/
def decodeOnto (out : Bytes) (pending count : Nat) : List Char → Except BadText Bytes
  | [] => if 6 ≤ count ∨ pending ≠ 0 then .error .base64End else .ok out.reverse
  | c :: rest =>
    match value? c with
    | none => .error .base64Character
    | some v =>
      let count := count + 6
      let bits := (pending * 64 ||| v) % Nat.pow 2 count
      if 8 ≤ count then
        let left := count - 8
        decodeOnto (UInt8.ofNat (bits / Nat.pow 2 left) :: out) (bits % Nat.pow 2 left) left rest
      else decodeOnto out bits count rest

/-- The bytes of a text. -/
def decode (s : String) : Except BadText Bytes :=
  decodeOnto [] 0 0 (s.toList.reverse.dropWhile (· == '=')).reverse

end TokenLedger.Base64
