import TokenLedger.Bytes

/-!
# UTF-8

`encode` is total on strings.  `decode` is total on bytes: each maximal part that cannot be
continued to a well-formed character becomes one replacement character, and a leading byte-order
mark is a character like any other.  The decoder is a machine that reads one byte at a time and
remembers how many continuation bytes it still owes and in which range the next one has to lie.

A text is a sequence of Unicode scalar values: every text has UTF-8 bytes, and a surrogate on its
own, which has none, stands in no text.
-/

namespace TokenLedger.Utf8

/-- The UTF-8 bytes of a string. -/
def encode (s : String) : Bytes := s.toList.flatMap String.utf8EncodeChar

/-- Stands for a part of the input that is no character. -/
def replacement : Char := '\uFFFD'

/-- What the decoder remembers between two bytes. -/
inductive State
  /-- A character starts at the next byte. -/
  | start
  /-- `owed + 1` continuation bytes are missing, the next one within `lower` and `upper`; the bits
  read so far are `code`. -/
  | within (owed : Nat) (lower upper : UInt8) (code : Nat)
deriving DecidableEq, Repr

/-- Reads the first byte of a character. -/
def lead (b : UInt8) : List Char × State :=
  if b ≤ 0x7f then ([Char.ofNat b.toNat], .start)
  else if b < 0xc2 then ([replacement], .start)
  else if b ≤ 0xdf then ([], .within 0 0x80 0xbf (b.toNat % 32))
  else if b = 0xe0 then ([], .within 1 0xa0 0xbf 0)
  else if b = 0xed then ([], .within 1 0x80 0x9f 13)
  else if b ≤ 0xef then ([], .within 1 0x80 0xbf (b.toNat % 16))
  else if b = 0xf0 then ([], .within 2 0x90 0xbf 0)
  else if b ≤ 0xf3 then ([], .within 2 0x80 0xbf (b.toNat % 8))
  else if b = 0xf4 then ([], .within 2 0x80 0x8f 4)
  else ([replacement], .start)

/-- Reads one byte: the characters it completes and what to remember.  A byte that does not
continue the current character ends it with a replacement and is read again as a first byte. -/
def State.feed : State → UInt8 → List Char × State
  | .start, b => lead b
  | .within owed lower upper code, b =>
    if lower ≤ b ∧ b ≤ upper then
      let code := code * 64 + b.toNat % 64
      match owed with
      | 0 => ([Char.ofNat code], .start)
      | owed + 1 => ([], .within owed 0x80 0xbf code)
    else
      let (cs, next) := lead b
      (replacement :: cs, next)

/-- What the end of the input adds: a replacement for a character cut short. -/
def State.flush : State → List Char
  | .start => []
  | .within .. => [replacement]

/-- Reads bytes from a state, behind the characters already read. -/
def decodeOnto (acc : Array Char) (st : State) : Bytes → List Char
  | [] => acc.toList ++ st.flush
  | b :: bs =>
    let (cs, next) := st.feed b
    decodeOnto (acc.appendList cs) next bs

/-- The string that bytes stand for, with replacements for what is not UTF-8. -/
def decode (b : Bytes) : String := String.ofList (decodeOnto #[] .start b)

/-- Whether bytes are the UTF-8 form of a string. -/
def isValid (b : Bytes) : Bool := encode (decode b) == b

end TokenLedger.Utf8
