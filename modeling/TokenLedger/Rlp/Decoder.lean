import TokenLedger.Rlp.Basic

/-!
# Reading items

`decode` accepts bytes that are exactly one item.  Items are read from the front: a header, then
its payload; the payload of a list is read to its end before what follows the list.  No bytes at
all are read as the empty byte string.
-/

namespace TokenLedger.Rlp

/-- Why bytes are not an item. -/
inductive Error
  /-- A payload, or the bytes of a list's length, reach past the end. -/
  | outOfBounds
  /-- A single byte below `0x80` has a header. -/
  | needlessHeader
  /-- The bytes of a string's length reach up to the end or past it. -/
  | noLength
  /-- A length starts with a zero byte. -/
  | leadingZero
  /-- The length of a string of at most 55 bytes stands behind the header's first byte. -/
  | shortString
  /-- The length of a list of at most 55 bytes stands behind the header's first byte. -/
  | shortList
  /-- A list is longer than what is left. -/
  | longList
  /-- Something follows the item. -/
  | remainder
deriving DecidableEq, Repr

/-- The wording of an error. -/
def Error.message : Error → String
  | .outOfBounds => "invalid RLP (safeSlice): end slice of Uint8Array out-of-bounds"
  | .needlessHeader => "invalid RLP encoding: invalid prefix, single byte < 0x80 are not prefixed"
  | .noLength => "invalid RLP: not enough bytes for string length"
  | .leadingZero => "invalid RLP: extra zeros"
  | .shortString => "invalid RLP: expected string length to be greater than 55"
  | .shortList => "invalid RLP: encoded list too short"
  | .longList => "invalid RLP: total length is larger than the data"
  | .remainder => "invalid RLP: remainder must be zero"

/-- What a header announces: a byte string, or the bytes of a list's items. -/
inductive Payload
  | bytes (b : Bytes)
  | items (b : Bytes)
deriving Repr

/-- Cuts `n` bytes off the front, or fails with `e` when there are fewer. -/
def cut (e : Error) (n : Nat) (b : Bytes) : Except Error (Bytes × Bytes) :=
  let front := b.take n
  if front.length = n then .ok (front, b.drop n) else .error e

/-- Reads the `k` big-endian bytes of a length. -/
def cutLength (k : Nat) (b : Bytes) : Except Error (Nat × Bytes) := do
  let (digits, rest) ← cut .outOfBounds k b
  if digits.head? = some 0 then .error .leadingZero else .ok (Bytes.toNat digits, rest)

/-- Reads the byte string behind a first byte below `0xb8`. -/
def cutShortBytes (length : Nat) (rest : Bytes) : Except Error (Payload × Bytes) := do
  let (b, rest) ← cut .outOfBounds length rest
  match b with
  | [x] => if x < 0x80 then .error .needlessHeader else .ok (.bytes b, rest)
  | _ => .ok (.bytes b, rest)

/-- Reads the byte string behind a first byte that announces `k` bytes of length; more than those
have to follow. -/
def cutLongBytes (k : Nat) (rest : Bytes) : Except Error (Payload × Bytes) := do
  if rest.length ≤ k then .error .noLength
  let (length, rest) ← cutLength k rest
  if length ≤ 55 then .error .shortString
  let (b, rest) ← cut .outOfBounds length rest
  .ok (.bytes b, rest)

/-- Reads the items' bytes behind a first byte that announces `k` bytes of length. -/
def cutLongList (k : Nat) (rest : Bytes) : Except Error (Payload × Bytes) := do
  let (length, rest) ← cutLength k rest
  if length < 56 then .error .shortList
  let (b, rest) ← cut .longList length rest
  .ok (.items b, rest)

/-- Reads a header and its payload from the front. -/
def cutItem : Bytes → Except Error (Payload × Bytes)
  | [] => .ok (.bytes [], [])
  | f :: rest =>
    if f < 0x80 then .ok (.bytes [f], rest)
    else if f < 0xb8 then cutShortBytes (f.toNat - 0x80) rest
    else if f < 0xc0 then cutLongBytes (f.toNat - 0xb7) rest
    else if f < 0xf8 then do
      let (b, rest) ← cut .outOfBounds (f.toNat - 0xc0) rest
      .ok (.items b, rest)
    else cutLongList (f.toNat - 0xf7) rest

/-- Reads items to the end of the bytes.  A payload and a rest are shorter than what they are cut
from, so that one more than the number of bytes is enough fuel. -/
def decodeAll : (fuel : Nat) → Bytes → Except Error (List Item)
  | 0, _ => .error .outOfBounds
  | _ + 1, [] => .ok []
  | fuel + 1, b@(_ :: _) => do
    let (payload, rest) ← cutItem b
    let item ← match payload with
      | .bytes b => .ok (Item.bytes b)
      | .items b => Item.list <$> decodeAll fuel b
    let items ← decodeAll fuel rest
    .ok (item :: items)

/-- Reads bytes that are one item. -/
def decode (b : Bytes) : Except Error Item := do
  let (payload, rest) ← cutItem b
  let item ← match payload with
    | .bytes b => .ok (Item.bytes b)
    | .items b => Item.list <$> decodeAll (b.length + 1) b
  if rest.isEmpty then .ok item else .error .remainder

end TokenLedger.Rlp
