import TokenLedger.Bytes

/-!
# Recursive length-prefix items

An item is a byte string or a list of items.  A byte below `0x80` is its own encoding; any other
item is a header that says how long the payload is, then the payload.  A payload of at most 55
bytes has its length in the header's first byte, a longer one in the big-endian bytes after it.
-/

namespace TokenLedger.Rlp

/-- A byte string or a list of items. -/
inductive Item
  | bytes (b : Bytes)
  | list (items : List Item)
deriving Repr, Inhabited, BEq

/-- The header of a payload of `length` bytes; `base` is the first byte for an empty one. -/
def header (base length : Nat) : Bytes :=
  if length ≤ 55 then [UInt8.ofNat (base + length)]
  else
    let digits := Bytes.bigEndian length
    UInt8.ofNat (base + 55 + digits.length) :: digits

/-- The encoding of a byte string. -/
def encodeBytes (b : Bytes) : Bytes :=
  match b with
  | [x] => if x < 0x80 then [x] else header 0x80 1 ++ [x]
  | _ => header 0x80 b.length ++ b

mutual

/-- The encoding of an item. -/
def Item.encode : Item → Bytes
  | .bytes b => encodeBytes b
  | .list items =>
    let payload := encodeAll items
    header 0xc0 payload.length ++ payload

/-- The encodings of items, one after another. -/
def encodeAll : List Item → Bytes
  | [] => []
  | item :: items => item.encode ++ encodeAll items

end

end TokenLedger.Rlp
