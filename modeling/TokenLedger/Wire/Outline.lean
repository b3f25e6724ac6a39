import TokenLedger.Wire.Field

/-!
# Reading by an outline

An outline names the fields of a message and their kinds as data.  Reading by it gives the fields'
values by name, with the rules of `Field` for each kind, as a codec with these fields reads them
(`readOutline_eq`).
-/

namespace TokenLedger.Wire

open Rlp (Item)

/-- A field of an outline. -/
inductive Slot
  | text (name : String)
  | bytes (name : String)
  | integer (name : String)
  | word (name : String)
  | flag (name : String)
  | texts (name : String)
  | words (name : String)
  | message (name : String) (slots : List Slot)
deriving Repr, Inhabited

/-- The value of a slot. -/
inductive Value
  | text (s : String)
  | bytes (b : Bytes)
  | integer (n : Int)
  | word (n : Int)
  | flag (b : Bool)
  | texts (values : List String)
  | words (values : List Int)
  | message (members : Option (List (String × Value)))
deriving Repr, Inhabited

/-- The name of a slot. -/
def Slot.name : Slot → String
  | .text name | .bytes name | .integer name | .word name | .flag name | .texts name
  | .words name | .message name _ => name

mutual

/-- Reads the item of a slot, if there is one, in a message of the named type. -/
def Slot.read : Slot → (typeName : String) → Option Item → Except Fault Value
  | .text name, t, item => Value.text <$> (Field.text name).readOr t item
  | .bytes name, t, item => Value.bytes <$> (Field.bytes name).readOr t item
  | .integer name, t, item => Value.integer <$> (Field.integer name).readOr t item
  | .word name, t, item => Value.word <$> (Field.word name).readOr t item
  | .flag name, t, item => Value.flag <$> (Field.flag name).readOr t item
  | .texts name, t, item => Value.texts <$> (Field.repeated name (.text "item")).readOr t item
  | .words name, t, item => Value.words <$> (Field.repeated name (.word "item")).readOr t item
  | .message _ _, _, none => .ok (.message none)
  | .message name slots, t, some item => do
    let items ← itemsOf t name item
    if items.isEmpty then .ok (.message none)
    else
      let members ← readSlots slots (subtypeName t name) items
      .ok (.message (some members))

/-- Reads slots from the front of some items. -/
def readSlots : List Slot → (typeName : String) → List Item →
    Except Fault (List (String × Value))
  | [], _, _ => .ok []
  | slot :: slots, t, items => do
    let value ← slot.read t items.head?
    let rest ← readSlots slots t items.tail
    .ok ((slot.name, value) :: rest)

end

/-- Reads the bytes of a message of the named type by an outline. -/
def readOutline (typeName : String) (slots : List Slot) (raw : Bytes) :
    Except Fault (List (String × Value)) :=
  match Rlp.decode raw with
  | .error e => .error (.decode typeName (.rlp e))
  | .ok (.bytes _) => .error (.decode typeName .notList)
  | .ok (.list items) => readSlots slots typeName items

end TokenLedger.Wire
