import TokenLedger.Wire.Field

/-!
# Layouts and schemas

A layout is a sequence of fields; its rows are written as one item a field, in order, and read from
the front.  Items behind the last field are passed over.  A schema lays out a message type, and a
codec adds the name of the type and the outermost list.
-/

namespace TokenLedger.Wire

open Rlp (Item)

/-! ### Layouts -/

/-- A sequence of fields, by the type of its rows. -/
inductive Layout : Type → Type 1
  | nil : Layout Unit
  | cons {α β : Type} (head : Field α) (tail : Layout β) : Layout (α × β)

namespace Layout

/-- The row of zero values. -/
def zero : {α : Type} → Layout α → α
  | _, .nil => ()
  | _, .cons head tail => (head.zero, tail.zero)

/-- The items of a row. -/
def write : {α : Type} → Layout α → α → Except Fault (List Item)
  | _, .nil, _ => .ok []
  | _, .cons head tail, (a, row) => do
    let item ← head.write a
    let items ← tail.write row
    .ok (item :: items)

/-- Reads a row from the front of some items. -/
def read : {α : Type} → Layout α → (typeName : String) → List Item → Except Fault α
  | _, .nil, _, _ => .ok ()
  | _, .cons head tail, typeName, items => do
    let a ← head.readOr typeName items.head?
    let row ← tail.read typeName items.tail
    .ok (a, row)

end Layout

/-! ### Schemas -/

/-- A message type laid out as rows. -/
structure Schema (M : Type) where
  Row : Type
  layout : Layout Row
  toRow : M → Row
  ofRow : Row → M
  ofRow_toRow : ∀ m, ofRow (toRow m) = m := by intro m; rfl
  toRow_ofRow : ∀ r, toRow (ofRow r) = r := by intro r; rfl

namespace Schema

variable {M : Type}

/-- The items of a message. -/
def write (s : Schema M) (m : M) : Except Fault (List Item) := s.layout.write (s.toRow m)

/-- Reads a message from the front of some items. -/
def read (s : Schema M) (typeName : String) (items : List Item) : Except Fault M :=
  s.ofRow <$> s.layout.read typeName items

/-- A nested message that may be absent; an empty list stands for none. -/
def optional (name : String) (s : Schema M) : Field (Option M) where
  name := name
  zero := none
  write
    | none => .ok (.list [])
    | some m => Item.list <$> s.write m
  read typeName item := do
    let items ← itemsOf typeName name item
    if items.isEmpty then .ok none else some <$> s.read (subtypeName typeName name) items

end Schema

/-! ### Codecs -/

/-- A message type on the wire. -/
structure Codec (M : Type) where
  typeName : String
  schema : Schema M

namespace Codec

variable {M : Type}

/-- The bytes of a message. -/
def encode (c : Codec M) (m : M) : Except Fault Bytes := do
  let items ← c.schema.write m
  .ok (Item.list items).encode

/-- Reads the bytes of a message. -/
def decode (c : Codec M) (raw : Bytes) : Except Fault M :=
  match Rlp.decode raw with
  | .error e => .error (.decode c.typeName (.rlp e))
  | .ok (.bytes _) => .error (.decode c.typeName .notList)
  | .ok (.list items) => c.schema.read c.typeName items

end Codec

end TokenLedger.Wire
