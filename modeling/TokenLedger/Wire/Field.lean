import TokenLedger.Fault
import TokenLedger.Text.Utf8

/-!
# Fields of wire messages

A field turns a value into one item and back.  Integers are written big-endian without leading
zeros, and no other form of them is read.  A field whose item is missing has its zero value, so that
what was written before a field was added can still be read.
-/

namespace TokenLedger.Wire

open Rlp (Item)

/-- A named field of a message. -/
structure Field (α : Type) where
  name : String
  /-- The value of a missing field. -/
  zero : α
  write : α → Except Fault Item
  /-- Reads an item of the message type with the given name. -/
  read : (typeName : String) → Item → Except Fault α

/-- The name of the type of a message that is nested in a field. -/
def subtypeName (typeName fieldName : String) : String := typeName ++ "." ++ fieldName

/-! ### Items -/

/-- The fault of a field. -/
def fieldFault (typeName name : String) (cause : FieldCause) : Fault :=
  .decode typeName (.field name cause)

/-- The bytes of an item that has to be a byte string. -/
def bytesOf (typeName name : String) : Item → Except Fault Bytes
  | .bytes b => .ok b
  | .list _ => .error (fieldFault typeName name .expectedBytes)

/-- The items of an item that has to be a list. -/
def itemsOf (typeName name : String) : Item → Except Fault (List Item)
  | .list items => .ok items
  | .bytes _ => .error (fieldFault typeName name .expectedList)

/-- The number of an item that has to be an integer. -/
def natOf (typeName name : String) (item : Item) : Except Fault Nat := do
  let b ← bytesOf typeName name item
  if b.head? = some 0 then .error (fieldFault typeName name .nonCanonical)
  else .ok (Bytes.toNat b)

/-- The item of an integer; a negative one has none. -/
def ofInt (n : Int) : Except Fault Item :=
  if n < 0 then .error (.badInteger (.negative n)) else .ok (.bytes (Bytes.bigEndian n.toNat))

/-- An integer as it is handed in for a message: exact, or as a binary64 number. -/
inductive IntegerInput
  | exact (n : Int)
  | number (n : Number)
deriving DecidableEq, Repr

/-- The integer that is meant; a fraction means none. -/
def IntegerInput.toInt : IntegerInput → Except Fault Int
  | .exact n => .ok n
  | .number x =>
    match x.toInt? with
    | some n => .ok n
    | none => .error (.badInteger (.fraction x))

/-- Refuses an integer that is below zero, in the notation it was handed in with. -/
def IntegerInput.refusal : IntegerInput → BadInteger
  | .exact n => .negative n
  | .number x => .negativeNumber x

/-- The natural number that is meant, as an integer. -/
def IntegerInput.toNatural (i : IntegerInput) : Except Fault Int := do
  let n ← i.toInt
  if n < 0 then .error (.badInteger i.refusal) else .ok n

namespace Field

variable {α : Type}

/-- Reads the item of a field if there is one. -/
def readOr (f : Field α) (typeName : String) : Option Item → Except Fault α
  | none => .ok f.zero
  | some item => f.read typeName item

/-! ### Kinds of fields -/

/-- A UTF-8 string. -/
def text (name : String) : Field String where
  name := name
  zero := ""
  write s := .ok (.bytes (Utf8.encode s))
  read typeName item := Utf8.decode <$> bytesOf typeName name item

/-- A byte string. -/
def bytes (name : String) : Field Bytes where
  name := name
  zero := []
  write b := .ok (.bytes b)
  read typeName item := bytesOf typeName name item

/-- A natural number of any size. -/
def integer (name : String) : Field Int where
  name := name
  zero := 0
  write := ofInt
  read typeName item := (fun n => Int.ofNat n) <$> natOf typeName name item

/-- A natural number below `2 ^ 32`; the bound is checked when it is read. -/
def word (name : String) : Field Int where
  name := name
  zero := 0
  write := ofInt
  read typeName item := do
    let n ← natOf typeName name item
    if 0xffffffff < n then .error (fieldFault typeName name .tooLarge) else .ok (Int.ofNat n)

/-- A boolean, one or zero; any other number is read as true. -/
def flag (name : String) : Field Bool where
  name := name
  zero := false
  write b := ofInt (if b then 1 else 0)
  read typeName item := (fun n => decide (n ≠ 0)) <$> natOf typeName name item

/-- A number of a class feature; the five known ones are read. -/
def feature (name : String) : Field Int where
  name := name
  zero := 0
  write := ofInt
  read typeName item := do
    let n ← (word name).read typeName item
    if n ≤ 4 then .ok n else .error (.decode typeName (.unknownFeature n.toNat))

/-- Values of one kind in a nested list. -/
def repeated (name : String) (element : Field α) : Field (List α) where
  name := name
  zero := []
  write as := Item.list <$> as.mapM element.write
  read typeName item := do
    let items ← itemsOf typeName name item
    items.mapM (element.read (subtypeName typeName name))

end Field

end TokenLedger.Wire
