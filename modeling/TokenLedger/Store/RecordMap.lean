import TokenLedger.Json.Parser
import TokenLedger.Json.Shape
import TokenLedger.Store.Basic
import TokenLedger.Store.Key

/-!
# Record maps

A record map keeps typed records in a part of a store of its own: behind the length-prefixed name of
its namespace.  Records are JSON text; what is read back has to have the record's shape.
-/

namespace TokenLedger

/-! ### JSON bytes -/

/-- The UTF-8 text of a value. -/
def Json.toBytes (j : Json) : Bytes := Utf8.encode j.toText

/-- Takes a checked value or reports its issues for a named type. -/
def Checked.orFault {α : Type} (typeName : String) : Checked α → Except Fault α
  | .valid a => .ok a
  | .invalid issues => .error (.decode typeName (.shape issues))

/-- Reads bytes as JSON text of a shape; the type is named in faults. -/
def Shape.readBytes {α : Type} (shape : Shape α) (typeName : String) (raw : Bytes) :
    Except Fault α :=
  match Json.parse (Utf8.decode raw) with
  | .ok j => (shape j).orFault typeName
  | .error _ => .error (.decode typeName .notJson)

/-! ### Maps -/

/-- A typed map in a namespace of a store. -/
structure RecordMap (K V : Type) where
  name : String
  key : KeyCodec K
  shape : Shape V
  toJson : V → Json
  /-- The name can have its length in front. -/
  short : (Utf8.encode name).length ≤ Key.maxSegment

namespace RecordMap

variable {K V : Type}

/-- The map with a name, unless the name is too long. -/
def named (name : String) (key : KeyCodec K) (shape : Shape V) (toJson : V → Json) :
    Except Fault (RecordMap K V) :=
  if h : (Utf8.encode name).length ≤ Key.maxSegment then
    .ok { name, key, shape, toJson, short := h }
  else .error (Key.fault (.longSegment (Utf8.encode name).length))

/-- What all keys of the map start with. -/
def root (m : RecordMap K V) : Bytes := Key.withLength (Utf8.encode m.name)

/-- The key of a record in the store. -/
def fullKey (m : RecordMap K V) (k : K) : Except Fault Bytes :=
  (m.root ++ ·) <$> m.key.encode k

/-- Reads a stored record. -/
def readRecord (m : RecordMap K V) (raw : Bytes) : Except Fault V := m.shape.readBytes m.name raw

/-- Whether there is a record under a key. -/
def has (m : RecordMap K V) (s : Store) (k : K) : Except Fault Bool := do
  let key ← m.fullKey k
  .ok (s.get? key).isSome

/-- The record under a key, if there is one. -/
def load? (m : RecordMap K V) (s : Store) (k : K) : Except Fault (Option V) := do
  let key ← m.fullKey k
  match s.get? key with
  | none => .ok none
  | some raw => some <$> m.readRecord raw

/-- The store with a record under a key. -/
def save (m : RecordMap K V) (s : Store) (k : K) (v : V) : Except Fault Store := do
  let key ← m.fullKey k
  .ok (s.set key (m.toJson v).toBytes)

/-- The store without a record under a key. -/
def delete (m : RecordMap K V) (s : Store) (k : K) : Except Fault Store := do
  let key ← m.fullKey k
  .ok (s.remove key)

/-- Reads an entry of the store that belongs to the map. -/
def readEntry (m : RecordMap K V) (e : Entry) : Except Fault (K × V) := do
  let k ← m.key.decode (e.1.drop m.root.length)
  let v ← m.readRecord e.2
  .ok (k, v)

/-- All records with their keys. -/
def entries (m : RecordMap K V) (s : Store) (order : Store.Order) : Except Fault (List (K × V)) :=
  (s.range (some m.root) (Key.above m.root) order).mapM m.readEntry

end RecordMap

end TokenLedger
