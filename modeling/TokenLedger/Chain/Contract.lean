import TokenLedger.Chain.Response
import TokenLedger.Fault
import TokenLedger.Json.Display
import TokenLedger.Store.RecordMap

/-!
# Contracts

A contract answers queries with bytes or fails; it can see the store and the block.  What is known
about it besides is passed on as it was given.
-/

namespace TokenLedger

/-- A contract. -/
structure Contract where
  /-- Passed on as given, also when it is no number; may be missing. -/
  codeId : Option Json
  /-- Passed on as given, also when it is no text; may be missing. -/
  creator : Option Json
  admin : Json
  ibcPort : Json
  answer : Bytes → Store → Block → Except Fault Bytes

namespace Contract

/-- What is known about a contract. -/
def info (c : Contract) : Json :=
  .obj ((c.codeId.toList.map fun j => ("code_id", j)) ++
    (c.creator.toList.map fun j => ("creator", j)) ++
    [("admin", c.admin), ("pinned", .bool false), ("ibc_port", c.ibcPort)])

/-! ### Behaviours -/

/-- A ready-made way to answer. -/
inductive Behavior
  /-- Looks the text of the query up. -/
  | table (entries : List (String × String))
  /-- Answers with the query. -/
  | echo
  /-- Answers with fixed bytes. -/
  | fixed (b : Bytes)
  /-- Fails with a text. -/
  | raise (text : String)
  /-- Throws a value that is not a failure. -/
  | throwValue (value : Json)
  /-- Tells the block and the number of records. -/
  | host
deriving Repr

/-- The answer of a behaviour. -/
def Behavior.answer (message : Bytes) (s : Store) (block : Block) :
    Behavior → Except Fault Bytes
  | .table entries =>
    let text := Utf8.decode message
    match entries.find? (·.1 == text) with
    | some (_, reply) => .ok (Utf8.encode reply)
    | none => .error (.raised ("unknown query " ++ text))
  | .echo => .ok message
  | .fixed b => .ok b
  | .raise text => .error (.raised text)
  | .throwValue value => .error (.thrown value.display?)
  | .host =>
    .ok (Json.obj [("height", .num block.height), ("time", .str (Decimal.ofInt block.time)),
      ("chain_id", .str block.chainId), ("records", .num (Number.ofNat s.size))]).toBytes

end Contract

end TokenLedger
