import TokenLedger.Wire.Schema

/-!
# Parts shared by messages

Coins, data blobs and page requests are nested in the messages of several modules.
-/

namespace TokenLedger

open Wire

/-- A coin on the wire; its amount is a text that nobody has checked. -/
structure WireCoin where
  denom : String
  amount : String
deriving DecidableEq, Repr, Inhabited

/-- Typed data of a class or a token. -/
structure Blob where
  typeUrl : String
  value : Bytes
deriving DecidableEq, Repr, Inhabited

/-- Which part of a listing is asked for. -/
structure PageRequest where
  key : Bytes
  offset : Int
  limit : Int
  countTotal : Bool
  reverse : Bool
deriving DecidableEq, Repr, Inhabited

/-- The fields of a coin. -/
def WireCoin.schema : Schema WireCoin where
  Row := String × String × Unit
  layout := .cons (.text "denom") <| .cons (.text "amount") .nil
  toRow c := (c.denom, c.amount, ())
  ofRow := fun (denom, amount, ()) => { denom, amount }

/-- The fields of a blob. -/
def Blob.schema : Schema Blob where
  Row := String × Bytes × Unit
  layout := .cons (.text "type_url") <| .cons (.bytes "value") .nil
  toRow b := (b.typeUrl, b.value, ())
  ofRow := fun (typeUrl, value, ()) => { typeUrl, value }

/-- The fields of a page request. -/
def PageRequest.schema : Schema PageRequest where
  Row := Bytes × Int × Int × Bool × Bool × Unit
  layout :=
    .cons (.bytes "key") <| .cons (.integer "offset") <| .cons (.integer "limit") <|
    .cons (.flag "count_total") <| .cons (.flag "reverse") .nil
  toRow p := (p.key, p.offset, p.limit, p.countTotal, p.reverse, ())
  ofRow := fun (key, offset, limit, countTotal, reverse, ()) =>
    { key, offset, limit, countTotal, reverse }

end TokenLedger
