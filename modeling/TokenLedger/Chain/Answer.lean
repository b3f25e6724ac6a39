import TokenLedger.Json.Shape
import TokenLedger.Message.Basic

/-!
# Shapes of native answers

What the bank and the contracts answer with, as those who ask read it.
-/

namespace TokenLedger

namespace WireCoin

/-- A coin with its amount as text. -/
def shape : Shape WireCoin :=
  Shape.object fun members =>
    WireCoin.mk <$> Shape.member "denom" .text members <*> Shape.member "amount" .text members

/-- The JSON form of a coin. -/
def toJson (coin : WireCoin) : Json :=
  .obj [("denom", .str coin.denom), ("amount", .str coin.amount)]

end WireCoin

namespace Answer

/-- One coin, as the amount of a balance or of a supply. -/
def coin : Shape WireCoin :=
  Shape.object fun members => Shape.member "amount" WireCoin.shape members

/-- The coins of an account. -/
def coins : Shape (List WireCoin) :=
  Shape.object fun members => Shape.member "amount" (.array WireCoin.shape) members

/-- What is known about a contract. -/
structure ContractInfo where
  codeId : Number
  creator : String
  admin : Option String
  pinned : Bool
  ibcPort : Option String
deriving Repr

/-- A contract's information. -/
def contractInfo : Shape ContractInfo :=
  Shape.object fun members =>
    ContractInfo.mk
      <$> Shape.member "code_id" .number members
      <*> Shape.member "creator" .text members
      <*> Shape.optionalMember "admin" .text members
      <*> Shape.member "pinned" .boolean members
      <*> Shape.optionalMember "ibc_port" .text members

end Answer

end TokenLedger
