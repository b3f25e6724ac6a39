import TokenLedger.Message.Basic

/-!
# Messages of the generic token factory

Denoms of the form `factory/<creator>/<subdenom>`: created, minted and burned by their creator.
-/

namespace TokenLedger

open Wire

/-- Asks for a new denom. -/
structure CreateDenom where
  sender : String
  subdenom : String
deriving DecidableEq, Repr, Inhabited

/-- Answers with the full name of a new denom. -/
structure CreateDenomResponse where
  newTokenDenom : String
deriving DecidableEq, Repr, Inhabited

/-- Asks for more of a denom; an empty recipient stands for the sender. -/
structure MintDenom where
  sender : String
  amount : Option WireCoin
  mintToAddress : String
deriving DecidableEq, Repr, Inhabited

/-- Asks to destroy some of a denom. -/
structure BurnDenom where
  sender : String
  amount : Option WireCoin
  burnFromAddress : String
deriving DecidableEq, Repr, Inhabited

/-- The type URL of `CreateDenom`. -/
def CreateDenom.typeUrl : String := "/osmosis.tokenfactory.v1beta1.MsgCreateDenom"

/-- The wire form of `CreateDenom`. -/
def CreateDenom.codec : Codec CreateDenom where
  typeName := "MsgCreateDenom"
  schema :=
    { Row := String × String × Unit
      layout := .cons (.text "sender") <| .cons (.text "subdenom") .nil
      toRow := fun m => (m.sender, m.subdenom, ())
      ofRow := fun (sender, subdenom, ()) => { sender, subdenom } }

/-- The wire form of `CreateDenomResponse`. -/
def CreateDenomResponse.codec : Codec CreateDenomResponse where
  typeName := "MsgCreateDenomResponse"
  schema :=
    { Row := String × Unit
      layout := .cons (.text "new_token_denom") .nil
      toRow := fun m => (m.newTokenDenom, ())
      ofRow := fun (newTokenDenom, ()) => { newTokenDenom } }

/-- The type URL of `MintDenom`. -/
def MintDenom.typeUrl : String := "/osmosis.tokenfactory.v1beta1.MsgMint"

/-- The wire form of `MintDenom`. -/
def MintDenom.codec : Codec MintDenom where
  typeName := "MsgMint"
  schema :=
    { Row := String × Option WireCoin × String × Unit
      layout :=
        .cons (.text "sender") <| .cons (WireCoin.schema.optional "amount") <|
        .cons (.text "mint_to_address") .nil
      toRow := fun m => (m.sender, m.amount, m.mintToAddress, ())
      ofRow := fun (sender, amount, mintToAddress, ()) => { sender, amount, mintToAddress } }

/-- The type URL of `BurnDenom`. -/
def BurnDenom.typeUrl : String := "/osmosis.tokenfactory.v1beta1.MsgBurn"

/-- The wire form of `BurnDenom`. -/
def BurnDenom.codec : Codec BurnDenom where
  typeName := "MsgBurn"
  schema :=
    { Row := String × Option WireCoin × String × Unit
      layout :=
        .cons (.text "sender") <| .cons (WireCoin.schema.optional "amount") <|
        .cons (.text "burn_from_address") .nil
      toRow := fun m => (m.sender, m.amount, m.burnFromAddress, ())
      ofRow := fun (sender, amount, burnFromAddress, ()) => { sender, amount, burnFromAddress } }

end TokenLedger
