import TokenLedger.Message.Basic

/-!
# Messages of the asset modules

Fungible tokens `<subunit>-<issuer>`, classes of NFTs `<symbol>-<issuer>` and the NFTs themselves.
-/

namespace TokenLedger

open Wire

/-! ### Fungible tokens -/

/-- Asks for a new fungible token. -/
structure IssueToken where
  issuer : String
  symbol : String
  subunit : String
  precision : Int
  initialAmount : String
  description : String
  features : List Int
  burnRate : String
  sendCommissionRate : String
  uri : String
  uriHash : String
deriving DecidableEq, Repr

/-- Every field zero. -/
def IssueToken.empty : IssueToken where
  issuer := ""
  symbol := ""
  subunit := ""
  precision := 0
  initialAmount := ""
  description := ""
  features := []
  burnRate := ""
  sendCommissionRate := ""
  uri := ""
  uriHash := ""

instance : Inhabited IssueToken := ⟨.empty⟩

/-- Asks for more of a token; an empty recipient stands for the sender. -/
structure MintToken where
  sender : String
  coin : Option WireCoin
  recipient : String
deriving DecidableEq, Repr, Inhabited

/-- Asks to destroy some of a token. -/
structure BurnToken where
  sender : String
  coin : Option WireCoin
deriving DecidableEq, Repr, Inhabited

/-- The type URL of `IssueToken`. -/
def IssueToken.typeUrl : String := "/coreum.asset.ft.v1.MsgIssue"

/-- The wire form of `IssueToken`. -/
def IssueToken.codec : Codec IssueToken where
  typeName := "MsgIssue"
  schema :=
    { Row := String × String × String × Int × String × String × List Int × String × String ×
        String × String × Unit
      layout :=
        .cons (.text "issuer") <| .cons (.text "symbol") <| .cons (.text "subunit") <|
        .cons (.word "precision") <| .cons (.text "initial_amount") <|
        .cons (.text "description") <| .cons (.repeated "features" (.word "item")) <|
        .cons (.text "burn_rate") <| .cons (.text "send_commission_rate") <|
        .cons (.text "uri") <| .cons (.text "uri_hash") .nil
      toRow := fun m => (m.issuer, m.symbol, m.subunit, m.precision, m.initialAmount,
        m.description, m.features, m.burnRate, m.sendCommissionRate, m.uri, m.uriHash, ())
      ofRow := fun (issuer, symbol, subunit, precision, initialAmount, description, features,
          burnRate, sendCommissionRate, uri, uriHash, ()) =>
        { issuer, symbol, subunit, precision, initialAmount, description, features, burnRate,
          sendCommissionRate, uri, uriHash } }

/-- The type URL of `MintToken`. -/
def MintToken.typeUrl : String := "/coreum.asset.ft.v1.MsgMint"

/-- The wire form of `MintToken`. -/
def MintToken.codec : Codec MintToken where
  typeName := "MsgMint"
  schema :=
    { Row := String × Option WireCoin × String × Unit
      layout :=
        .cons (.text "sender") <| .cons (WireCoin.schema.optional "coin") <|
        .cons (.text "recipient") .nil
      toRow := fun m => (m.sender, m.coin, m.recipient, ())
      ofRow := fun (sender, coin, recipient, ()) => { sender, coin, recipient } }

/-- The type URL of `BurnToken`. -/
def BurnToken.typeUrl : String := "/coreum.asset.ft.v1.MsgBurn"

/-- The wire form of `BurnToken`. -/
def BurnToken.codec : Codec BurnToken where
  typeName := "MsgBurn"
  schema :=
    { Row := String × Option WireCoin × Unit
      layout := .cons (.text "sender") <| .cons (WireCoin.schema.optional "coin") .nil
      toRow := fun m => (m.sender, m.coin, ())
      ofRow := fun (sender, coin, ()) => { sender, coin } }

/-! ### NFTs -/

/-- Asks for a new class of NFTs. -/
structure IssueClass where
  issuer : String
  symbol : String
  name : String
  description : String
  uri : String
  uriHash : String
  data : Option Blob
  features : List Int
  royaltyRate : String
deriving DecidableEq, Repr, Inhabited

/-- Asks for a new NFT of a class; an empty recipient stands for the sender. -/
structure MintNft where
  sender : String
  classId : String
  id : String
  uri : String
  uriHash : String
  data : Option Blob
  recipient : String
deriving DecidableEq, Repr, Inhabited

/-- Asks to destroy an NFT. -/
structure BurnNft where
  sender : String
  classId : String
  id : String
deriving DecidableEq, Repr, Inhabited

/-- Asks to hand an NFT over. -/
structure SendNft where
  classId : String
  id : String
  sender : String
  receiver : String
deriving DecidableEq, Repr, Inhabited

/-- The type URL of `IssueClass`. -/
def IssueClass.typeUrl : String := "/coreum.asset.nft.v1.MsgIssueClass"

/-- The wire form of `IssueClass`. -/
def IssueClass.codec : Codec IssueClass where
  typeName := "MsgIssueClass"
  schema :=
    { Row := String × String × String × String × String × String × Option Blob × List Int ×
        String × Unit
      layout :=
        .cons (.text "issuer") <| .cons (.text "symbol") <| .cons (.text "name") <|
        .cons (.text "description") <| .cons (.text "uri") <| .cons (.text "uri_hash") <|
        .cons (Blob.schema.optional "data") <|
        .cons (.repeated "features" (.feature "item")) <| .cons (.text "royalty_rate") .nil
      toRow := fun m => (m.issuer, m.symbol, m.name, m.description, m.uri, m.uriHash, m.data,
        m.features, m.royaltyRate, ())
      ofRow := fun (issuer, symbol, name, description, uri, uriHash, data, features,
          royaltyRate, ()) =>
        { issuer, symbol, name, description, uri, uriHash, data, features, royaltyRate } }

/-- The type URL of `MintNft`. -/
def MintNft.typeUrl : String := "/coreum.asset.nft.v1.MsgMint"

/-- The wire form of `MintNft`. -/
def MintNft.codec : Codec MintNft where
  typeName := "MsgMint (NFT)"
  schema :=
    { Row := String × String × String × String × String × Option Blob × String × Unit
      layout :=
        .cons (.text "sender") <| .cons (.text "class_id") <| .cons (.text "id") <|
        .cons (.text "uri") <| .cons (.text "uri_hash") <|
        .cons (Blob.schema.optional "data") <| .cons (.text "recipient") .nil
      toRow := fun m => (m.sender, m.classId, m.id, m.uri, m.uriHash, m.data, m.recipient, ())
      ofRow := fun (sender, classId, id, uri, uriHash, data, recipient, ()) =>
        { sender, classId, id, uri, uriHash, data, recipient } }

/-- The type URL of `BurnNft`. -/
def BurnNft.typeUrl : String := "/coreum.asset.nft.v1.MsgBurn"

/-- The wire form of `BurnNft`. -/
def BurnNft.codec : Codec BurnNft where
  typeName := "MsgBurn (NFT)"
  schema :=
    { Row := String × String × String × Unit
      layout := .cons (.text "sender") <| .cons (.text "class_id") <| .cons (.text "id") .nil
      toRow := fun m => (m.sender, m.classId, m.id, ())
      ofRow := fun (sender, classId, id, ()) => { sender, classId, id } }

/-- The type URL of `SendNft`. -/
def SendNft.typeUrl : String := "/cosmos.nft.v1beta1.MsgSend"

/-- The wire form of `SendNft`. -/
def SendNft.codec : Codec SendNft where
  typeName := "MsgSend (NFT)"
  schema :=
    { Row := String × String × String × String × Unit
      layout :=
        .cons (.text "class_id") <| .cons (.text "id") <| .cons (.text "sender") <|
        .cons (.text "receiver") .nil
      toRow := fun m => (m.classId, m.id, m.sender, m.receiver, ())
      ofRow := fun (classId, id, sender, receiver, ()) => { classId, id, sender, receiver } }

end TokenLedger
