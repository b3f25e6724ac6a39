import TokenLedger.Message.Asset
import TokenLedger.Store.RecordMap
import TokenLedger.Text.Base64
import TokenLedger.Text.Lowercase

/-!
# Records of assets

What is kept of issued tokens, of classes and of live NFTs, and where.
-/

namespace TokenLedger.Asset

/-! ### Blobs -/

/-- A stored blob; its value is base64. -/
structure StoredBlob where
  typeUrl : String
  value : String
deriving DecidableEq, Repr

namespace StoredBlob

/-- The stored form of a message's blob. -/
def ofBlob (b : Blob) : StoredBlob := ⟨b.typeUrl, Base64.encode b.value⟩

/-- The JSON form. -/
def toJson (b : StoredBlob) : Json := .obj [("typeUrl", .str b.typeUrl), ("value", .str b.value)]

/-- The shape of the JSON form. -/
def shape : Shape StoredBlob :=
  Shape.object fun members =>
    StoredBlob.mk <$> Shape.member "typeUrl" .text members <*> Shape.member "value" .text members

/-- The JSON form of a blob that may be absent. -/
def optionJson : Option StoredBlob → Json
  | none => .null
  | some b => b.toJson

end StoredBlob

/-! ### Fungible tokens -/

/-- An issued token: the message that issued it. -/
structure IssuedToken where
  issuer : String
  symbol : String
  subunit : String
  precision : Number
  initialAmount : String
  description : String
  features : List Number
  burnRate : String
  sendCommissionRate : String
  uri : String
  uriHash : String
deriving DecidableEq, Repr

namespace IssuedToken

/-- What is kept of a message. -/
def ofMessage (m : IssueToken) : IssuedToken where
  issuer := m.issuer
  symbol := m.symbol
  subunit := m.subunit
  precision := Number.ofInt m.precision
  initialAmount := m.initialAmount
  description := m.description
  features := m.features.map Number.ofInt
  burnRate := m.burnRate
  sendCommissionRate := m.sendCommissionRate
  uri := m.uri
  uriHash := m.uriHash

/-- The JSON form. -/
def toJson (t : IssuedToken) : Json :=
  .obj [("issuer", .str t.issuer), ("symbol", .str t.symbol), ("subunit", .str t.subunit),
    ("precision", .num t.precision), ("initialAmount", .str t.initialAmount),
    ("description", .str t.description), ("features", .arr (t.features.map .num)),
    ("burnRate", .str t.burnRate), ("sendCommissionRate", .str t.sendCommissionRate),
    ("uri", .str t.uri), ("uriHash", .str t.uriHash)]

/-- The shape of the JSON form. -/
def shape : Shape IssuedToken :=
  Shape.object fun members =>
    IssuedToken.mk
      <$> Shape.member "issuer" .text members
      <*> Shape.member "symbol" .text members
      <*> Shape.member "subunit" .text members
      <*> Shape.member "precision" .number members
      <*> Shape.member "initialAmount" .text members
      <*> Shape.member "description" .text members
      <*> Shape.member "features" (.array .number) members
      <*> Shape.member "burnRate" .text members
      <*> Shape.member "sendCommissionRate" .text members
      <*> Shape.member "uri" .text members
      <*> Shape.member "uriHash" .text members

end IssuedToken

/-- Issued tokens by denom. -/
def issuedTokens : RecordMap String IssuedToken where
  name := "coreum_assetft/issued"
  key := Key.text
  shape := IssuedToken.shape
  toJson := IssuedToken.toJson
  short := by decide

/-- The denom of a token. -/
def denomOf (subunit issuer : String) : String := subunit ++ "-" ++ issuer

/-! ### Classes -/

/-- What may be done with the NFTs of a class. -/
inductive ClassFeature
  | burning
  | freezing
  | whitelisting
  | disableSending
  | soulbound
deriving DecidableEq, Repr

namespace ClassFeature

/-- The number of a feature. -/
def code : ClassFeature → Nat
  | .burning => 0
  | .freezing => 1
  | .whitelisting => 2
  | .disableSending => 3
  | .soulbound => 4

/-- All features, in the order of their numbers. -/
def all : List ClassFeature := [.burning, .freezing, .whitelisting, .disableSending, .soulbound]

/-- The feature of a number. -/
def ofCode? (n : Int) : Option ClassFeature := all.find? fun f => (f.code : Int) == n

/-- The JSON form. -/
def toJson (f : ClassFeature) : Json := .num (Number.ofNat f.code)

/-- The shape of the JSON form. -/
def shape : Shape ClassFeature :=
  Shape.oneOf (all.map fun f => f.code.repr) fun
    | .num n => n.toInt?.bind ofCode?
    | _ => none

end ClassFeature

/-- A class of NFTs. -/
structure StoredClass where
  issuer : String
  symbol : String
  name : String
  description : String
  uri : String
  uriHash : String
  data : Option StoredBlob
  features : List ClassFeature
  royaltyRate : String
deriving DecidableEq, Repr

namespace StoredClass

/-- What is kept of a message. -/
def ofMessage (m : IssueClass) : StoredClass where
  issuer := m.issuer
  symbol := m.symbol
  name := m.name
  description := m.description
  uri := m.uri
  uriHash := m.uriHash
  data := m.data.map StoredBlob.ofBlob
  features := m.features.filterMap ClassFeature.ofCode?
  royaltyRate := m.royaltyRate

/-- The JSON form. -/
def toJson (c : StoredClass) : Json :=
  .obj [("issuer", .str c.issuer), ("symbol", .str c.symbol), ("name", .str c.name),
    ("description", .str c.description), ("uri", .str c.uri), ("uriHash", .str c.uriHash),
    ("data", StoredBlob.optionJson c.data), ("features", .arr (c.features.map ClassFeature.toJson)),
    ("royaltyRate", .str c.royaltyRate)]

/-- The shape of the JSON form. -/
def shape : Shape StoredClass :=
  Shape.object fun members =>
    StoredClass.mk
      <$> Shape.member "issuer" .text members
      <*> Shape.member "symbol" .text members
      <*> Shape.member "name" .text members
      <*> Shape.member "description" .text members
      <*> Shape.member "uri" .text members
      <*> Shape.member "uriHash" .text members
      <*> Shape.member "data" (.nullable StoredBlob.shape) members
      <*> Shape.member "features" (.array ClassFeature.shape) members
      <*> Shape.member "royaltyRate" .text members

end StoredClass

/-- Classes by their ids. -/
def classes : RecordMap String StoredClass where
  name := "coreum_assetnft/issued_classes"
  key := Key.text
  shape := StoredClass.shape
  toJson := StoredClass.toJson
  short := by decide

/-- The id of a class. -/
def classIdOf (symbol issuer : String) : String := Text.lowercase symbol ++ "-" ++ issuer

/-! ### NFTs -/

/-- A live NFT. -/
structure StoredNft where
  classId : String
  id : String
  owner : String
  uri : String
  data : Option StoredBlob
deriving DecidableEq, Repr

namespace StoredNft

/-- What is kept of a message, for the account that owns the NFT. -/
def ofMessage (m : MintNft) (owner : String) : StoredNft where
  classId := m.classId
  id := m.id
  owner := owner
  uri := m.uri
  data := m.data.map StoredBlob.ofBlob

/-- The JSON form. -/
def toJson (n : StoredNft) : Json :=
  .obj [("classId", .str n.classId), ("id", .str n.id), ("owner", .str n.owner),
    ("uri", .str n.uri), ("data", StoredBlob.optionJson n.data)]

/-- The shape of the JSON form. -/
def shape : Shape StoredNft :=
  Shape.object fun members =>
    StoredNft.mk
      <$> Shape.member "classId" .text members
      <*> Shape.member "id" .text members
      <*> Shape.member "owner" .text members
      <*> Shape.member "uri" .text members
      <*> Shape.member "data" (.nullable StoredBlob.shape) members

end StoredNft

/-- Live NFTs by class and id. -/
def nfts : RecordMap (String × String) StoredNft where
  name := "coreum_assetnft/minted"
  key := Key.pair
  shape := StoredNft.shape
  toJson := StoredNft.toJson
  short := by decide

end TokenLedger.Asset
