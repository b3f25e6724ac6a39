import TokenLedger.Asset.Record

/-!
# Views of assets

How assets are shown in answers.
-/

namespace TokenLedger.Asset

/-- How a fungible token is shown; what is not kept has a fixed value. -/
def tokenView (denom issuer symbol subunit : String) (precision : Number) (description : String) :
    Json :=
  .obj [("denom", .str denom), ("issuer", .str issuer), ("symbol", .str symbol),
    ("subunit", .str subunit), ("precision", .num precision), ("description", .str description),
    ("globally_frozen", .bool false), ("features", .arr []), ("burn_rate", .str "0"),
    ("send_commission_rate", .str "0"), ("version", .num (Number.ofNat 0)), ("uri", .str ""),
    ("uri_hash", .str ""), ("extension_cw_address", .null), ("admin", .null)]

/-- An issued token as it is shown. -/
def IssuedToken.view (denom : String) (t : IssuedToken) : Json :=
  tokenView denom t.issuer t.symbol t.subunit t.precision t.description

/-- The native token as it is shown. -/
def nativeView (denom : String) : Json :=
  tokenView denom "" "CORE" denom (Number.ofNat 6) "Native Coreum token"

/-- The value of a blob as it is shown. -/
def blobView : Option StoredBlob → Json
  | none => .null
  | some b => .str b.value

/-- A class as it is shown. -/
def StoredClass.view (id : String) (c : StoredClass) : Json :=
  .obj [("id", .str id), ("issuer", .str c.issuer), ("name", .str c.name),
    ("symbol", .str c.symbol), ("description", .str c.description), ("uri", .str c.uri),
    ("uri_hash", .str c.uriHash), ("features", .arr (c.features.map ClassFeature.toJson)),
    ("data", blobView c.data), ("royalty_rate", .str "0")]

/-- An NFT as it is shown. -/
def StoredNft.view (n : StoredNft) : Json :=
  .obj [("class_id", .str n.classId), ("id", .str n.id),
    ("uri", if n.uri = "" then .null else .str n.uri), ("uri_hash", .null),
    ("data", blobView n.data)]

/-- The page of a listing, which always is all of it. -/
def emptyPage : Json := .obj [("next_key", .null), ("total", .num (Number.ofNat 0))]

end TokenLedger.Asset
