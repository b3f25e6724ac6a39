import TokenLedger.Asset.Query
import TokenLedger.Chain.Action

/-!
# Custom queries of assets

A custom query is a JSON object with one category, which holds an object with one variant, which
holds the arguments.  Seven variants of three categories are answered; whatever else is well formed
is not supported.  The answers are written here, apart from the ones that the factory gives on its
query paths.
-/

namespace TokenLedger.Asset

/-! ### Questions -/

/-- A question about assets, which a custom query asks. -/
inductive Query
  | token (denom : String)
  | tokens (issuer : String)
  | nftClass (id : String)
  | nftClasses (issuer : String)
  | nft (classId id : String)
  | nfts (classId owner : Option String)
  | ownerOf (classId id : String)
deriving DecidableEq, Repr

/-! ### Categories -/

/-- A category of custom queries. -/
inductive Category
  | nft
  | assetNft
  | assetFt
deriving DecidableEq, Repr

namespace Category

/-- The name of a category in a query. -/
def name : Category → String
  | .nft => "nft"
  | .assetNft => "asset_nft"
  | .assetFt => "asset_ft"

/-- The name of a category in faults. -/
def label : Category → String
  | .nft => "NFT"
  | .assetNft => "AssetNFT"
  | .assetFt => "AssetFT"

/-- The category of a name. -/
def ofName? (s : String) : Option Category :=
  [Category.nft, .assetNft, .assetFt].find? fun c => c.name == s

end Category

/-! ### Shapes -/

/-- A value that is checked for having exactly one member. -/
def oneMember {α : Type} (issue : Issue) (shape : Shape (List α)) : Shape (List α) := fun j =>
  (shape j).ensure fun members => [(members.length == 1, issue)]

/-- One category with an object. -/
def envelopeShape : Shape (List (String × List (String × Json))) :=
  oneMember .categoryCount (.record (.record .any))

/-- One variant. -/
def variantShape : Shape (List (String × Json)) := oneMember .variantCount (.record .any)

/-- The arguments that name an NFT. -/
def nftArguments : Shape (String × String) :=
  Shape.object fun members =>
    Prod.mk <$> Shape.member "class_id" .text members <*> Shape.member "id" .text members

/-- The arguments that filter NFTs. -/
def nftsArguments : Shape (Option String × Option String) :=
  Shape.object fun members =>
    Prod.mk <$> Shape.optionalMember "class_id" .text members
      <*> Shape.optionalMember "owner" .text members

/-- A single text argument. -/
def textArgument (name : String) : Shape String := Shape.object (Shape.member name .text)

/-! ### Reading -/

/-- The question that a variant asks with its arguments; `none` when nobody answers it. -/
def readArguments (category : Category) (variant : String) (arguments : Json) :
    Except Fault (Option Query) :=
  let typeName := category.name ++ "." ++ variant
  match category with
  | .nft =>
    if variant = "nft" then
      (fun (classId, id) => some (.nft classId id)) <$> (nftArguments arguments).orFault typeName
    else if variant = "nfts" then
      (fun (classId, owner) => some (.nfts classId owner)) <$>
        (nftsArguments arguments).orFault typeName
    else if variant = "owner" then
      (fun (classId, id) => some (.ownerOf classId id)) <$>
        (nftArguments arguments).orFault typeName
    else .ok none
  | .assetNft =>
    if variant = "class" then
      (fun id => some (.nftClass id)) <$> (textArgument "id" arguments).orFault typeName
    else if variant = "classes" then
      (fun issuer => some (.nftClasses issuer)) <$>
        (textArgument "issuer" arguments).orFault typeName
    else .ok none
  | .assetFt =>
    if variant = "token" then
      (fun denom => some (.token denom)) <$> (textArgument "denom" arguments).orFault typeName
    else if variant = "tokens" then
      (fun issuer => some (.tokens issuer)) <$> (textArgument "issuer" arguments).orFault typeName
    else .ok none

/-- Reads the category of a request and what it holds. -/
def readCategory (request : Json) : Except Fault (Category × List (String × Json)) := do
  let members ← (envelopeShape request).orFault "CoreumQueries"
  let envelope := Json.obj (members.map fun (name, body) => (name, .obj body))
  match members with
  | [(name, body)] =>
    match Category.ofName? name with
    | some category => .ok (category, body)
    | none => .error (.unsupported (.category envelope))
  | _ => .error (.unsupported (.category envelope))

/-- Reads the variant in a category and its arguments. -/
def readVariant (category : Category) (body : List (String × Json)) :
    Except Fault (String × Json) := do
  let members ← (variantShape (.obj body)).orFault (category.label ++ " query")
  match members with
  | [variant] => .ok variant
  | _ => .error (.unsupported (.variant category.label (.obj members)))

/-- Reads a request.  The category and the variant are noted before the arguments are read. -/
def readCustom (request : Json) : Noted Query := do
  let (category, body) ← Noted.ofExcept (readCategory request)
  let (variant, arguments) ← Noted.ofExcept (readVariant category body)
  Noted.note (.log ⟨"coreum-query",
    [("category", .str category.name), ("variant", .str variant)], "custom query"⟩)
  match ← Noted.ofExcept (readArguments category variant arguments) with
  | some q => pure q
  | none => Noted.fail (.unsupported (.variant category.label (.obj [(variant, arguments)])))

/-! ### Answers -/

/-- The answer of the custom module to a question, as JSON. -/
def Query.answerJson (nativeDenom : String) (s : Store) : Query → Except Fault Json
  | .token denom => do
    let token ← showToken nativeDenom s denom
    .ok (.obj [("token", token)])
  | .tokens issuer => do
    let tokens ← showTokens s (filterOf issuer)
    .ok (.obj [("tokens", .arr tokens), ("pagination", emptyPage)])
  | .nftClass id => do
    let c ← loadClass s id
    .ok (.obj [("class", c.view id)])
  | .nftClasses issuer => do
    let all ← listClasses s (filterOf issuer)
    .ok (.obj [("classes", .arr (all.map fun (id, c) => c.view id)), ("pagination", emptyPage)])
  | .nft classId id => do
    let n ← loadNft s classId id
    .ok (.obj [("nft", n.view)])
  | .nfts classId owner => do
    let all ← listNfts s classId owner
    .ok (.obj [("nfts", .arr (all.map StoredNft.view)), ("pagination", emptyPage)])
  | .ownerOf classId id => do
    let n ← loadNft s classId id
    .ok (.obj [("owner", .str n.owner)])

/-- The answer of the custom module to a question. -/
def Query.answer (nativeDenom : String) (s : Store) (q : Query) : Except Fault Bytes :=
  Json.toBytes <$> q.answerJson nativeDenom s

/-- Answers a custom query. -/
def answerCustom (nativeDenom : String) (s : Store) (request : Json) : Noted Bytes := do
  let q ← readCustom request
  Noted.ofExcept (q.answer nativeDenom s)

end TokenLedger.Asset
