import TokenLedger.Asset.Query
import TokenLedger.Factory.Rules

/-!
# The Coreum token factory

Fungible tokens, classes of NFTs and NFTs.  A token's and a class's issuer is part of its name; only
the issuer mints.  An owner sends and burns an NFT, unless a feature of the class says otherwise.
The factory's records are written last, after every check and every call to the host.
-/

namespace TokenLedger.Factory.Coreum

open Asset

/-! ### Messages -/

/-- A message to the factory. -/
inductive Message
  | issue (m : IssueToken)
  | mint (m : MintToken)
  | burn (m : BurnToken)
  | issueClass (m : IssueClass)
  | mintNft (m : MintNft)
  | burnNft (m : BurnNft)
  | sendNft (m : SendNft)
deriving DecidableEq, Repr

/-- Reads a message of a type. -/
def Message.ofWire (typeUrl : String) (value : Bytes) : Except Fault Message :=
  if typeUrl = IssueToken.typeUrl then .issue <$> IssueToken.codec.decode value
  else if typeUrl = MintToken.typeUrl then .mint <$> MintToken.codec.decode value
  else if typeUrl = BurnToken.typeUrl then .burn <$> BurnToken.codec.decode value
  else if typeUrl = IssueClass.typeUrl then .issueClass <$> IssueClass.codec.decode value
  else if typeUrl = MintNft.typeUrl then .mintNft <$> MintNft.codec.decode value
  else if typeUrl = BurnNft.typeUrl then .burnNft <$> BurnNft.codec.decode value
  else if typeUrl = SendNft.typeUrl then .sendNft <$> SendNft.codec.decode value
  else .error (.unsupported (.messageType typeUrl))

/-! ### Names -/

/-- Whether a character may stand in the name of an asset behind the first one. -/
def isNameChar (c : Char) : Bool :=
  isAlphanumeric c || c == '/' || c == ':' || c == '.' || c == '_' || c == '-'

/-- Whether a text is the name of an asset: a letter and 2 to 127 name characters. -/
def isAssetName (s : String) : Bool :=
  match s.toList with
  | c :: rest =>
    (isLowerLetter c || isUpperLetter c) && 2 ≤ rest.length && rest.length ≤ 127 &&
      rest.all isNameChar
  | [] => false

/-- Checks a name field of a new token. -/
def checkAssetName (field : NameField) (value : String) : Except Fault Unit :=
  if isAssetName value then .ok () else .error (.invalid (.assetName field value))

/-- The issuer in a denom, which has exactly two parts. -/
def issuerOf (denom : String) : Except Fault String :=
  match parts '-' denom with
  | [_, issuer] => .ok issuer
  | _ => .error (.invalid (.denomForm denom))

/-! ### Fungible tokens -/

/-- The name that the factory logs under. -/
def source : String := "coreum-token-factory"

variable (config : FactoryConfig) (host : Host) (sender : String)

/-- Mints the initial amount of a new token for its issuer, if it has one. -/
def mintInitial (denom : String) (m : IssueToken) : Action (List Event) :=
  if m.initialAmount = "" then pure []
  else do
    let amount ← Action.ofExcept (readAmount m.initialAmount "initial_amount")
    if amount = 0 then pure []
    else
      let response ← mintCoin host m.issuer ⟨denom, amount⟩
      pure response.events

/-- Issues a token. -/
def issue (m : IssueToken) : Action Response := do
  Action.ofExcept (checkNewDenom config m.subunit m.issuer sender)
  Action.ofExcept (checkAssetName .subunit m.subunit)
  Action.ofExcept (checkAssetName .symbol m.symbol)
  let denom := Asset.denomOf m.subunit m.issuer
  ensureNoSupply host denom
  let _ ← chargeFee host config .coreum sender
  let minted ← mintInitial host denom m
  Action.write fun s => issuedTokens.save s denom (.ofMessage m)
  Action.log source [("denom", .str denom), ("issuer", .str m.issuer)] "issued fungible token"
  pure ⟨minted ++ [⟨"/coreum.asset.ft.v1.EventIssued",
    [("denom", denom), ("issuer", m.issuer)]⟩], none⟩

/-- The coin of a message that has to have one. -/
def requiredCoin (action : TokenAction) : Option WireCoin → Except Fault WireCoin
  | some coin => .ok coin
  | none => .error (.invalid (.noCoin action))

/-- Checks who mints or burns a token. -/
def authorize (denom messageSender : String) (action : TokenAction) : Except Fault Unit := do
  let issuer ← issuerOf denom
  if issuer ≠ sender then .error (.unauthorized (.notIssuer action denom))
  else if sender ≠ messageSender then .error (.unauthorized .notSender)
  else .ok ()

/-- Checks that a denom was issued. -/
def requireIssued (denom : String) (action : TokenAction) : Action Unit := do
  let issued ← Action.read fun s => issuedTokens.has s denom
  Action.require issued (.notFound (.issuedDenom action denom))

/-- Mints an issued token. -/
def mint (m : MintToken) : Action Response := do
  let coin ← Action.ofExcept (requiredCoin .mint m.coin)
  let denom := coin.denom
  Action.ofExcept (authorize sender denom m.sender .mint)
  requireIssued denom .mint
  let amount ← Action.ofExcept (positiveAmount coin.amount)
  let recipient := orElse m.recipient m.sender
  let response ← mintCoin host recipient ⟨denom, amount⟩
  Action.log source
    [("denom", .str denom), ("amount", .str amount.repr), ("recipient", .str recipient)]
    "minted fungible token"
  pure ⟨response.events ++ [⟨"tf_mint", [("sender", m.sender), ("recipient", recipient),
    ("denom", denom), ("amount", amount.repr)]⟩], none⟩

/-- Burns an issued token of the sender. -/
def burn (m : BurnToken) : Action Response := do
  let coin ← Action.ofExcept (requiredCoin .burn m.coin)
  let denom := coin.denom
  Action.ofExcept (authorize sender denom m.sender .burn)
  requireIssued denom .burn
  let amount ← Action.ofExcept (positiveAmount coin.amount)
  let response ← burnCoin host sender ⟨denom, amount⟩
  Action.log source [("denom", .str denom), ("amount", .str amount.repr)]
    "burned fungible token"
  pure ⟨response.events ++
    [⟨"tf_burn", [("burn_from_address", sender), ("amount", amount.repr)]⟩], none⟩

/-! ### NFTs -/

/-- A class id and a token id as log members. -/
def nftMembers (classId id : String) : List (String × Json) :=
  [("classId", .str classId), ("id", .str id)]

/-- Issues a class. -/
def issueClass (m : IssueClass) : Action Response := do
  Action.require (m.issuer = sender) (.unauthorized .issuerNotSender)
  let classId := classIdOf m.symbol m.issuer
  let taken ← Action.read fun s => classes.has s classId
  Action.require (!taken) (.invalid (.classExists classId))
  Action.write fun s => classes.save s classId (.ofMessage m)
  Action.log source [("classId", .str classId), ("issuer", .str m.issuer)] "issued NFT class"
  pure ⟨[⟨"/coreum.asset.nft.v1.EventClassIssued",
    [("class_id", classId), ("issuer", m.issuer)]⟩], none⟩

/-- The class that an NFT is minted in. -/
def classToMint (classId : String) (s : Store) : Except Fault StoredClass := do
  match ← classes.load? s classId with
  | some c => .ok c
  | none => .error (.notFound (.classToMint classId))

/-- Mints an NFT. -/
def mintNft (m : MintNft) : Action Response := do
  Action.require (m.sender = sender) (.unauthorized .notTxSender)
  let c ← Action.read (classToMint m.classId)
  Action.require (c.issuer = sender) (.unauthorized (.notClassIssuer m.classId))
  let taken ← Action.read fun s => nfts.has s (m.classId, m.id)
  Action.require (!taken) (.invalid (.nftExists m.classId m.id))
  let owner := orElse m.recipient m.sender
  Action.write fun s => nfts.save s (m.classId, m.id) (.ofMessage m owner)
  Action.log source (nftMembers m.classId m.id ++ [("owner", .str owner)]) "minted NFT"
  pure ⟨[⟨"/coreum.asset.nft.v1.EventMinted",
    [("class_id", m.classId), ("id", m.id), ("owner", owner)]⟩], none⟩

/-- A live NFT with its class. -/
def loadLive (classId id : String) (s : Store) : Except Fault (StoredClass × StoredNft) := do
  match ← classes.load? s classId with
  | none => .error (.notFound (.liveClass classId))
  | some c =>
    match ← nfts.load? s (classId, id) with
    | none => .error (.notFound (.liveNft classId id))
    | some n => .ok (c, n)

/-- Burns an NFT. -/
def burnNft (m : BurnNft) : Action Response := do
  Action.require (m.sender = sender) (.unauthorized .notTxSender)
  let (c, n) ← Action.read (loadLive m.classId m.id)
  let issuerMayBurn := c.features.contains .burning && c.issuer == sender
  Action.log source
    (nftMembers m.classId m.id ++ [("owner", .str n.owner), ("sender", .str sender),
      ("issuerMayBurn", .bool issuerMayBurn)]) "burning NFT"
  Action.require (n.owner == sender || issuerMayBurn)
    (.unauthorized (.mayNotBurn m.classId m.id))
  Action.write fun s => nfts.delete s (m.classId, m.id)
  pure ⟨[⟨"/coreum.asset.nft.v1.EventBurned",
    [("class_id", m.classId), ("id", m.id), ("owner", sender)]⟩], none⟩

/-- Checks who sends an NFT: the issuer when the class is soulbound, else the owner. -/
def checkSender (m : SendNft) (c : StoredClass) (n : StoredNft) : Except Fault Unit :=
  if c.features.contains .soulbound then
    if c.issuer ≠ sender then .error (.unauthorized (.soulbound m.classId m.id)) else .ok ()
  else if m.sender ≠ sender then .error (.unauthorized .notTxSender)
  else if n.owner ≠ sender then .error (.unauthorized (.notOwner m.classId m.id))
  else .ok ()

/-- Sends an NFT. -/
def sendNft (m : SendNft) : Action Response := do
  let (c, n) ← Action.read (loadLive m.classId m.id)
  Action.ofExcept (checkSender sender m c n)
  Action.require (m.receiver != "") (.invalid .noReceiver)
  Action.write fun s => nfts.save s (m.classId, m.id) { n with owner := m.receiver }
  Action.log source
    (nftMembers m.classId m.id ++ [("from", .str n.owner), ("to", .str m.receiver)]) "sent NFT"
  pure ⟨[⟨"/coreum.asset.nft.v1.EventSent",
    [("class_id", m.classId), ("id", m.id), ("sender", m.sender), ("receiver", m.receiver)]⟩],
    none⟩

/-! ### Dispatch -/

/-- Handles a message. -/
def handle : Message → Action Response
  | .issue m => issue config host sender m
  | .mint m => mint host sender m
  | .burn m => burn host sender m
  | .issueClass m => issueClass sender m
  | .mintNft m => mintNft sender m
  | .burnNft m => burnNft sender m
  | .sendNft m => sendNft sender m

/-- Reads a message and handles it. -/
def execute (typeUrl : String) (value : Bytes) : Action Response := do
  let message ← Action.ofExcept (Message.ofWire typeUrl value)
  handle config host sender message

/-- Reads the request of a query path and answers it. -/
def query (s : Store) (path : String) (data : Bytes) : Except Fault Bytes :=
  if path = TokenRequest.path then do
    let request ← TokenRequest.codec.decode data
    let token ← showToken config.feeDenom s request.denom
    .ok (Json.obj [("token", token)]).toBytes
  else if path = TokensRequest.path then do
    let request ← TokensRequest.codec.decode data
    let tokens ← showTokens s (filterOf request.issuer)
    .ok (Json.obj [("tokens", .arr tokens), ("pagination", emptyPage)]).toBytes
  else if path = ClassRequest.path then do
    let request ← ClassRequest.codec.decode data
    let cls ← loadClass s request.id
    .ok (Json.obj [("class", cls.view request.id)]).toBytes
  else if path = ClassesRequest.path then do
    let request ← ClassesRequest.codec.decode data
    let listed ← listClasses s (filterOf request.issuer)
    let views := listed.map fun (id, cls) => cls.view id
    .ok (Json.obj [("classes", .arr views), ("pagination", emptyPage)]).toBytes
  else if path = NftRequest.path then do
    let request ← NftRequest.codec.decode data
    let nft ← loadNft s request.classId request.id
    .ok (Json.obj [("nft", nft.view)]).toBytes
  else if path = NftsRequest.path then do
    let request ← NftsRequest.codec.decode data
    let listed ← listNfts s (filterOf request.classId) (filterOf request.owner)
    .ok (Json.obj [("nfts", .arr (listed.map StoredNft.view)), ("pagination", emptyPage)]).toBytes
  else if path = OwnerRequest.path then do
    let request ← OwnerRequest.codec.decode data
    let nft ← loadNft s request.classId request.id
    .ok (Json.obj [("owner", .str nft.owner)]).toBytes
  else .error (.unsupported (.queryPath path))

end TokenLedger.Factory.Coreum
