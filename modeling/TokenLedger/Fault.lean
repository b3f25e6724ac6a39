import TokenLedger.Json.Issue
import TokenLedger.Json.Misread
import TokenLedger.Rlp.Decoder
import TokenLedger.Text.Units

/-!
# Faults

Everything that can go wrong, as causes.  What is shown of a fault follows from its cause: the
class it belongs to, a code and a context for the classes that have them, and the wording.
-/

namespace TokenLedger

/-! ### Causes -/

/-- What is wrong with one field of a wire message. -/
inductive FieldCause
  | expectedBytes
  | expectedList
  | nonCanonical
  | tooLarge
deriving Repr

/-- Why bytes do not decode. -/
inductive DecodeCause
  | rlp (error : Rlp.Error)
  | notList
  | field (name : String) (cause : FieldCause)
  | unknownFeature (code : Nat)
  | longSegment (length : Nat)
  | shortPair
  | truncatedPair
  | notJson
  | shape (issues : List Issue)
deriving Repr

/-- What a token operation does. -/
inductive TokenAction
  | mint
  | burn
deriving DecidableEq, Repr

/-- A name field of a new token. -/
inductive NameField
  | subunit
  | symbol
deriving DecidableEq, Repr

/-- Why a request is invalid. -/
inductive Invalid
  | emptyAddress
  | addressNotNormal (input : String)
  | coinForm (input : String)
  | coinTooLarge (digits input : String)
  | amountForm (what text : String)
  | amountTooLarge (what text : String)
  | overflow (held added : Int) (denom : String)
  | noRecipient
  | config (variant : String) (issues : List Issue)
  | environment (issues : List Issue)
  | longSubdenom (limit : Nat)
  | longCreator (limit : Nat)
  | creatorSlash
  | denomExists (denom : String)
  | denomForm (denom : String)
  | noAmount
  | zeroAmount
  | noCoin (action : TokenAction)
  | assetName (field : NameField) (value : String)
  | classExists (classId : String)
  | nftExists (classId id : String)
  | noReceiver
deriving Repr

/-- Why somebody may not do something. -/
inductive Refusal
  | creatorNotSender
  | notCreator (action : TokenAction) (denom : String)
  | notIssuer (action : TokenAction) (denom : String)
  | notSender
  | issuerNotSender
  | notTxSender
  | notClassIssuer (classId : String)
  | mayNotBurn (classId id : String)
  | soulbound (classId id : String)
  | notOwner (classId id : String)
deriving Repr

/-- What is not there. -/
inductive Missing
  | createdDenom (denom : String)
  | issuedDenom (action : TokenAction) (denom : String)
  | classToMint (classId : String)
  | liveClass (classId : String)
  | liveNft (classId id : String)
  | nft (classId id : String)
  | nftClass (id : String)
  | token (denom : String)
  | contract (address : String)
deriving Repr

/-- What nobody handles. -/
inductive Unsupported
  | messageType (typeUrl : String)
  | handler (typeUrl : String)
  | execute (typeUrl : String) (value : Bytes)
  | query (path : String) (data : Bytes)
  | queryPath (path : String)
  | noCustomExecute
  | noCustomQuery
  | customExecute
  | category (envelope : Json)
  | variant (label : String) (request : Json)
deriving Repr

/-- A text that is no notation of what it should be. -/
inductive BadText
  | base64Character
  | base64End
  | integer (text : String)
  | json (misread : Json.Misread)
deriving Repr

/-- Why a number does not go on the wire. -/
inductive BadInteger
  | negative (n : Int)
  /-- A negative integer that was handed in as a binary64 number. -/
  | negativeNumber (n : Number)
  | fraction (n : Number)
deriving Repr

/-- Everything that can go wrong. -/
inductive Fault
  | decode (typeName : String) (cause : DecodeCause)
  | invalid (cause : Invalid)
  | unauthorized (cause : Refusal)
  | notFound (cause : Missing)
  | insufficient (held wanted : Int) (denom : String)
  | unsupported (cause : Unsupported)
  | contractQuery (text : String)
  | systemQuery (text : String)
  /-- A failure that a script or a contract raises. -/
  | raised (text : String)
  /-- Something thrown that is not a failure, by its text if it has one. -/
  | thrown (text : Option String)
  /-- Something thrown had to be put into words and has none. -/
  | noText
  | badInteger (cause : BadInteger)
  | badText (cause : BadText)
deriving Repr

/-! ### Wording -/

/-- The wording of a field's cause. -/
def FieldCause.message : FieldCause → String
  | .expectedBytes => "expected bytes, got list"
  | .expectedList => "expected list, got bytes"
  | .nonCanonical => "non-canonical integer"
  | .tooLarge => "out of u32 range"

/-- The wording of a decoding cause. -/
def DecodeCause.message : DecodeCause → String
  | .rlp error => error.message
  | .notList => "expected an RLP list"
  | .field name cause => "field " ++ name ++ ": " ++ cause.message
  | .unknownFeature code => "unknown class feature " ++ code.repr
  | .longSegment length => "key segment too long (" ++ length.repr ++ " bytes)"
  | .shortPair => "pair key shorter than its prefix"
  | .truncatedPair => "pair key truncated"
  | .notJson => "invalid JSON"
  | .shape issues => Issue.messages issues

/-- The verb of an action. -/
def TokenAction.verb : TokenAction → String
  | .mint => "mint"
  | .burn => "burn"

/-- The name of an action's message. -/
def TokenAction.messageName : TokenAction → String
  | .mint => "MsgMint"
  | .burn => "MsgBurn"

/-- The name of a name field. -/
def NameField.name : NameField → String
  | .subunit => "subunit"
  | .symbol => "symbol"

/-- A text between backquotes. -/
def backquoted (s : String) : String := "`" ++ s ++ "`"

/-- A class id and a token id. -/
def nftName (classId id : String) : String := classId ++ "/" ++ id

/-- The wording of an invalid request. -/
def Invalid.message : Invalid → String
  | .emptyAddress => "Invalid input: empty address"
  | .addressNotNormal _ => "Invalid input: address not normalized"
  | .coinForm _ => "Invalid sdk string"
  | .coinTooLarge digits _ => "amount " ++ digits ++ " does not fit in 128 bits"
  | .amountForm what text => "invalid " ++ what ++ " " ++ backquoted text
  | .amountTooLarge what text =>
    "invalid " ++ what ++ " " ++ backquoted text ++ ": number too large"
  | .overflow held added _ =>
    "Overflow: Cannot Add with " ++ Decimal.ofInt held ++ " and " ++ Decimal.ofInt added
  | .noRecipient => "Invalid recipient: empty address"
  | .config _ issues => "Invalid token factory config: " ++ Issue.messages issues
  | .environment issues => "Invalid environment: " ++ Issue.messages issues
  | .longSubdenom limit =>
    "Subdenom length is too long, max length is " ++ (Number.ofNat limit).toText
  | .longCreator limit =>
    "Creator length is too long, max length is " ++ (Number.ofNat limit).toText
  | .creatorSlash => "Invalid creator address, creator address cannot contains '/'"
  | .denomExists _ => "Subdenom already exists"
  | .denomForm _ => "Invalid denom"
  | .noAmount => "missing amount"
  | .zeroAmount => "Invalid zero amount"
  | .noCoin action => action.messageName ++ ".coin is None"
  | .assetName field _ =>
    field.name ++ " must match regex format '^[a-zA-Z][a-zA-Z0-9/:._-]\x7b2,127\x7d$'" ++
      ": invalid input"
  | .classExists classId => "NFT class already exists: " ++ classId
  | .nftExists classId id => "NFT already minted: " ++ nftName classId id
  | .noReceiver => "MsgSend.receiver is empty"

/-- The wording of a refusal. -/
def Refusal.message : Refusal → String
  | .creatorNotSender =>
    "Invalid creator address, creator address must be the same as the sender"
  | .notCreator action _ =>
    "Unauthorized " ++ action.verb ++ ". Not the creator of the denom."
  | .notIssuer action _ => "Unauthorized " ++ action.verb ++ ". Not the issuer of the denom."
  | .notSender => "Invalid sender. Sender in msg must be same as sender of transaction."
  | .issuerNotSender => "Invalid issuer. issuer in msg must match sender."
  | .notTxSender => "Invalid sender. sender in msg must match tx sender."
  | .notClassIssuer classId =>
    "Unauthorized mint. Not the issuer of class " ++ backquoted classId
  | .mayNotBurn classId id =>
    "Unauthorized burn. Only owner or issuer can burn " ++ nftName classId id
  | .soulbound classId id =>
    "Unauthorized send. Only issuer can send soulbound " ++ nftName classId id
  | .notOwner classId id => "Unauthorized send. Only owner can send " ++ nftName classId id

/-- The wording for something missing. -/
def Missing.message : Missing → String
  | .createdDenom denom => "Mint for unknown token factory denom " ++ backquoted denom
  | .issuedDenom action denom =>
    action.messageName ++ " for unknown Coreum FT denom " ++ backquoted denom
  | .classToMint classId => "MsgMint for unknown Coreum NFT class " ++ backquoted classId
  | .liveClass classId => "Class id not found: " ++ classId
  | .liveNft classId id => "NFT not found: " ++ nftName classId id
  | .nft classId id => "NFT not found for " ++ nftName classId id
  | .nftClass id => "NFT class not found for id " ++ backquoted id
  | .token denom => "FT not found for denom " ++ backquoted denom
  | .contract address => "No such contract: " ++ address

/-- The wording for something that nobody handles. -/
def Unsupported.message : Unsupported → String
  | .messageType typeUrl => "Unknown message type " ++ typeUrl
  | .handler typeUrl => "No stargate exec handler for " ++ typeUrl
  | .execute typeUrl value =>
    "Unexpected stargate execute: type=" ++ typeUrl ++ ", value=" ++ value.toHex
  | .query path data => "Unexpected stargate query: path=" ++ path ++ ", data=" ++ data.toHex
  | .queryPath path => "Unsupported query path " ++ path
  | .noCustomExecute => "Unexpected custom exec msg: no custom module"
  | .noCustomQuery => "Unexpected custom query: no custom module"
  | .customExecute => "CoreumQueryModule execute is not implemented"
  | .category envelope => "Coreum query not implemented: " ++ envelope.toText
  | .variant label request => "Coreum " ++ label ++ " query not implemented: " ++ request.toText

/-- So many units of a bad notation are quoted at most. -/
def quotedUnits : Nat := 1000

/-- The wording for a bad notation. -/
def BadText.message : BadText → String
  | .base64Character => "Non-base64pad character"
  | .base64End => "Unexpected end of data"
  | .integer text => "Cannot convert " ++ Text.shortened quotedUnits text ++ " to a BigInt"
  | .json misread => misread.message

/-- The wording for a number that does not go on the wire. -/
def BadInteger.message : BadInteger → String
  | .negative n => "cannot encode negative integer " ++ Decimal.ofInt n
  | .negativeNumber n => "cannot encode negative integer " ++ n.toText
  | .fraction n =>
    "The number " ++ n.toText ++ " cannot be converted to a BigInt because it is not an integer"

/-- The wording where there is no text. -/
def noTextMessage : String := "Cannot convert object to primitive value"

namespace Fault

/-- The wording of a fault. -/
def message : Fault → String
  | .decode typeName cause => "failed to decode " ++ typeName ++ ": " ++ cause.message
  | .invalid cause => cause.message
  | .unauthorized cause => cause.message
  | .notFound cause => cause.message
  | .insufficient held wanted _ =>
    "Cannot Sub with " ++ Decimal.ofInt held ++ " and " ++ Decimal.ofInt wanted
  | .unsupported cause => cause.message
  | .contractQuery text => text
  | .systemQuery text => "Querier system error: " ++ text
  | .raised text => text
  | .thrown text => text.getD noTextMessage
  | .noText => noTextMessage
  | .badInteger cause => cause.message
  | .badText cause => cause.message

/-- The class of a fault. -/
def name : Fault → String
  | .decode .. => "DecodeError"
  | .invalid _ => "ValidationError"
  | .unauthorized _ => "UnauthorizedError"
  | .notFound _ => "NotFoundError"
  | .insufficient .. => "InsufficientFundsError"
  | .unsupported _ => "UnsupportedError"
  | .contractQuery _ => "ContractQueryError"
  | .systemQuery _ => "SystemQueryError"
  | .raised _ => "Error"
  | .thrown _ => "NonError"
  | .noText => "TypeError"
  | .badInteger _ => "RangeError"
  | .badText _ => "SyntaxError"

/-- The code of a fault; faults that the library does not define have none. -/
def code? : Fault → Option String
  | .decode .. => some "DECODE"
  | .invalid _ => some "VALIDATION"
  | .unauthorized _ => some "UNAUTHORIZED"
  | .notFound _ => some "NOT_FOUND"
  | .insufficient .. => some "INSUFFICIENT_FUNDS"
  | .unsupported _ => some "UNSUPPORTED"
  | .contractQuery _ => some "CONTRACT_QUERY"
  | .systemQuery _ => some "SYSTEM_QUERY"
  | .raised _ | .thrown _ | .noText | .badInteger _ | .badText _ => none

/-- What is passed on of a fault: its wording; a thrown value without a text is a fault of its
own. -/
def text : Fault → Except Fault String
  | .thrown none => .error .noText
  | e => .ok e.message

end Fault

/-! ### Context -/

/-- The class id and the token id of an NFT as context. -/
def nftContext (classId id : String) : List (String × String) :=
  [("classId", classId), ("id", id)]

/-- What an invalid request is about; empty when nothing is attached. -/
def Invalid.context : Invalid → List (String × String)
  | .addressNotNormal input | .coinForm input | .coinTooLarge _ input => [("input", input)]
  | .overflow _ _ denom | .denomExists denom | .denomForm denom => [("denom", denom)]
  | .config variant _ => [("variant", variant)]
  | .assetName field value => [(field.name, value)]
  | .classExists classId => [("classId", classId)]
  | .nftExists classId id => nftContext classId id
  | .emptyAddress | .amountForm .. | .amountTooLarge .. | .noRecipient | .environment _
  | .longSubdenom _ | .longCreator _ | .creatorSlash | .noAmount | .zeroAmount | .noCoin _
  | .noReceiver => []

/-- What a refusal is about. -/
def Refusal.context : Refusal → List (String × String)
  | .notCreator _ denom | .notIssuer _ denom => [("denom", denom)]
  | .notClassIssuer classId => [("classId", classId)]
  | .mayNotBurn classId id | .soulbound classId id | .notOwner classId id =>
    nftContext classId id
  | .creatorNotSender | .notSender | .issuerNotSender | .notTxSender => []

/-- What is missing. -/
def Missing.context : Missing → List (String × String)
  | .createdDenom denom | .issuedDenom _ denom | .token denom => [("denom", denom)]
  | .classToMint classId | .liveClass classId => [("classId", classId)]
  | .liveNft classId id | .nft classId id => nftContext classId id
  | .nftClass id => [("id", id)]
  | .contract address => [("addr", address)]

/-- What nobody handles. -/
def Unsupported.context : Unsupported → List (String × String)
  | .messageType typeUrl | .handler typeUrl | .execute typeUrl _ => [("typeUrl", typeUrl)]
  | .query path _ | .queryPath path => [("path", path)]
  | .noCustomExecute | .noCustomQuery | .customExecute | .category _ | .variant .. => []

/-- The context of a fault; empty when nothing is attached. -/
def Fault.context : Fault → List (String × String)
  | .decode typeName _ => [("typeName", typeName)]
  | .invalid cause => cause.context
  | .unauthorized cause => cause.context
  | .notFound cause => cause.context
  | .insufficient _ _ denom => [("denom", denom)]
  | .unsupported cause => cause.context
  | .contractQuery _ | .systemQuery _ | .raised _ | .thrown _ | .noText | .badInteger _
  | .badText _ => []

end TokenLedger
