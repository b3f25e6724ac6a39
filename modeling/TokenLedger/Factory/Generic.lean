import TokenLedger.Factory.Rules
import TokenLedger.Message.Denom

/-!
# The generic token factory

Denoms `factory/<creator>/<subdenom>`.  Anybody may create a denom in their own name for a fee; the
one named in the denom mints it and burns it.  The factory's record is written last, after every
check and every call to the host.
-/

namespace TokenLedger.Factory.Generic

/-! ### Records -/

/-- Who created a denom. -/
structure CreatedDenom where
  creator : String
  subdenom : String
deriving DecidableEq, Repr

namespace CreatedDenom

/-- The stored form. -/
def toJson (d : CreatedDenom) : Json :=
  .obj [("creator", .str d.creator), ("subdenom", .str d.subdenom)]

/-- The shape of the stored form. -/
def shape : Shape CreatedDenom :=
  Shape.object fun members =>
    CreatedDenom.mk <$> Shape.member "creator" .text members
      <*> Shape.member "subdenom" .text members

end CreatedDenom

/-- Created denoms by their full names. -/
def createdDenoms : RecordMap String CreatedDenom where
  name := "tokenfactory/created_denoms"
  key := Key.text
  shape := CreatedDenom.shape
  toJson := CreatedDenom.toJson
  short := by decide

/-! ### Messages -/

/-- A message to the factory. -/
inductive Message
  | create (m : CreateDenom)
  | mint (m : MintDenom)
  | burn (m : BurnDenom)
deriving DecidableEq, Repr

/-- Reads a message of a type. -/
def Message.ofWire (typeUrl : String) (value : Bytes) : Except Fault Message :=
  if typeUrl = CreateDenom.typeUrl then .create <$> CreateDenom.codec.decode value
  else if typeUrl = MintDenom.typeUrl then .mint <$> MintDenom.codec.decode value
  else if typeUrl = BurnDenom.typeUrl then .burn <$> BurnDenom.codec.decode value
  else .error (.unsupported (.messageType typeUrl))

/-! ### Handlers -/

/-- The name that the factory logs under. -/
def source : String := "token-factory"

variable (config : FactoryConfig) (host : Host) (sender : String)

/-- The full name of a denom. -/
def denomOf (creator subdenom : String) : String :=
  config.denomPrefix ++ "/" ++ creator ++ "/" ++ subdenom

/-- Creates a denom. -/
def create (m : CreateDenom) : Action Response := do
  Action.ofExcept (checkNewDenom config m.subdenom m.sender sender)
  let denom := denomOf config m.sender m.subdenom
  ensureNoSupply host denom
  let _ ← chargeFee host config .generic sender
  Action.write fun s => createdDenoms.save s denom ⟨m.sender, m.subdenom⟩
  Action.log source [("denom", .str denom), ("creator", .str m.sender)] "created denom"
  let data ← Action.ofExcept (CreateDenomResponse.codec.encode ⟨denom⟩)
  pure ⟨[⟨"create_denom", [("creator", m.sender), ("new_token_denom", denom)]⟩], some data⟩

/-- Checks who mints or burns a denom.  A denom is refused for its form only when it neither has
three parts nor starts with the factory's prefix. -/
def authorize (denom messageSender : String) (action : TokenAction) : Except Fault Unit :=
  let parts := parts '/' denom
  if parts.length ≠ 3 ∧ parts[0]? ≠ some config.denomPrefix then
    .error (.invalid (.denomForm denom))
  else if parts[1]? ≠ some sender then .error (.unauthorized (.notCreator action denom))
  else if sender ≠ messageSender then .error (.unauthorized .notSender)
  else .ok ()

/-- The coin of a message that has to have one. -/
def requiredAmount : Option WireCoin → Except Fault WireCoin
  | some coin => .ok coin
  | none => .error (.invalid .noAmount)

/-- Mints a created denom. -/
def mint (m : MintDenom) : Action Response := do
  let coin ← Action.ofExcept (requiredAmount m.amount)
  let denom := coin.denom
  Action.ofExcept (authorize config sender denom m.sender .mint)
  let created ← Action.read fun s => createdDenoms.has s denom
  Action.require created (.notFound (.createdDenom denom))
  let amount ← Action.ofExcept (positiveAmount coin.amount)
  let recipient := orElse m.mintToAddress m.sender
  let _ ← mintCoin host recipient ⟨denom, amount⟩
  Action.log source
    [("denom", .str denom), ("amount", .str amount.repr), ("recipient", .str recipient)] "minted"
  pure ⟨[⟨"tf_mint", [("sender", m.sender), ("mint_to_address", m.mintToAddress),
    ("recipient", recipient), ("denom", denom), ("amount", amount.repr)]⟩], some []⟩

/-- Burns a denom of the sender. -/
def burn (m : BurnDenom) : Action Response := do
  let coin ← Action.ofExcept (requiredAmount m.amount)
  let denom := coin.denom
  Action.ofExcept (authorize config sender denom m.sender .burn)
  let amount ← Action.ofExcept (positiveAmount coin.amount)
  let _ ← burnCoin host sender ⟨denom, amount⟩
  Action.log source [("denom", .str denom), ("amount", .str amount.repr)] "burned"
  pure ⟨[⟨"tf_burn", [("burn_from_address", sender), ("amount", amount.repr)]⟩], some []⟩

/-- Handles a message. -/
def handle : Message → Action Response
  | .create m => create config host sender m
  | .mint m => mint config host sender m
  | .burn m => burn config host sender m

/-- Reads a message and handles it. -/
def execute (typeUrl : String) (value : Bytes) : Action Response := do
  let message ← Action.ofExcept (Message.ofWire typeUrl value)
  handle config host sender message

end TokenLedger.Factory.Generic
