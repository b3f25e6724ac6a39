import TokenLedger.Chain.Answer
import TokenLedger.Chain.Host
import TokenLedger.Config.Factory
import TokenLedger.Store.RecordMap
import TokenLedger.Text.IntegerLiteral
import TokenLedger.Text.Units

/-!
# Rules shared by the token factories

The checks on a new denom, the fee it costs and the calls to the host that change balances.
-/

namespace TokenLedger.Factory

/-- Checks the parts of a new denom: lengths, the characters of the creator, and that the creator
is the sender. -/
def checkNewDenom (config : FactoryConfig) (subdenom creator sender : String) :
    Except Fault Unit :=
  if config.maxSubdenomLength < Text.units subdenom then
    .error (.invalid (.longSubdenom config.maxSubdenomLength))
  else if config.maxCreatorLength < Text.units creator then
    .error (.invalid (.longCreator config.maxCreatorLength))
  else if '/' ∈ creator.toList then .error (.invalid .creatorSlash)
  else if creator ≠ sender then .error (.unauthorized .creatorNotSender)
  else .ok ()

/-- Reads a supply out of an answer. -/
def readSupply (raw : Bytes) : Except Fault Int := do
  let coin ← Answer.coin.readBytes "SupplyResponse" raw
  match IntegerLiteral.read coin.amount with
  | .ok n => .ok n
  | .error e => .error (.badText e)

/-- Asks the host how much of a denom there is. -/
def querySupply (host : Host) (denom : String) : Action Int := do
  let raw ← Action.ask (host.query (.supply denom))
  Action.ofExcept (readSupply raw)

/-- Fails when there is some of a denom already. -/
def ensureNoSupply (host : Host) (denom : String) : Action Unit := do
  let supply ← querySupply host denom
  Action.require (supply = 0) (.invalid (.denomExists denom))

/-- Burns a coin of the sender. -/
def burnCoin (host : Host) (sender : String) (coin : Coin) : Action Response :=
  host.execute sender (.burn [coin])

/-- Mints a coin for an account. -/
def mintCoin (host : Host) (recipient : String) (coin : Coin) : Action Response :=
  host.mint ⟨recipient, [coin]⟩

/-- Burns the creation fee of the sender. -/
def chargeFee (host : Host) (config : FactoryConfig) (variant : Variant) (sender : String) :
    Action Response := do
  let fee ← Action.ofExcept (Coin.ofText variant config.creationFee)
  burnCoin host sender fee

/-- Reads an amount that has to be positive. -/
def positiveAmount (text : String) : Except Fault Nat := do
  let n ← readAmount text "amount"
  if n = 0 then .error (.invalid .zeroAmount) else .ok n

/-- The parts of a text between separators. -/
def parts (separator : Char) (s : String) : List String :=
  (s.toList.splitOn separator).map String.ofList

/-- A text with a fallback for the empty one. -/
def orElse (s fallback : String) : String := if s = "" then fallback else s

end TokenLedger.Factory
