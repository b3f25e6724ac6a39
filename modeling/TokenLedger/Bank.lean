import TokenLedger.Chain.Host
import TokenLedger.Store.RecordMap

/-!
# The bank

Balances by account and denom.  A balance of zero is not stored, and the supply of a denom is the
sum of its balances, so that minting and burning need no books of their own.  Coin lists are worked
through one coin at a time.
-/

namespace TokenLedger.Bank

/-! ### Records -/

/-- The stored form of an amount: a string of decimal digits. -/
def amountJson (n : Int) : Json := .str (Decimal.ofInt n)

/-- The shape of a stored amount. -/
def amountShape : Shape Int := fun j => (Shape.digits j).map Int.ofNat

/-- Balances by account and denom. -/
def balances : RecordMap (String × String) Int where
  name := "bank/balances"
  key := Key.pair
  shape := amountShape
  toJson := amountJson
  short := by decide

/-! ### Views -/

/-- How much of a denom an account has. -/
def balance (s : Store) (address denom : String) : Except Fault Int :=
  (·.getD 0) <$> balances.load? s (address, denom)

/-- What an account has, in the order of the store. -/
def allBalances (s : Store) (address : String) : Except Fault (List Coin) := do
  let all ← balances.entries s .ascending
  .ok ((all.filter (·.1.1 == address)).map fun ((_, denom), amount) => ⟨denom, amount⟩)

/-- How much of a denom there is. -/
def supply (s : Store) (denom : String) : Except Fault Int := do
  let all ← balances.entries s .ascending
  .ok ((all.filter (·.1.2 == denom)).foldl (fun sum e => sum + e.2) 0)

/-! ### Changes -/

/-- The store with a balance set; zero takes the record away. -/
def setBalance (address denom : String) (amount : Int) (s : Store) : Except Fault Store :=
  if amount = 0 then balances.delete s (address, denom)
  else balances.save s (address, denom) amount

/-- The store with a coin added to an account. -/
def addCoin (address : String) (coin : Coin) (s : Store) : Except Fault Store := do
  let held ← balance s address coin.denom
  if maxAmount < held + coin.amount then
    .error (.invalid (.overflow held coin.amount coin.denom))
  else setBalance address coin.denom (held + coin.amount) s

/-- The store with a coin taken from an account. -/
def subCoin (address : String) (coin : Coin) (s : Store) : Except Fault Store := do
  let held ← balance s address coin.denom
  if held < coin.amount then .error (.insufficient held coin.amount coin.denom)
  else setBalance address coin.denom (held - coin.amount) s

/-- Adds coins to an account, one after another. -/
def add (address : String) : List Coin → Action Unit
  | [] => pure ()
  | coin :: coins => do
    Action.write (addCoin address coin)
    add address coins

/-- Takes coins from an account, one after another. -/
def sub (address : String) : List Coin → Action Unit
  | [] => pure ()
  | coin :: coins => do
    Action.write (subCoin address coin)
    sub address coins

/-- Takes the listed balances of an account away. -/
def clear (address : String) : List Coin → Action Unit
  | [] => pure ()
  | coin :: coins => do
    Action.write (setBalance address coin.denom 0)
    clear address coins

/-- Replaces all balances of an account. -/
def initBalance (address : String) (coins : List Coin) : Action Unit := do
  let held ← Action.read fun s => allBalances s address
  clear address held
  add address coins

/-! ### Messages and queries -/

/-- Runs a message of a sender. -/
def execute (sender : String) : BankMessage → Action Response
  | .send recipient amount => do
    if recipient = "" then Action.fail (.invalid .noRecipient)
    else
      sub sender amount
      add recipient amount
      pure .empty
  | .burn amount => do
    sub sender amount
    pure .empty

/-- Carries out an order to mint. -/
def mint (order : MintOrder) : Action Response := do
  add order.recipient order.amount
  pure .empty

/-- A coin in an answer. -/
def coinJson (coin : Coin) : Json :=
  .obj [("denom", .str coin.denom), ("amount", amountJson coin.amount)]

/-- Answers a query. -/
def query (s : Store) : BankQuery → Except Fault Bytes
  | .balance address denom => do
    let amount ← balance s address denom
    .ok (Json.obj [("amount", coinJson ⟨denom, amount⟩)]).toBytes
  | .allBalances address => do
    let coins ← allBalances s address
    .ok (Json.obj [("amount", .arr (coins.map coinJson))]).toBytes
  | .supply denom => do
    let amount ← supply s denom
    .ok (Json.obj [("amount", coinJson ⟨denom, amount⟩)]).toBytes

/-- The bank as the host of a module. -/
def host : Host where
  query q s := .ofExcept (query s q)
  execute := execute
  mint := mint

end TokenLedger.Bank
