import TokenLedger.Address
import TokenLedger.Bank
import TokenLedger.Chain.Contract
import TokenLedger.Chain.Module

/-!
# Chains

A chain has a bank, a stargate module, perhaps a custom module, a block and contracts; everything
that messages change is in its store.  A transaction either succeeds or leaves the store as it was.
-/

namespace TokenLedger

/-- A chain without its store. -/
structure Chain where
  stargate : StargateModule
  custom : Option CustomModule
  block : Block
  contracts : List (String × Contract)

/-- A message to a chain. -/
inductive Message
  | bank (message : BankMessage)
  | stargate (typeUrl : String) (value : Bytes)
  | custom
deriving DecidableEq, Repr

/-- The kind of a message. -/
def Message.kind : Message → String
  | .bank _ => "bank"
  | .stargate .. => "stargate"
  | .custom => "custom"

/-- A privileged order to a chain. -/
inductive SudoMessage
  | mint (order : MintOrder)
  | stargate
deriving DecidableEq, Repr

/-- A query of a chain. -/
inductive Query
  | native (query : NativeQuery)
  | stargate (path : String) (data : Bytes)
  | custom (request : Json)
deriving Repr

namespace Chain

/-! ### Contracts -/

/-- The contract at an address. -/
def contract? (c : Chain) (address : String) : Option Contract :=
  (c.contracts.find? (·.1 == address)).map (·.2)

/-- Asks a contract or about one. -/
def queryContract (c : Chain) (s : Store) (q : ContractQuery) : Except Fault Bytes :=
  match c.contract? q.address with
  | none => .error (.notFound (.contract q.address))
  | some contract =>
    match q with
    | .smart _ message => contract.answer message s c.block
    | .info _ => .ok contract.info.toBytes

/-- Puts a contract at an address. -/
def register (c : Chain) (address : String) (contract : Contract) : Except Fault Chain := do
  let address ← Address.validate address
  .ok { c with contracts := (address, contract) :: c.contracts.filter (·.1 != address) }

/-! ### Queries -/

/-- Answers a native query. -/
def queryNative (c : Chain) (s : Store) : NativeQuery → Except Fault Bytes
  | .bank q => Bank.query s q
  | .contract q => c.queryContract s q

/-- The contract that a native query needs and that is not there. -/
def missingContract? (c : Chain) : NativeQuery → Option String
  | .bank _ => none
  | .contract q => if (c.contract? q.address).isNone then some q.address else none

/-- Answers a native query and tells failures apart. -/
def querier (c : Chain) (s : Store) : Querier := fun q =>
  match c.missingContract? q with
  | some address => .ok (.systemError (Fault.notFound (.contract address)).message)
  | none =>
    match c.queryNative s q with
    | .ok b => .ok (.bytes b)
    | .error e => .contractError <$> e.text

/-- Answers a query. -/
def query (c : Chain) (s : Store) : Query → Noted Bytes
  | .native q => Noted.ofExcept (c.queryNative s q)
  | .stargate path data => c.stargate.query (c.querier s) c.block s path data
  | .custom request =>
    match c.custom with
    | some m => m.query s request
    | none => Noted.fail (.unsupported .noCustomQuery)

/-- Answers a query and tells failures apart; only a missing contract is a failure of the system. -/
def rawQuery (c : Chain) (s : Store) (q : Query) : Noted NativeAnswer :=
  match q with
  | .native q => Noted.ofExcept (c.querier s q)
  | _ =>
    let answer := c.query s q
    match answer.result with
    | .ok b => ⟨.ok (.bytes b), answer.notes⟩
    | .error e => ⟨.contractError <$> e.text, answer.notes⟩

/-! ### Messages -/

/-- Runs a message of a sender. -/
def execute (c : Chain) (sender : String) : Message → Action Response
  | .bank message => Bank.execute sender message
  | .stargate typeUrl value => c.stargate.execute Bank.host sender typeUrl value
  | .custom =>
    match c.custom with
    | some m => m.execute
    | none => Action.fail (.unsupported .noCustomExecute)

/-- Carries out a privileged order. -/
def executeSudo (c : Chain) : SudoMessage → Action Response
  | .mint order => Bank.mint order
  | .stargate => c.stargate.executeSudo

/-! ### Transactions -/

/-- The log line of a transaction. -/
def transactionNote (sender : String) (message : Message) (result : Except Fault Response) : Note :=
  let members := [("sender", Json.str sender), ("kind", .str message.kind)]
  match result with
  | .ok response =>
    .log ⟨"app", members ++ [("events", .num (Number.ofNat response.events.length))], "executed"⟩
  | .error e => .log ⟨"app", members ++ [("err", .str e.message)], "rolled back"⟩

/-- Runs a message as a transaction. -/
def executeTx (c : Chain) (sender : String) (message : Message) : Action Response := fun s =>
  let o := (c.execute sender message).orUndo s
  { o with notes := o.notes ++ [transactionNote sender message o.result] }

/-- Carries out a privileged order as a transaction. -/
def executeSudoTx (c : Chain) (message : SudoMessage) : Action Response :=
  (c.executeSudo message).orUndo

/-! ### Setting up -/

/-- Replaces the balances of an account. -/
def initBalance (address : String) (coins : List Coin) : Action Unit := do
  let address ← Action.ofExcept (Address.validate address)
  Bank.initBalance address coins

/-- Gives accounts their balances, one after another. -/
def seed : List (String × List Coin) → Action Unit
  | [] => pure ()
  | (address, coins) :: rest => do
    initBalance address coins
    seed rest

/-- The chain in its next block. -/
def nextBlock (c : Chain) : Chain := { c with block := c.block.next }

end Chain

end TokenLedger
