import TokenLedger.Coin

/-!
# What a chain is asked

Messages to the bank, privileged orders and native queries.
-/

namespace TokenLedger

/-- A message to the bank. -/
inductive BankMessage
  | send (recipient : String) (amount : List Coin)
  | burn (amount : List Coin)
deriving DecidableEq, Repr

/-- A privileged order to mint coins for an account. -/
structure MintOrder where
  recipient : String
  amount : List Coin
deriving DecidableEq, Repr

/-- A query of the bank. -/
inductive BankQuery
  | balance (address denom : String)
  | allBalances (address : String)
  | supply (denom : String)
deriving DecidableEq, Repr

/-- A query of a contract or about one. -/
inductive ContractQuery
  | smart (address : String) (message : Bytes)
  | info (address : String)
deriving DecidableEq, Repr

/-- The contract that a query names. -/
def ContractQuery.address : ContractQuery → String
  | .smart address _ => address
  | .info address => address

/-- A query that the chain answers without a module. -/
inductive NativeQuery
  | bank (query : BankQuery)
  | contract (query : ContractQuery)
deriving DecidableEq, Repr

/-- What a native query comes to.  A failure to reach a contract is told from a failure inside. -/
inductive NativeAnswer
  | systemError (text : String)
  | contractError (text : String)
  | bytes (b : Bytes)
deriving Repr

end TokenLedger
