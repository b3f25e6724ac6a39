import TokenLedger.Chain.Action
import TokenLedger.Chain.Response

/-!
# Hosts

A token factory reaches the bank through its host.  A host may do anything with the store; the bank
itself is one.
-/

namespace TokenLedger

/-- What a module can ask of the chain it runs in. -/
structure Host where
  query : BankQuery → Store → Noted Bytes
  execute : (sender : String) → BankMessage → Action Response
  mint : MintOrder → Action Response

/-- What a module can ask while it answers a query.  Asking itself fails only where a failure
cannot be put into words. -/
abbrev Querier := NativeQuery → Except Fault NativeAnswer

/-- The bytes of an answer; a failure to reach a contract is told from a failure inside. -/
def NativeAnswer.get : NativeAnswer → Except Fault Bytes
  | .bytes b => .ok b
  | .contractError text => .error (.contractQuery text)
  | .systemError text => .error (.systemQuery text)

end TokenLedger
