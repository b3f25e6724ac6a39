import TokenLedger.Chain.Answer
import TokenLedger.Chain.Host
import TokenLedger.Message.Query
import TokenLedger.Store.RecordMap
import TokenLedger.Text.Base64

/-!
# The query bridge

Five well-known query paths are answered from native queries: balances and supplies from the bank,
contract state and contract information from the contracts.  What a contract fails with reaches the
asker as it is; a contract that is not there is a failure of the system.
-/

namespace TokenLedger.Bridge

/-! ### Requests -/

/-- A bridged query. -/
inductive Request
  | allBalances (address : String)
  | balance (address denom : String)
  | supplyOf (denom : String)
  | smart (address : String) (message : Bytes)
  | info (address : String)
deriving DecidableEq, Repr

namespace Request

/-- Reads the request of a query path; `none` when the path is not bridged. -/
def ofWire? (path : String) (data : Bytes) : Option (Except Fault Request) :=
  if path = AllBalancesRequest.path then
    some ((fun r => .allBalances r.address) <$> AllBalancesRequest.codec.decode data)
  else if path = BalanceRequest.path then
    some ((fun r => .balance r.address r.denom) <$> BalanceRequest.codec.decode data)
  else if path = SupplyOfRequest.path then
    some ((fun r => .supplyOf r.denom) <$> SupplyOfRequest.codec.decode data)
  else if path = SmartContractStateRequest.path then
    some ((fun r => .smart r.address r.queryData) <$> SmartContractStateRequest.codec.decode data)
  else if path = ContractInfoRequest.path then
    some ((fun r => .info r.address) <$> ContractInfoRequest.codec.decode data)
  else none

/-- The native query that a request comes to. -/
def native : Request → NativeQuery
  | .allBalances address => .bank (.allBalances address)
  | .balance address denom => .bank (.balance address denom)
  | .supplyOf denom => .bank (.supply denom)
  | .smart address message => .contract (.smart address message)
  | .info address => .contract (.info address)

/-- The answer to a request, from the bytes of the native answer. -/
def render (raw : Bytes) : Request → Except Fault Json
  | .allBalances _ => do
    let coins ← Answer.coins.readBytes "AllBalanceResponse" raw
    .ok (.obj [("balances", .arr (coins.map WireCoin.toJson)), ("pagination", .null)])
  | .balance _ _ => do
    let coin ← Answer.coin.readBytes "BalanceResponse" raw
    .ok (.obj [("balance", coin.toJson)])
  | .supplyOf _ => do
    let coin ← Answer.coin.readBytes "SupplyResponse" raw
    .ok (.obj [("amount", coin.toJson)])
  | .smart _ _ => .ok (.obj [("data", .str (Base64.encode raw))])
  | .info address => do
    let info ← Answer.contractInfo.readBytes "ContractInfoResponse" raw
    .ok (.obj [("address", .str address),
      ("contract_info", .obj [("code_id", .num info.codeId), ("creator", .str info.creator),
        ("admin", .str (info.admin.getD "")), ("label", .str ""), ("created", .null),
        ("ibc_port_id", .str (info.ibcPort.getD "")), ("extension", .null)])])

/-- The log line of an answered request on a path, if it has one. -/
def logLine? (path : String) : Request → Option LogLine
  | .allBalances address =>
    some (bankLine [("address", .str address)])
  | .balance address denom =>
    some (bankLine [("address", .str address), ("denom", .str denom)])
  | .supplyOf denom => some (bankLine [("denom", .str denom)])
  | .smart address _ =>
    some ⟨"unified-stargate", [("path", .str path), ("contract", .str address)],
      "bridged smart query"⟩
  | .info _ => none
where
  /-- The line of a bank query. -/
  bankLine (members : List (String × Json)) : LogLine :=
    ⟨"unified-stargate", ("path", .str path) :: members, "bridged bank query"⟩

end Request

/-! ### Answers -/

/-- Leaves a log line, if there is one. -/
def noteLine : Option LogLine → Noted Unit
  | none => pure ()
  | some line => Noted.note (.log line)

/-- Answers a bridged query on a path. -/
def answer (querier : Querier) (path : String) (request : Request) : Noted Bytes := do
  let native ← Noted.ofExcept (querier request.native)
  let raw ← Noted.ofExcept native.get
  let json ← Noted.ofExcept (request.render raw)
  noteLine (request.logLine? path)
  pure json.toBytes

end TokenLedger.Bridge
