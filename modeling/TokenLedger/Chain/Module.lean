import TokenLedger.Asset.CustomQuery
import TokenLedger.Bridge
import TokenLedger.Factory.Coreum
import TokenLedger.Factory.Generic

/-!
# Modules

What a chain hands stargate messages and queries to: nothing that works, a token factory, a scratch
module for trials, or the query bridge in front of nothing or of another module.  Beside it a chain
may have a module for custom queries.
-/

namespace TokenLedger

/-- A handler of stargate messages and queries. -/
inductive StargateModule
  /-- Refuses everything. -/
  | failing
  /-- Writes down what it is sent. -/
  | scratch
  /-- A token factory of a variant. -/
  | factory (variant : Variant) (config : FactoryConfig)
  /-- The query bridge alone. -/
  | bridge
  /-- The query bridge in front of another module. -/
  | bridgeTo (inner : StargateModule)
deriving Repr

namespace StargateModule

/-! ### The scratch module -/

/-- Where the scratch module writes. -/
def scratchKey : Bytes := Utf8.encode "scratch"

/-- Writes the type of a message down; then a payload that starts with `0xff` is a failure. -/
def scratchExecute (sender typeUrl : String) (value : Bytes) : Action Response := do
  Action.write fun s => .ok (s.set scratchKey (Utf8.encode typeUrl))
  Action.require (value.head? != some 0xff) (.raised "module failed")
  pure ⟨[⟨"stub_exec", [("sender", sender)]⟩], some value⟩

/-- Tells the path and the height. -/
def scratchQuery (block : Block) (path : String) : Bytes :=
  Utf8.encode ("stub:" ++ path ++ ":" ++ block.height.toText)

/-! ### Dispatch -/

/-- Runs a message of a sender. -/
def execute (host : Host) (sender typeUrl : String) (value : Bytes) :
    StargateModule → Action Response
  | .failing => Action.fail (.unsupported (.execute typeUrl value))
  | .scratch => scratchExecute sender typeUrl value
  | .factory .generic config => Factory.Generic.execute config host sender typeUrl value
  | .factory .coreum config => Factory.Coreum.execute config host sender typeUrl value
  | .bridge => Action.fail (.unsupported (.handler typeUrl))
  | .bridgeTo inner => inner.execute host sender typeUrl value

/-- Runs a privileged order without content. -/
def executeSudo : StargateModule → Action Response
  | .scratch => pure ⟨[⟨"stub_sudo", []⟩], none⟩
  | .failing | .factory .. | .bridge => pure .empty
  | .bridgeTo inner => inner.executeSudo

/-- Answers a query. -/
def query (querier : Querier) (block : Block) (s : Store) (path : String) (data : Bytes) :
    StargateModule → Noted Bytes
  | .failing | .factory .generic _ => Noted.fail (.unsupported (.query path data))
  | .scratch => pure (scratchQuery block path)
  | .factory .coreum config => Noted.ofExcept (Factory.Coreum.query config s path data)
  | .bridge =>
    match Bridge.Request.ofWire? path data with
    | some request => do Bridge.answer querier path (← Noted.ofExcept request)
    | none => Noted.fail (.unsupported (.query path data))
  | .bridgeTo inner =>
    match Bridge.Request.ofWire? path data with
    | some request => do Bridge.answer querier path (← Noted.ofExcept request)
    | none => inner.query querier block s path data

end StargateModule

/-! ### Custom queries -/

/-- The module of custom queries. -/
structure CustomModule where
  /-- The denom of the native token. -/
  nativeDenom : String
deriving DecidableEq, Repr

namespace CustomModule

/-- The module with the native denom of the Coreum variant. -/
def standard : CustomModule := ⟨(FactoryConfig.standard .coreum).feeDenom⟩

/-- The module that shares a factory's native denom. -/
def forFactory (config : FactoryConfig) : CustomModule := ⟨config.feeDenom⟩

/-- Custom messages are not handled. -/
def execute (_ : CustomModule) : Action Response := Action.fail (.unsupported .customExecute)

/-- Custom orders come to nothing. -/
def executeSudo (_ : CustomModule) : Action Response := pure .empty

/-- Answers a custom query. -/
def query (m : CustomModule) (s : Store) (request : Json) : Noted Bytes :=
  Asset.answerCustom m.nativeDenom s request

end CustomModule

end TokenLedger
