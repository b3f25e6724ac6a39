import TokenLedger.Chain.Host
import TokenLedger.Text.Utf8

/-!
# Scripted hosts

A host that answers what it was told to answer and notes every call, for trying a module alone.  It
never writes, so that a module behaves with it as with any host that leaves the module's own records
alone (`Factory.leavesOwn_scripted`).
-/

namespace TokenLedger

/-- What a scripted host does with messages: fail with a text or answer with events. -/
inductive Reply
  | fail (text : String)
  | events (types : List String)
deriving Repr

/-- What a reply comes to. -/
def Reply.run : Reply → Action Response
  | .fail text => Action.fail (.raised text)
  | .events types => pure ⟨types.map fun type => ⟨type, []⟩, none⟩

/-- The script of a host. -/
structure Script where
  supply : Bytes
  execute : Reply
  mint : Reply
deriving Repr

namespace Script

/-- The host that follows a script. -/
def host (script : Script) : Host where
  query q _ := ⟨.ok script.supply, [.call (.query q)]⟩
  execute sender message := do
    Action.note (.call (.execute sender message))
    script.execute.run
  mint order := do
    Action.note (.call (.mint order))
    script.mint.run

/-- A scripted host answers no native queries. -/
def querier : Querier := fun _ => .ok (.systemError "scripted host has no querier")

end Script

end TokenLedger
