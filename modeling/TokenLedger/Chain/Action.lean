import TokenLedger.Chain.Message
import TokenLedger.Fault
import TokenLedger.Store.Basic

/-!
# Actions

A reading answers from a store without changing it; an action may change it.  Both may fail, and
both leave notes: lines for the log and calls to a host.  An action that fails keeps what it has
written and noted up to then; undoing it is up to whoever runs it.
-/

namespace TokenLedger

/-! ### Notes -/

/-- A line for the log. -/
structure LogLine where
  /-- The part of the program that logs. -/
  source : String
  members : List (String × Json)
  text : String
deriving Repr

/-- A call to the host of a module. -/
inductive HostCall
  | query (query : BankQuery)
  | execute (sender : String) (message : BankMessage)
  | mint (order : MintOrder)
deriving Repr

/-- What an action leaves besides its result and the store. -/
inductive Note
  | log (line : LogLine)
  | call (call : HostCall)
deriving Repr

/-! ### Readings -/

/-- A result with notes. -/
structure Noted (α : Type) where
  result : Except Fault α
  notes : List Note

namespace Noted

variable {α β : Type}

/-- A value without notes. -/
protected def pure (a : α) : Noted α := ⟨.ok a, []⟩

/-- Goes on with a value, after the notes so far. -/
protected def bind (x : Noted α) (f : α → Noted β) : Noted β :=
  match x.result with
  | .ok a => ⟨(f a).result, x.notes ++ (f a).notes⟩
  | .error e => ⟨.error e, x.notes⟩

instance : Monad Noted where
  pure := Noted.pure
  bind := Noted.bind

/-- A result without notes. -/
def ofExcept (x : Except Fault α) : Noted α := ⟨x, []⟩

/-- A failure. -/
def fail (e : Fault) : Noted α := ⟨.error e, []⟩

/-- Leaves a note. -/
def note (n : Note) : Noted Unit := ⟨.ok (), [n]⟩

end Noted

/-! ### Actions -/

/-- What an action comes to. -/
structure Outcome (α : Type) where
  result : Except Fault α
  store : Store
  notes : List Note

/-- A change of a store. -/
def Action (α : Type) := Store → Outcome α

namespace Action

variable {α β : Type}

/-- A value and no change. -/
protected def pure (a : α) : Action α := fun s => ⟨.ok a, s, []⟩

/-- Goes on with a value on the store left by what came before. -/
protected def bind (x : Action α) (f : α → Action β) : Action β := fun s =>
  let first := x s
  match first.result with
  | .ok a =>
    let second := f a first.store
    ⟨second.result, second.store, first.notes ++ second.notes⟩
  | .error e => ⟨.error e, first.store, first.notes⟩

instance : Monad Action where
  pure := Action.pure
  bind := Action.bind

/-- A result and no change. -/
def ofExcept (x : Except Fault α) : Action α := fun s => ⟨x, s, []⟩

/-- A failure. -/
def fail (e : Fault) : Action α := fun s => ⟨.error e, s, []⟩

/-- Reads the store. -/
def read (f : Store → Except Fault α) : Action α := fun s => ⟨f s, s, []⟩

/-- Reads the store with notes. -/
def ask (f : Store → Noted α) : Action α := fun s => ⟨(f s).result, s, (f s).notes⟩

/-- Replaces the store, or fails and leaves it. -/
def write (f : Store → Except Fault Store) : Action Unit := fun s =>
  match f s with
  | .ok t => ⟨.ok (), t, []⟩
  | .error e => ⟨.error e, s, []⟩

/-- Leaves a note. -/
def note (n : Note) : Action Unit := fun s => ⟨.ok (), s, [n]⟩

/-- Leaves a line for the log. -/
def log (source : String) (members : List (String × Json)) (text : String) : Action Unit :=
  note (.log ⟨source, members, text⟩)

/-- Fails unless a condition holds. -/
def require (condition : Bool) (e : Fault) : Action Unit :=
  if condition then pure () else fail e

/-- Runs an action and undoes its changes when it fails. -/
def orUndo (x : Action α) : Action α := fun s =>
  let o := x s
  match o.result with
  | .ok _ => o
  | .error _ => { o with store := s }

end Action

end TokenLedger
