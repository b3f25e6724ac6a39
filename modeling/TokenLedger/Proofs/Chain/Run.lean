import TokenLedger.Chain
import TokenLedger.Proofs.Factory.Coreum
import TokenLedger.Proofs.Factory.Generic

/-!
# Runs of a chain

A run is a sequence of calls on the empty store: transactions, privileged orders and replacements of
balances, whether they succeed or not.  What every call keeps holds after every run (`run_keeps`).
A bridge hands every message on, so that the module behind all bridges (`core`) decides what a
transaction does.
-/

namespace TokenLedger

open Bank

/-! ### Modules behind bridges -/

namespace StargateModule

/-- The module behind all bridges. -/
def core : StargateModule → StargateModule
  | .bridgeTo inner => inner.core
  | m => m

theorem execute_core (m : StargateModule) (host : Host) (sender typeUrl : String) (value : Bytes) :
    m.core.execute host sender typeUrl value = m.execute host sender typeUrl value := by
  induction m with
  | bridgeTo inner ih => exact ih
  | failing | scratch | factory | bridge => rfl

theorem executeSudo_store (m : StargateModule) (s : Store) : (m.executeSudo s).store = s := by
  induction m with
  | bridgeTo inner ih => exact ih
  | failing | scratch | factory | bridge => rfl

variable {s t : Store} {sender typeUrl : String} {value : Bytes} {r : Response}

theorem scratchExecute_store (h : (scratchExecute sender typeUrl value).Runs s r t) :
    t = s.set scratchKey (Utf8.encode typeUrl) := by
  simp only [scratchExecute, Action.runs_bind, Action.runs_write, Action.runs_require,
    Action.runs_pure, Except.ok.injEq] at h
  obtain ⟨_, _, rfl, _, _, ⟨-, rfl⟩, -, rfl⟩ := h
  rfl

/-- Whatever the module is, a message takes from nobody but its sender. -/
theorem execute_settled (m : StargateModule) (hs : WellFormed s)
    (h : (m.execute Bank.host sender typeUrl value).Runs s r t) :
    ∃ minted, Factory.Settled sender minted s t := by
  induction m with
  | failing | bridge => exact absurd h Action.not_runs_fail
  | scratch =>
    have hframe : Store.SameUnder balances.root s t := by
      intro k hk
      rw [scratchExecute_store h]
      exact Store.get?_set_of_ne s _ fun heq => absurd (heq ▸ hk) (by decide)
    exact ⟨none, Factory.settled_of_sameUnder hs hframe⟩
  | factory variant config =>
    cases variant with
    | generic =>
      obtain ⟨m, -, heffect⟩ := Factory.Generic.execute_effect h
      obtain ⟨minted, -, hsettled⟩ := heffect.settled hs
      exact ⟨minted, hsettled⟩
    | coreum =>
      obtain ⟨m, -, heffect⟩ := Factory.Coreum.execute_effect h
      obtain ⟨minted, -, hsettled⟩ := heffect.settled hs
      exact ⟨minted, hsettled⟩
  | bridgeTo inner ih => exact ih h

end StargateModule

/-! ### Calls -/

/-- No coin of a message has a negative amount. -/
def Message.NonNegative : Message → Prop
  | .bank message => message.NonNegative
  | .stargate .. | .custom => True

namespace Chain

/-- What a chain may be called with. -/
inductive Call
  | tx (sender : String) (message : Message)
  | sudoTx (message : SudoMessage)
  | initBalance (address : String) (coins : List Coin)

/-- No coin of a call has a negative amount. -/
def Call.NonNegative : Call → Prop
  | .tx _ message => message.NonNegative
  | .sudoTx (.mint order) => order.NonNegative
  | .sudoTx .stargate => True
  | .initBalance _ coins => NonNegativeCoins coins

/-- The store that a call leaves. -/
def call (c : Chain) (s : Store) : Call → Store
  | .tx sender message => (c.executeTx sender message s).store
  | .sudoTx message => (c.executeSudoTx message s).store
  | .initBalance address coins => (initBalance address coins s).store

/-- The store that calls leave, one after another. -/
def runFrom (c : Chain) (s : Store) (calls : List Call) : Store := calls.foldl c.call s

/-- The store of a chain after calls. -/
def run (c : Chain) (calls : List Call) : Store := c.runFrom .empty calls

variable {c : Chain} {s t : Store} {sender : String} {message : Message} {calls : List Call}
  {P : Store → Prop}

theorem runFrom_keeps (hs : P s) (h : ∀ call ∈ calls, ∀ u, P u → P (c.call u call)) :
    P (c.runFrom s calls) := by
  induction calls generalizing s with
  | nil => exact hs
  | cons call calls ih =>
    obtain ⟨hcall, hcalls⟩ := List.forall_mem_cons.mp h
    exact ih (hcall s hs) hcalls

theorem run_append (c : Chain) (calls more : List Call) :
    c.run (calls ++ more) = c.runFrom (c.run calls) more := List.foldl_append

/-- What holds of the empty store and is kept by every call holds after the calls. -/
theorem run_keeps (hempty : P .empty) (h : ∀ call ∈ calls, ∀ u, P u → P (c.call u call)) :
    P (c.run calls) := runFrom_keeps hempty h

/-- A transaction succeeds and leaves what its message leaves, or it fails and changes nothing. -/
theorem executeTx_cases (c : Chain) (sender : String) (message : Message) (s : Store) :
    (∃ e, (c.executeTx sender message s).result = .error e ∧
        (c.executeTx sender message s).store = s) ∨
      ∃ r t, (c.execute sender message).Runs s r t ∧ (c.executeTx sender message).Runs s r t := by
  rcases Action.orUndo_cases (c.execute sender message) s with
    ⟨r, t, hrun, htx⟩ | ⟨e, -, herror, hstore⟩
  · exact Or.inr ⟨r, t, hrun, htx⟩
  · exact Or.inl ⟨e, herror, hstore⟩

/-- A transaction that succeeds leaves what its message leaves. -/
theorem execute_runs_of_ok {r : Response} (h : (c.executeTx sender message s).result = .ok r) :
    (c.execute sender message).Runs s r (c.executeTx sender message s).store := by
  rcases executeTx_cases c sender message s with ⟨e, herror, -⟩ | ⟨r', t, hrun, hresult, hstore⟩
  · rw [herror] at h
    cases h
  · rw [hresult] at h
    obtain rfl := Except.ok.inj h
    rw [hstore]
    exact hrun

/-- The module behind all bridges runs stargate messages. -/
theorem execute_stargate (c : Chain) (sender typeUrl : String) (value : Bytes) :
    c.execute sender (.stargate typeUrl value) =
      c.stargate.core.execute Bank.host sender typeUrl value :=
  (c.stargate.execute_core Bank.host sender typeUrl value).symm

/-- A stargate transaction has the result of the module behind all bridges. -/
theorem executeTx_stargate {typeUrl : String} {value : Bytes} :
    (c.executeTx sender (.stargate typeUrl value) s).result =
      (c.stargate.core.execute Bank.host sender typeUrl value s).result := by
  rw [← execute_stargate]
  exact Action.result_orUndo _ _

/-- A transaction has the result of the message that the factory reads. -/
theorem executeTx_generic {config : FactoryConfig} {typeUrl : String} {value : Bytes}
    (hcore : c.stargate.core = .factory .generic config) {m : Factory.Generic.Message}
    (hread : m.ReadFrom typeUrl value) :
    (c.executeTx sender (.stargate typeUrl value) s).result =
      (Factory.Generic.handle config Bank.host sender m s).result := by
  rw [executeTx_stargate, hcore, ← Factory.Generic.execute_of_readFrom hread]
  rfl

theorem executeTx_coreum {config : FactoryConfig} {typeUrl : String} {value : Bytes}
    (hcore : c.stargate.core = .factory .coreum config) {m : Factory.Coreum.Message}
    (hread : m.ReadFrom typeUrl value) :
    (c.executeTx sender (.stargate typeUrl value) s).result =
      (Factory.Coreum.handle config Bank.host sender m s).result := by
  rw [executeTx_stargate, hcore, ← Factory.Coreum.execute_of_readFrom hread]
  rfl

/-- A transaction that succeeds has run the message that the factory reads. -/
theorem generic_runs_of_ok {config : FactoryConfig} {typeUrl : String} {value : Bytes}
    (hcore : c.stargate.core = .factory .generic config) {m : Factory.Generic.Message}
    (hread : m.ReadFrom typeUrl value) {r : Response}
    (h : (c.executeTx sender (.stargate typeUrl value) s).result = .ok r) :
    (Factory.Generic.handle config Bank.host sender m).Runs s r
      (c.executeTx sender (.stargate typeUrl value) s).store := by
  have hrun := execute_runs_of_ok h
  rw [execute_stargate, hcore] at hrun
  rw [← Factory.Generic.execute_of_readFrom hread]
  exact hrun

theorem coreum_runs_of_ok {config : FactoryConfig} {typeUrl : String} {value : Bytes}
    (hcore : c.stargate.core = .factory .coreum config) {m : Factory.Coreum.Message}
    (hread : m.ReadFrom typeUrl value) {r : Response}
    (h : (c.executeTx sender (.stargate typeUrl value) s).result = .ok r) :
    (Factory.Coreum.handle config Bank.host sender m).Runs s r
      (c.executeTx sender (.stargate typeUrl value) s).store := by
  have hrun := execute_runs_of_ok h
  rw [execute_stargate, hcore] at hrun
  rw [← Factory.Coreum.execute_of_readFrom hread]
  exact hrun

/-- No chain runs custom messages. -/
theorem execute_custom (c : Chain) (sender : String) :
    ∃ e, c.execute sender .custom = Action.fail e := by
  simp only [execute]
  cases c.custom with
  | none => exact ⟨_, rfl⟩
  | some m => exact ⟨_, rfl⟩

theorem not_runs_custom {r : Response} : ¬ (c.execute sender .custom).Runs s r t := by
  obtain ⟨e, he⟩ := execute_custom c sender
  rw [he]
  exact Action.not_runs_fail

/-- What a call does to a store, if it does anything. -/
theorem call_cases (c : Chain) (s : Store) (call : Call) : c.call s call = s ∨
    (∃ sender message r, call = .tx sender message ∧
      (c.execute sender message).Runs s r (c.call s call)) ∨
    (∃ order r, call = .sudoTx (.mint order) ∧ (Bank.mint order).Runs s r (c.call s call)) ∨
    ∃ address coins, call = .initBalance address coins ∧
      c.call s call = (Bank.initBalance address coins s).store := by
  cases call with
  | tx sender message =>
    rcases executeTx_cases c sender message s with ⟨e, -, hstore⟩ | ⟨r, t, hrun, -, hstore⟩
    · exact Or.inl hstore
    · have hcall : c.call s (.tx sender message) = t := hstore
      exact Or.inr (Or.inl ⟨sender, message, r, rfl, hcall ▸ hrun⟩)
  | sudoTx message =>
    rcases Action.orUndo_cases (c.executeSudo message) s with
      ⟨r, t, hrun, -, hstore⟩ | ⟨e, -, -, hstore⟩
    · have hcall : c.call s (.sudoTx message) = t := hstore
      cases message with
      | mint order => exact Or.inr (Or.inr (Or.inl ⟨order, r, rfl, hcall ▸ hrun⟩))
      | stargate => exact Or.inl (hcall.trans (hrun.2 ▸ c.stargate.executeSudo_store s))
    · exact Or.inl hstore
  | initBalance address coins =>
    have hcall : c.call s (.initBalance address coins) =
        (Action.bind (Action.ofExcept (Address.validate address))
          (fun address => Bank.initBalance address coins) s).store := rfl
    rw [hcall]
    unfold Address.validate
    split_ifs
    · exact Or.inl rfl
    · exact Or.inl rfl
    · exact Or.inr (Or.inr (Or.inr ⟨address, coins, rfl, rfl⟩))

/-- A call changes nothing but balances, unless it is a stargate message that succeeds. -/
theorem call_stargate_cases (c : Chain) (s : Store) (call : Call) :
    Store.SameOutside balances.root s (c.call s call) ∨
      ∃ sender typeUrl value r, call = .tx sender (.stargate typeUrl value) ∧
        (c.stargate.core.execute Bank.host sender typeUrl value).Runs s r (c.call s call) := by
  rcases call_cases c s call with
    hsame | ⟨sender, message, r, rfl, h⟩ | ⟨order, r, rfl, h⟩ | ⟨address, coins, rfl, h⟩
  · exact Or.inl (hsame.symm ▸ .rfl)
  · cases message with
    | bank message => exact Or.inl ((execute_writesBalances sender message).of_runs h)
    | custom => exact absurd h not_runs_custom
    | stargate typeUrl value =>
      rw [execute_stargate] at h
      exact Or.inr ⟨sender, typeUrl, value, r, rfl, h⟩
  · exact Or.inl ((mint_writesBalances order).of_runs h)
  · rw [h]
    exact Or.inl ((initBalance_writesBalances address coins).sameOutside s)

/-- Setting up a chain is a run. -/
theorem seed_runs {accounts : List (String × List Coin)} (h : (seed accounts).Runs s () t) :
    t = c.runFrom s (accounts.map fun account => .initBalance account.1 account.2) := by
  induction accounts generalizing s with
  | nil => exact (Action.runs_pure.mp h).2
  | cons account accounts ih =>
    obtain ⟨_, u, hfirst, hrest⟩ := Action.runs_bind.mp h
    rw [ih hrest, List.map_cons]
    show _ = c.runFrom (initBalance account.1 account.2 s).store _
    rw [hfirst.2]

/-! ### Runs without negative amounts -/

theorem execute_wellFormed (hs : WellFormed s) (hm : message.NonNegative) {r : Response}
    (h : (c.execute sender message).Runs s r t) : WellFormed t := by
  cases message with
  | bank message => exact (execute_circulating hs hm h).1
  | custom => exact absurd h not_runs_custom
  | stargate typeUrl value =>
    obtain ⟨minted, hsettled⟩ := c.stargate.execute_settled hs h
    exact hsettled.wellFormed

theorem call_wellFormed {call : Call} (hcall : call.NonNegative) (hs : WellFormed s) :
    WellFormed (c.call s call) := by
  rcases call_cases c s call with
    hsame | ⟨sender, message, r, rfl, h⟩ | ⟨order, r, rfl, h⟩ | ⟨address, coins, rfl, h⟩
  · rwa [hsame]
  · exact execute_wellFormed hs hcall h
  · exact (add_booked hs hcall (mint_runs.mp h).2).wellFormed
  · rw [h]
    exact initBalance_keeps hcall address s hs

/-- After calls without negative amounts the store is well-formed. -/
theorem run_wellFormed (h : ∀ call ∈ calls, call.NonNegative) : WellFormed (c.run calls) :=
  run_keeps wellFormed_empty fun call hcall _ hu => call_wellFormed (h call hcall) hu

/-! ### A small chain -/

/-- A chain with a token factory behind a bridge, for concrete runs. -/
def small (variant : Variant) : Chain where
  stargate := .bridgeTo (.factory variant (.standard variant))
  custom := none
  block := .standard
  contracts := []

/-- Two accounts with coins, of which one can pay for a new token. -/
def smallAccounts : List Call :=
  [.initBalance "a" [⟨"ucore", 10000000⟩], .initBalance "b" [⟨"ucore", 5⟩]]

theorem smallAccounts_nonNegative : ∀ call ∈ smallAccounts, call.NonNegative := by
  simp [smallAccounts, Call.NonNegative, NonNegativeCoins]

/-- The payload that creates a denom. -/
def smallCreate : Bytes := [194, 97, 98]

/-- What it says. -/
def smallDenom : CreateDenom := ⟨"a", "b"⟩

/-- The payload that issues seven units of a token. -/
def smallIssue : Bytes :=
  [209, 97, 131, 84, 79, 75, 131, 116, 111, 107, 128, 55, 128, 192, 128, 128, 128, 128]

/-- What it says. -/
def smallIssued : IssueToken := ⟨"a", "TOK", "tok", 0, "7", "", [], "", "", "", ""⟩

/-- The calls that issue the token. -/
def smallToken : List Call := smallAccounts ++ [.tx "a" (.stargate IssueToken.typeUrl smallIssue)]

theorem smallToken_nonNegative : ∀ call ∈ smallToken, call.NonNegative := by
  simp [smallToken, smallAccounts, Call.NonNegative, Message.NonNegative, NonNegativeCoins]

/-- The payload that issues a class. -/
def smallClass : Bytes := [204, 97, 131, 65, 82, 84, 128, 128, 128, 128, 192, 192, 128]

/-- The payload that issues a class under the same symbol for another account. -/
def otherClass : Bytes := [204, 98, 131, 65, 82, 84, 128, 128, 128, 128, 192, 192, 128]

/-- The payload that issues one for the account `a1`, whose address starts with another one. -/
def longerClass : Bytes := [206, 130, 97, 49, 131, 65, 82, 84, 128, 128, 128, 128, 192, 192, 128]

/-- The calls that issue the small class. -/
def smallGallery : List Call := [.tx "a" (.stargate IssueClass.typeUrl smallClass)]

end Chain

end TokenLedger
