import Mathlib.Data.List.Induction
import TokenLedger.Proofs.Bank.Views
import TokenLedger.Proofs.Chain.Transactions
import TokenLedger.Proofs.Factory.Failures

/-!
# The books of a chain

A chain may be called with transactions, with messages and orders outside of any transaction, and to
replace balances.  A call may stop half-way and leave what it has written up to then.  As long as no
coin is negative the books are well-formed all the same, and so they have one form and can be read.
-/

namespace TokenLedger

open Bank

variable {s : Store} {sender typeUrl : String} {value : Bytes}

/-! ### Modules -/

theorem Bank.host_keeps_wellFormed : Bank.host.Keeps WellFormed where
  burn sender coin hcoin := by
    have hburn : (BankMessage.burn [coin]).NonNegative := nonNegativeCoins_singleton.mpr hcoin
    exact execute_keeps hburn sender
  mint recipient coin hcoin := by
    have hmint : (MintOrder.mk recipient [coin]).NonNegative := nonNegativeCoins_singleton.mpr hcoin
    exact mint_keeps hmint

namespace StargateModule

theorem scratchExecute_keeps :
    (scratchExecute sender typeUrl value).Keeps WellFormed := by
  refine Action.keeps_bind (Action.keeps_write ?_) fun _ => ?_
  · intro s t hs ht
    obtain rfl := Except.ok.inj ht
    refine wellFormed_congr (fun k hk => ?_) hs
    exact Store.get?_set_of_ne s _ fun heq => absurd (heq ▸ hk) (by decide)
  · exact Action.keeps_bind Action.keeps_require fun _ => Action.keeps_pure

theorem execute_keepsOnFailure (m : StargateModule) :
    (m.execute Bank.host sender typeUrl value).KeepsOnFailure WellFormed := by
  induction m with
  | failing | bridge => exact Action.keeps_fail.keepsOnFailure
  | scratch => exact scratchExecute_keeps.keepsOnFailure
  | factory variant config =>
    cases variant with
    | generic => exact Factory.Generic.execute_keepsOnFailure host_keeps_wellFormed typeUrl value
    | coreum => exact Factory.Coreum.execute_keepsOnFailure host_keeps_wellFormed typeUrl value
  | bridgeTo inner ih => exact ih

/-- A message to a module leaves a well-formed store, whether it succeeds or not. -/
theorem execute_keeps (m : StargateModule) :
    (m.execute Bank.host sender typeUrl value).Keeps WellFormed := by
  intro s hs
  cases hresult : (m.execute Bank.host sender typeUrl value s).result with
  | ok r =>
    obtain ⟨minted, hsettled⟩ := m.execute_settled hs ⟨hresult, rfl⟩
    exact hsettled.wellFormed
  | error e => exact m.execute_keepsOnFailure s e hs hresult

end StargateModule

namespace Chain

/-! ### Steps -/

/-- What may be done to a chain: a transaction, what one asks for without the transaction, or new
balances for an account. -/
inductive Step
  | transact (x : Transaction)
  | perform (x : Transaction)
  | initBalance (address : String) (coins : List Coin)

/-- The store that a step leaves. -/
def step (c : Chain) (s : Store) : Step → Store
  | .transact x => (c.transact x s).store
  | .perform x => (c.perform x s).store
  | .initBalance address coins => (initBalance address coins s).store

/-- The store of a chain after steps. -/
def after (c : Chain) (steps : List Step) : Store := steps.foldl c.step .empty

/-- No coin of a transaction has a negative amount. -/
def Transaction.NonNegative : Transaction → Prop
  | .message _ m => m.NonNegative
  | .order (.mint o) => o.NonNegative
  | .order .stargate => True

/-- No coin of a step has a negative amount. -/
def Step.NonNegative : Step → Prop
  | .transact x | .perform x => x.NonNegative
  | .initBalance _ coins => NonNegativeCoins coins

variable {c : Chain} {steps : List Step}

theorem perform_keeps {x : Transaction} (hx : x.NonNegative) : (c.perform x).Keeps WellFormed := by
  cases x with
  | message sender message =>
    cases message with
    | bank message => exact Bank.execute_keeps hx sender
    | stargate typeUrl value => exact c.stargate.execute_keeps
    | custom =>
      obtain ⟨e, he⟩ := execute_custom c sender
      show (c.execute sender .custom).Keeps WellFormed
      rw [he]
      exact Action.keeps_fail
  | order order =>
    cases order with
    | mint order => exact Bank.mint_keeps hx
    | stargate =>
      intro s hs
      have hstore : (c.perform (.order .stargate) s).store = s := c.stargate.executeSudo_store s
      rwa [hstore]

theorem step_wellFormed {x : Step} (hx : x.NonNegative) (hs : WellFormed s) :
    WellFormed (c.step s x) := by
  cases x with
  | transact x =>
    rcases transact_cases c s x with ⟨r, t, hperform, -, hstore⟩ | ⟨e, -, -, hstore⟩
    · have ht : WellFormed t := (perform_keeps hx).of_runs hs hperform
      rwa [← hstore] at ht
    · rwa [← hstore] at hs
  | perform x => exact perform_keeps hx s hs
  | initBalance address coins =>
    have hkeeps : (initBalance address coins).Keeps WellFormed :=
      Action.keeps_bind Action.keeps_ofExcept fun address => Bank.initBalance_keeps hx address
    exact hkeeps s hs

theorem after_wellFormed (h : ∀ x ∈ steps, x.NonNegative) : WellFormed (c.after steps) := by
  induction steps using List.reverseRecOn with
  | nil => exact wellFormed_empty
  | append_singleton steps x ih =>
    obtain ⟨hsteps, hx⟩ := List.forall_mem_append.mp h
    have hlast : c.after (steps ++ [x]) = c.step (c.after steps) x := by
      unfold after
      rw [List.foldl_append, List.foldl_cons, List.foldl_nil]
    rw [hlast]
    exact step_wellFormed (hx x List.mem_cons_self) (ih hsteps)

/-! ### The books -/

/-- **The books stay canonical.**  After any steps without negative amounts, of which some may have
failed half-way, the records of the balances are in their one form, they are determined by the
balances that they tell, and the bank answers whatever it is asked about addresses that fit in a
key. -/
theorem books_canonical (c : Chain) (hsteps : ∀ x ∈ steps, x.NonNegative) :
    Canonical (c.after steps) ∧
      (∀ (c' : Chain) steps', (∀ x ∈ steps', x.NonNegative) →
        SameBalances (c.after steps) (c'.after steps') →
        Store.SameUnder balances.root (c.after steps) (c'.after steps')) ∧
      (∀ a d, Key.IsShort a → ∃ n, balance (c.after steps) a d = .ok n) ∧
      (∀ a, ∃ coins, allBalances (c.after steps) a = .ok coins) ∧
      (∀ d, ∃ n, supply (c.after steps) d = .ok n) ∧
      ∀ q : BankQuery, q.HasShortAddress →
        ∃ answer, (c.query (c.after steps) (.native (.bank q))).result = .ok answer := by
  have hs : WellFormed (c.after steps) := after_wellFormed hsteps
  refine ⟨hs.canonical, ?_, ?_, hs.allBalances, fun d => ⟨_, hs.supply d⟩, fun q hq => ?_⟩
  · intro c' steps' hsteps' hsame
    exact hsame.sameUnder hs (after_wellFormed hsteps')
  · exact fun a d ha => ⟨_, hs.balance ha d⟩
  · obtain ⟨answer, hanswer⟩ := hs.query hq
    exact ⟨answer, hanswer⟩

/-- A burn, outside of a transaction, that stops at its second coin. -/
def shortBurn : List Step :=
  [.initBalance "a" [⟨"ucore", 5⟩],
    .perform (.message "a" (.bank (.burn [⟨"ucore", 2⟩, ⟨"ucore", 9⟩])))]

/-- The first coin of the burn is gone, and the books are canonical. -/
theorem books_canonical_shortBurn :
    (∀ x ∈ shortBurn, x.NonNegative) ∧ Canonical ((small .coreum).after shortBurn) ∧
      balance ((small .coreum).after shortBurn) "a" "ucore" = .ok 3 := by
  have hsteps : ∀ x ∈ shortBurn, x.NonNegative := by
    simp [shortBurn, Step.NonNegative, Transaction.NonNegative, Message.NonNegative,
      BankMessage.NonNegative, NonNegativeCoins]
  obtain ⟨hcanonical, -, hbalance, -⟩ := books_canonical (small .coreum) hsteps
  obtain ⟨n, hn⟩ := hbalance "a" "ucore" (by decide)
  have hthree : n = 3 := by
    refine Option.some.inj ((congrArg Except.toOption hn).symm.trans ?_)
    decide +kernel
  exact ⟨hsteps, hcanonical, hthree ▸ hn⟩

/-- **The views of the bank agree.**  After any steps without negative amounts what an account has
is listed coin by coin as it is looked up, every supply is the sum of the balances of its holders,
and a denom counts as unused exactly if nobody has any of it. -/
theorem views_agree (c : Chain) (hsteps : ∀ x ∈ steps, x.NonNegative) :
    ViewsAgree (c.after steps) :=
  (after_wellFormed hsteps).viewsAgree

/-- An account with two coins, which are listed in the order of the bytes of their denoms. -/
def twoCoins : List Step := [.initBalance "a" [⟨"ucore", 5⟩, ⟨"atom", 3⟩]]

theorem twoCoins_nonNegative : ∀ x ∈ twoCoins, x.NonNegative := by
  simp [twoCoins, Step.NonNegative, NonNegativeCoins]

theorem allBalances_twoCoins : allBalances ((small .coreum).after twoCoins) "a" =
    .ok [⟨"atom", 3⟩, ⟨"ucore", 5⟩] := Except.eq_ok_of_toOption (by decide +kernel)

theorem views_agree_twoCoins :
    (∀ x ∈ twoCoins, x.NonNegative) ∧ ViewsAgree ((small .coreum).after twoCoins) ∧
      allBalances ((small .coreum).after twoCoins) "a" = .ok [⟨"atom", 3⟩, ⟨"ucore", 5⟩] := by
  have hviews := views_agree (small .coreum) twoCoins_nonNegative
  exact ⟨twoCoins_nonNegative, hviews, allBalances_twoCoins⟩

end Chain

end TokenLedger
