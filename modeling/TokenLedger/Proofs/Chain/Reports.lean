import TokenLedger.Proofs.Chain.BridgedBank

/-!
# The amounts that a chain reports

A balance is checked against 128 bits wherever it grows, a supply nowhere: it is the sum of the
balances.  So the balances that are reported, one by one or all of an account, natively or over a
bridge, fit in 128 bits, and a supply is only bounded by so much for each holder.
-/

namespace TokenLedger.Chain

open Bank

variable {c : Chain} {s : Store} {a d : String} {n : Int} {coins : List Coin} {calls : List Call}

/-! ### Reports -/

/-- The bank tells a balance, a chain reports it, and so does its bridge, if it has one. -/
structure ReportsBalance (c : Chain) (s : Store) (a d : String) (n : Int) : Prop where
  told : balance s a d = .ok n
  native : (c.query s (.native (.bank (.balance a d)))).result =
    .ok (Json.obj [("amount", .obj [("denom", .str d), ("amount", .str (toString n))])]).toBytes
  bridged : c.stargate.IsBridge → c.Answers s .balance BalanceRequest.path ⟨a, d⟩
    (.ok (Json.obj [("balance", .obj [("denom", .str d), ("amount", .str (toString n))])]).toBytes)

/-- The bank tells the coins of an account, a chain reports them, and so does its bridge, if it has
one. -/
structure ReportsCoins (c : Chain) (s : Store) (a : String) (coins : List Coin) : Prop where
  told : allBalances s a = .ok coins
  native : (c.query s (.native (.bank (.allBalances a)))).result =
    .ok (Json.obj [("amount", .arr (coins.map fun coin => .obj [("denom", .str coin.denom),
      ("amount", .str (toString coin.amount))]))]).toBytes
  bridged : c.stargate.IsBridge → ∀ page,
    c.Answers s .allBalances AllBalancesRequest.path ⟨a, page⟩
      (.ok (Json.obj [("balances", .arr (coins.map fun coin => .obj [("denom", .str coin.denom),
        ("amount", .str (toString coin.amount))])), ("pagination", .null)]).toBytes)

/-- The bank tells a supply, a chain reports it, and so does its bridge, if it has one. -/
structure ReportsSupply (c : Chain) (s : Store) (d : String) (n : Int) : Prop where
  told : supply s d = .ok n
  native : (c.query s (.native (.bank (.supply d)))).result =
    .ok (Json.obj [("amount", .obj [("denom", .str d), ("amount", .str (toString n))])]).toBytes
  bridged : c.stargate.IsBridge → c.Answers s .supplyOf SupplyOfRequest.path ⟨d⟩
    (.ok (Json.obj [("amount", .obj [("denom", .str d), ("amount", .str (toString n))])]).toBytes)

theorem reportsBalance (h : balance s a d = .ok n) : c.ReportsBalance s a d n where
  told := h
  native := by
    rw [← coinJson_eq d n]
    exact query_balance h
  bridged hbridge := answers_balance hbridge h

theorem reportsCoins (h : allBalances s a = .ok coins) : c.ReportsCoins s a coins where
  told := h
  native := by
    rw [← map_coinJson coins]
    exact query_allBalances h
  bridged hbridge page := answers_allBalances hbridge page h

theorem reportsSupply (h : supply s d = .ok n) : c.ReportsSupply s d n where
  told := h
  native := by
    rw [← coinJson_eq d n]
    exact query_supply h
  bridged hbridge := answers_supplyOf hbridge h

/-! ### Amounts -/

/-- An amount is in the range of 128 bits. -/
def Fits (n : Int) : Prop := 0 ≤ n ∧ n ≤ 2 ^ 128 - 1

instance (n : Int) : Decidable (Fits n) := inferInstanceAs (Decidable (_ ∧ _))

theorem maxAmount_eq : (maxAmount : Int) = 2 ^ 128 - 1 := rfl

theorem fits_held (hs : WellFormed s) (a d : String) : Fits (held s a d) :=
  ⟨hs.held_nonneg a d, maxAmount_eq ▸ hs.held_le_maxAmount a d⟩

theorem fits_of_balance (hs : WellFormed s) (h : balance s a d = .ok n) : Fits n :=
  held_of_balance h ▸ fits_held hs a d

/-- Together holders have at most so much for each of them. -/
theorem sum_held_le (hs : WellFormed s) (holders : Finset String) (d : String) :
    ∑ a ∈ holders, held s a d ≤ holders.card * (2 ^ 128 - 1) := by
  have hsum := Finset.sum_le_card_nsmul holders (fun a => held s a d) (2 ^ 128 - 1)
    fun a _ => (fits_held hs a d).2
  rwa [nsmul_eq_mul] at hsum

/-- **Every balance that is reported fits, and a supply is what its holders have together.**  After
any calls without negative amounts, natively and over the bridge, every reported balance is in the
range of 128 bits, also in the coins of an account; a reported supply is not negative and is the sum
of the balances of its holders, which is in that range exactly if they fit together, and always if
there is one holder at most. -/
theorem reported_amounts (c : Chain) (hcalls : ∀ call ∈ calls, call.NonNegative) :
    (∀ a d, Key.IsShort a → ∃ n, c.ReportsBalance (c.run calls) a d n ∧ Fits n) ∧
    (∀ a, ∃ coins, c.ReportsCoins (c.run calls) a coins ∧ ∀ coin ∈ coins, Fits coin.amount) ∧
    ∀ d, ∃ holders : Finset String, ∃ n,
      (∀ a, a ∈ holders ↔ ∃ k, balance (c.run calls) a d = .ok k ∧ 0 < k) ∧
      c.ReportsSupply (c.run calls) d n ∧ n = ∑ a ∈ holders, held (c.run calls) a d ∧
      0 ≤ n ∧ n ≤ holders.card * (2 ^ 128 - 1) := by
  have hs : WellFormed (c.run calls) := run_wellFormed hcalls
  refine ⟨fun a d ha => ?_, fun a => ?_, fun d => ?_⟩
  · exact ⟨held (c.run calls) a d, reportsBalance (hs.balance ha d), fits_held hs a d⟩
  · obtain ⟨coins, hcoins, -, hmem⟩ := allBalances_eq_coins hs a
    exact ⟨coins, reportsCoins hcoins, fun coin hcoin => fits_of_balance hs ((hmem coin).mp hcoin).1⟩
  · obtain ⟨holders, hmem, hsupply⟩ := supply_eq_sum_holders hs d
    have hsum : 0 ≤ ∑ a ∈ holders, held (c.run calls) a d :=
      Finset.sum_nonneg fun a _ => hs.held_nonneg a d
    exact ⟨holders, _, hmem, reportsSupply hsupply, rfl, hsum, sum_held_le hs holders d⟩

/-! ### A supply that does not fit -/

/-- An account has all that an account can have of a denom, and some more is minted for another. -/
def fullAccounts : List Call :=
  [.initBalance "a" [⟨"ucore", 2 ^ 128 - 1⟩], .sudoTx (.mint ⟨"b", [⟨"ucore", 1⟩]⟩)]

theorem fullAccounts_nonNegative : ∀ call ∈ fullAccounts, call.NonNegative := by
  simp [fullAccounts, Call.NonNegative, MintOrder.NonNegative, NonNegativeCoins]

/-- The first balance is reported, and it is the greatest one that fits. -/
theorem reported_amounts_fullAccounts :
    (∀ call ∈ fullAccounts, call.NonNegative) ∧ Key.IsShort "a" ∧
      (small .coreum).ReportsBalance ((small .coreum).run fullAccounts) "a" "ucore" (2 ^ 128 - 1) ∧
      Fits (2 ^ 128 - 1) := by
  have hshort : Key.IsShort "a" := by decide
  obtain ⟨hbalances, -, -⟩ := reported_amounts (small .coreum) fullAccounts_nonNegative
  obtain ⟨n, hreports, hfits⟩ := hbalances "a" "ucore" hshort
  have hfull : balance ((small .coreum).run fullAccounts) "a" "ucore" = .ok (2 ^ 128 - 1) :=
    Except.eq_ok_of_toOption (by decide +kernel)
  obtain rfl : n = 2 ^ 128 - 1 := Except.ok.inj (hreports.told.symm.trans hfull)
  exact ⟨fullAccounts_nonNegative, hshort, hreports, hfits⟩

/-- **A supply need not fit.**  Two accounts whose balances fit have more together than fits, although
every amount that was given or minted fits, and both the bank and the bridge report it. -/
theorem supply_exceeds_maxAmount :
    (∀ call ∈ fullAccounts, call.NonNegative) ∧ Fits (2 ^ 128 - 1) ∧ Fits 1 ∧
      (small .coreum).ReportsSupply ((small .coreum).run fullAccounts) "ucore" (2 ^ 128) ∧
      (small .coreum).stargate.IsBridge ∧ ¬ Fits (2 ^ 128) := by
  have hsupply : supply ((small .coreum).run fullAccounts) "ucore" = .ok (2 ^ 128) :=
    Except.eq_ok_of_toOption (by decide +kernel)
  exact ⟨fullAccounts_nonNegative, by decide, by decide, reportsSupply hsupply, Or.inr ⟨_, rfl⟩,
    by decide⟩

end TokenLedger.Chain
