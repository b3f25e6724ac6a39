import TokenLedger.Proofs.Bank.Views

/-!
# Coins act as their totals

Coins are taken and given one by one, but what counts in the end is only how much they come to in
each denom.  They can be taken from an account exactly if it has as much of every denom
(`sub_runs_iff`), and be given to one exactly if it has room for as much (`add_runs_iff`); in which
order they are listed does not matter (`amountOf_perm`).
-/

namespace TokenLedger.Bank

variable {s t : Store} {a d : String} {coin : Coin} {coins coins' : List Coin}

/-! ### Totals -/

theorem amountOf_eq_sum (coins : List Coin) (d : String) :
    amountOf coins d =
      (coins.map fun coin => if d = coin.denom then coin.amount else 0).sum := by
  induction coins with
  | nil => rfl
  | cons coin coins ih => rw [amountOf_cons, ih, List.map_cons, List.sum_cons]

/-- What coins come to does not depend on their order. -/
theorem amountOf_perm (h : coins.Perm coins') (d : String) :
    amountOf coins d = amountOf coins' d := by
  rw [amountOf_eq_sum, amountOf_eq_sum]
  exact (h.map _).sum_eq

/-- One of several coins is no more than all of them come to. -/
theorem amount_le_amountOf (hc : NonNegativeCoins (coin :: coins)) :
    coin.amount ≤ amountOf (coin :: coins) coin.denom := by
  have hrest := amountOf_nonneg (nonNegativeCoins_cons.mp hc).2 coin.denom
  rw [amountOf_cons, if_pos rfl]
  omega

/-! ### Coins that can be taken -/

theorem exists_subCoin (hs : WellFormed s) (ha : Key.IsShort a)
    (h : coin.amount ≤ held s a coin.denom) : ∃ t, subCoin a coin s = .ok t := by
  obtain ⟨t, ht⟩ := exists_setBalance ha coin.denom (held s a coin.denom - coin.amount) s
  refine ⟨t, Except.bind_eq_ok.mpr ⟨_, hs.balance ha coin.denom, ?_⟩⟩
  rw [if_neg (Int.not_lt.mpr h), ht]

/-- Coins can be taken if the account has what they come to. -/
theorem exists_sub_runs (hs : WellFormed s) (ha : Key.IsShort a) (hc : NonNegativeCoins coins)
    (h : ∀ d, amountOf coins d ≤ held s a d) : ∃ t, (sub a coins).Runs s () t := by
  induction coins generalizing s with
  | nil => exact ⟨s, Action.runs_pure.mpr ⟨rfl, rfl⟩⟩
  | cons coin coins ih =>
    obtain ⟨hcoin, hcoins⟩ := nonNegativeCoins_cons.mp hc
    obtain ⟨s', hfirst⟩ := exists_subCoin hs ha (Int.le_trans (amount_le_amountOf hc) (h _))
    have hleft (d : String) : amountOf coins d ≤ held s' a d := by
      have hall := h d
      rw [amountOf_cons] at hall
      rw [(subCoin_moved hfirst).1.held_self]
      split_ifs at hall ⊢ <;> omega
    obtain ⟨t, hrest⟩ := ih (wellFormed_subCoin hs hcoin hfirst) hcoins hleft
    exact ⟨t, sub_cons_runs.mpr ⟨s', hfirst, hrest⟩⟩

/-- Coins can be taken from an account exactly if it has what they come to. -/
theorem sub_runs_iff (hs : WellFormed s) (ha : Key.IsShort a) (hc : NonNegativeCoins coins) :
    (∃ t, (sub a coins).Runs s () t) ↔ ∀ d, amountOf coins d ≤ held s a d := by
  constructor
  · rintro ⟨t, ht⟩ d
    have hbooked := sub_booked hs hc ht
    have hleft := hbooked.wellFormed.held_nonneg a d
    rw [hbooked.held, if_pos rfl] at hleft
    omega
  · exact exists_sub_runs hs ha hc

/-! ### Coins that can be given -/

theorem addCoin_moved (hs : WellFormed s) (hcoin : 0 ≤ coin.amount)
    (h : addCoin a coin s = .ok t) :
    Moved a (fun d => if d = coin.denom then coin.amount else 0) s t := by
  rcases addCoin_cases hs.readable h with ⟨hmoved, -⟩ | ⟨hneg, -⟩
  · exact hmoved
  · have hheld := hs.held_nonneg a coin.denom
    omega

/-- Coins can be given if the account has room for what they come to. -/
theorem exists_add_runs (hs : WellFormed s) (ha : Key.IsShort a) (hc : NonNegativeCoins coins)
    (h : ∀ d, held s a d + amountOf coins d ≤ maxAmount) : ∃ t, (add a coins).Runs s () t := by
  induction coins generalizing s with
  | nil => exact ⟨s, Action.runs_pure.mpr ⟨rfl, rfl⟩⟩
  | cons coin coins ih =>
    obtain ⟨hcoin, hcoins⟩ := nonNegativeCoins_cons.mp hc
    have hroom : held s a coin.denom + coin.amount ≤ maxAmount := by
      have hall := h coin.denom
      have hle := amount_le_amountOf hc
      omega
    obtain ⟨s', hfirst⟩ := exists_addCoin (hs.balance ha coin.denom) hroom
    have hleft (d : String) : held s' a d + amountOf coins d ≤ maxAmount := by
      have hall := h d
      rw [amountOf_cons] at hall
      rw [(addCoin_moved hs hcoin hfirst).held_self]
      omega
    obtain ⟨t, hrest⟩ := ih (wellFormed_addCoin hs hcoin hfirst) hcoins hleft
    exact ⟨t, add_cons_runs.mpr ⟨s', hfirst, hrest⟩⟩

/-- Coins can be given to an account exactly if it has room for what they come to. -/
theorem add_runs_iff (hs : WellFormed s) (ha : Key.IsShort a) (hc : NonNegativeCoins coins) :
    (∃ t, (add a coins).Runs s () t) ↔ ∀ d, held s a d + amountOf coins d ≤ maxAmount := by
  constructor
  · rintro ⟨t, ht⟩ d
    have hbooked := add_booked hs hc ht
    have hfits := hbooked.wellFormed.held_le_maxAmount a d
    rw [hbooked.held, if_pos rfl] at hfits
    exact hfits
  · exact exists_add_runs hs ha hc

/-! ### Equal balances -/

/-- Well-formed stores that tell the same balances and are alike elsewhere are the same store. -/
theorem SameBalances.eq (h : SameBalances s t) (hs : WellFormed s) (ht : WellFormed t)
    (hout : Store.SameOutside balances.root s t) : t = s := by
  refine Store.ext_get? fun k => ?_
  by_cases hk : balances.root <+: k
  · exact h.sameUnder hs ht k hk
  · exact hout k hk

end TokenLedger.Bank
