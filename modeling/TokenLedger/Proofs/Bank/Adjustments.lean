import TokenLedger.Proofs.Bank.Views
import TokenLedger.Proofs.Store.Place

/-!
# One coin changes one record

Whoever is given a coin, or relieved of one, has more or less of its denom, and there is as much
more or less of it.  The record of that one balance is the only one that changes (`Adjusted`).
-/

namespace TokenLedger

namespace Bank

variable {s t : Store} {a d : String} {n : Int} {coin : Coin}

/-! ### Places -/

theorem setBalance_sameBut (h : setBalance a d n s = .ok t) :
    Store.SameBut (balances.place (a, d)) s t := by
  rcases setBalance_cases h with ⟨-, h⟩ | ⟨-, h⟩
  · exact RecordMap.sameBut_delete h
  · exact RecordMap.sameBut_save h

theorem addCoin_sameBut (h : addCoin a coin s = .ok t) :
    Store.SameBut (balances.place (a, coin.denom)) s t := by
  obtain ⟨n, -, h⟩ := Except.bind_eq_ok.mp h
  split_ifs at h
  exact setBalance_sameBut h

theorem subCoin_sameBut (h : subCoin a coin s = .ok t) :
    Store.SameBut (balances.place (a, coin.denom)) s t := by
  obtain ⟨n, -, h⟩ := Except.bind_eq_ok.mp h
  split_ifs at h
  exact setBalance_sameBut h

/-! ### Adjustments -/

/-- An account has so much more of a denom, and there is so much more of it, or less if the amount
is negative.  No other record has changed. -/
structure Adjusted (a d : String) (n : Int) (s t : Store) : Prop where
  record : Store.SameBut (balances.place (a, d)) s t
  balance : ∃ before, Bank.balance s a d = .ok before ∧ Bank.balance t a d = .ok (before + n)
  supply : ∃ before, Bank.supply s d = .ok before ∧ Bank.supply t d = .ok (before + n)

theorem Booked.adjusted {change : String → Int} (h : Booked a change s t) (hs : WellFormed s)
    (ha : Key.IsShort a) (hrecord : Store.SameBut (balances.place (a, d)) s t) :
    Adjusted a d (change d) s t where
  record := hrecord
  balance := by
    refine ⟨Bank.held s a d, hs.balance ha d, ?_⟩
    rw [h.wellFormed.balance ha d, h.held, if_pos rfl]
  supply := ⟨Bank.circulating s d, hs.supply d, by rw [h.wellFormed.supply d, h.circulating]⟩

theorem amountOf_singleton (coin : Coin) : amountOf [coin] coin.denom = coin.amount := by
  simp [amountOf]

theorem add_adjusted (hs : WellFormed s) (hc : 0 ≤ coin.amount) {r : Unit}
    (h : (add a [coin]).Runs s r t) : Adjusted a coin.denom coin.amount s t := by
  have hbooked := add_booked hs (nonNegativeCoins_singleton.mpr hc) h
  obtain ⟨u, hadd, hrest⟩ := add_cons_runs.mp h
  obtain ⟨-, rfl⟩ := Action.runs_pure.mp hrest
  obtain ⟨n, hn⟩ := exists_balance_of_addCoin hadd
  rw [← amountOf_singleton coin]
  exact hbooked.adjusted hs (isShort_of_balance hn) (addCoin_sameBut hadd)

theorem sub_adjusted (hs : WellFormed s) (hc : 0 ≤ coin.amount) {r : Unit}
    (h : (sub a [coin]).Runs s r t) : Adjusted a coin.denom (-coin.amount) s t := by
  have hbooked := sub_booked hs (nonNegativeCoins_singleton.mpr hc) h
  obtain ⟨u, hsub, hrest⟩ := sub_cons_runs.mp h
  obtain ⟨-, rfl⟩ := Action.runs_pure.mp hrest
  obtain ⟨n, hn, -⟩ := Except.bind_eq_ok.mp hsub
  rw [← amountOf_singleton coin]
  exact hbooked.adjusted hs (isShort_of_balance hn) (subCoin_sameBut hsub)

end Bank

/-! ### Coins of the factories -/

namespace Factory

open Bank

variable {s t : Store} {a : String} {coin : Coin} {r : Response}

theorem mintCoin_adjusted (hs : WellFormed s) (hc : 0 ≤ coin.amount)
    (h : (mintCoin Bank.host a coin).Runs s r t) :
    r = .empty ∧ Adjusted a coin.denom coin.amount s t := by
  obtain ⟨hr, hadd⟩ := mint_runs.mp h
  exact ⟨hr, add_adjusted hs hc hadd⟩

theorem burnCoin_adjusted (hs : WellFormed s) (hc : 0 ≤ coin.amount)
    (h : (burnCoin Bank.host a coin).Runs s r t) :
    r = .empty ∧ Adjusted a coin.denom (-coin.amount) s t := by
  obtain ⟨hr, hsub⟩ := burn_runs.mp h
  exact ⟨hr, sub_adjusted hs hc hsub⟩

end Factory

end TokenLedger
