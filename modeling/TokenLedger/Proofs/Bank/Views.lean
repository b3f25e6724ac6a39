import Mathlib.Algebra.Order.BigOperators.Group.Finset
import TokenLedger.Proofs.Bank.Canonical
import TokenLedger.Proofs.Factory.Rules
import TokenLedger.Proofs.Store.Listing

/-!
# The views of the bank agree

A balance is looked up under one key, the balances of an account and the supply of a denom are read
off a listing of all records, and a factory reads the supply out of a JSON answer.  In a well-formed
store all of them tell the same books.
-/

namespace TokenLedger

namespace Bank

variable {s : Store} {a d d' : String} {n n' : Int} {coin : Coin}

/-! ### One record -/

/-- There is a record exactly of the balances that are positive. -/
theorem load?_eq_some_iff_balance (hs : WellFormed s) :
    balances.load? s (a, d) = .ok (some n) ↔ balance s a d = .ok n ∧ 0 < n := by
  constructor
  · intro hload
    obtain ⟨-, hpos, -⟩ := RecordMap.Holds.of_load? hs hload
    unfold Bank.balance
    rw [hload]
    exact ⟨rfl, hpos⟩
  · rintro ⟨hbalance, hpos⟩
    obtain ⟨o, hload, rfl⟩ := balance_eq_ok hbalance
    cases o with
    | none => exact absurd hpos (by simp)
    | some n => exact hload

theorem isShort_of_balance (h : balance s a d = .ok n) : Key.IsShort a := by
  obtain ⟨o, hload, -⟩ := balance_eq_ok h
  obtain ⟨b, hk⟩ := RecordMap.fullKey_of_load? hload
  exact isShort_of_fullKey hk

/-- An account that can have balances is given a coin unless it would have too much. -/
theorem exists_addCoin (h : balance s a d = .ok n) (hmax : n + n' ≤ maxAmount) :
    ∃ t, addCoin a ⟨d, n'⟩ s = .ok t := by
  obtain ⟨t, ht⟩ := exists_setBalance (isShort_of_balance h) d (n + n') s
  refine ⟨t, Except.bind_eq_ok.mpr ⟨n, h, ?_⟩⟩
  rw [if_neg (Int.not_lt.mpr hmax), ht]

theorem exists_mint_runs (h : balance s a d = .ok n) (hmax : n + n' ≤ maxAmount) :
    ∃ t, (mint ⟨a, [⟨d, n'⟩]⟩).Runs s .empty t := by
  obtain ⟨t, ht⟩ := exists_addCoin h hmax
  have hadd : (add a [⟨d, n'⟩]).Runs s () t :=
    add_cons_runs.mpr ⟨t, ht, Action.runs_pure.mpr ⟨rfl, rfl⟩⟩
  exact ⟨t, mint_runs.mpr ⟨rfl, hadd⟩⟩

/-- The records of one account are in the order of the bytes of their denoms. -/
theorem encode_lt_of_below (h : balances.Below ((a, d), n) ((a, d'), n')) :
    Utf8.encode d < Utf8.encode d' := by
  obtain ⟨c, c', hc, hc', hlt⟩ := h.encode_lt
  obtain ⟨-, rfl⟩ := Key.encode_pair_eq_ok.mp hc
  obtain ⟨-, rfl⟩ := Key.encode_pair_eq_ok.mp hc'
  exact (Key.append_lt_append_iff _).mp hlt

/-! ### The coins of an account -/

/-- The coins of an account are its positive balances, in the order of the bytes of their denoms. -/
theorem allBalances_eq_coins (hs : WellFormed s) (a : String) :
    ∃ coins, allBalances s a = .ok coins ∧
      (coins.Pairwise fun x y => Utf8.encode x.denom < Utf8.encode y.denom) ∧
      ∀ coin, coin ∈ coins ↔ balance s a coin.denom = .ok coin.amount ∧ 0 < coin.amount := by
  obtain ⟨all, hall, hmem, hbelow⟩ := RecordMap.Holds.listing hs
  unfold Bank.allBalances
  rw [hall]
  refine ⟨_, rfl, ?_, fun coin => ?_⟩
  · rw [List.pairwise_map]
    refine (hbelow.filter _).imp_of_mem ?_
    rintro ⟨⟨x, d⟩, n⟩ ⟨⟨y, d'⟩, n'⟩ hx hy h
    have hxa : x = a := by simpa using (List.mem_filter.mp hx).2
    have hya : y = a := by simpa using (List.mem_filter.mp hy).2
    subst hxa hya
    exact encode_lt_of_below h
  · rw [← (load?_eq_some_iff_balance hs), ← hmem, List.mem_map]
    constructor
    · rintro ⟨⟨⟨x, d⟩, n⟩, hx, rfl⟩
      obtain ⟨hrecord, haccount⟩ := List.mem_filter.mp hx
      obtain rfl : x = a := by simpa using haccount
      exact hrecord
    · intro hcoin
      exact ⟨((a, coin.denom), coin.amount), List.mem_filter.mpr ⟨hcoin, by simp⟩, rfl⟩

/-! ### The supply of a denom -/

/-- The supply of a denom is read off a list of the positive balances, one for each holder. -/
theorem supply_eq_sum_holdings (hs : WellFormed s) (d : String) :
    ∃ holdings : List (String × Int), supply s d = .ok (holdings.map (·.2)).sum ∧
      (holdings.map (·.1)).Nodup ∧
      ∀ a n, (a, n) ∈ holdings ↔ balance s a d = .ok n ∧ 0 < n := by
  obtain ⟨all, hall, hmem, hbelow⟩ := RecordMap.Holds.listing hs
  refine ⟨(all.filter (·.1.2 == d)).map fun e => (e.1.1, e.2), ?_, ?_, fun a n => ?_⟩
  · unfold Bank.supply
    rw [hall, List.map_map, List.sum_eq_foldl, List.foldl_map]
    rfl
  · rw [List.map_map]
    unfold List.Nodup
    rw [List.pairwise_map]
    refine (hbelow.filter _).imp_of_mem fun {e e'} he he' h haccount => h.ne ?_
    have hd : e.1.2 = d := by simpa using (List.mem_filter.mp he).2
    have hd' : e'.1.2 = d := by simpa using (List.mem_filter.mp he').2
    exact Prod.ext haccount (hd.trans hd'.symm)
  · rw [← load?_eq_some_iff_balance hs, ← hmem, List.mem_map]
    constructor
    · rintro ⟨⟨⟨x, d'⟩, n'⟩, he, heq⟩
      obtain ⟨hrecord, hdenom⟩ := List.mem_filter.mp he
      obtain rfl : d' = d := by simpa using hdenom
      obtain ⟨rfl, rfl⟩ := Prod.mk.inj heq
      exact hrecord
    · intro he
      exact ⟨((a, d), n), List.mem_filter.mpr ⟨he, by simp⟩, rfl⟩

/-- The supply of a denom is what its holders have together. -/
theorem supply_eq_sum_holders (hs : WellFormed s) (d : String) :
    ∃ holders : Finset String, (∀ a, a ∈ holders ↔ ∃ n, balance s a d = .ok n ∧ 0 < n) ∧
      supply s d = .ok (∑ a ∈ holders, held s a d) := by
  obtain ⟨holdings, hsupply, hnodup, hmem⟩ := supply_eq_sum_holdings hs d
  have hamounts : holdings.map (fun e => held s e.1 d) = holdings.map (·.2) := by
    refine List.map_congr_left fun e he => ?_
    exact held_of_balance ((hmem e.1 e.2).mp he).1
  refine ⟨(holdings.map (·.1)).toFinset, fun a => ?_, ?_⟩
  · rw [List.mem_toFinset, List.mem_map]
    constructor
    · rintro ⟨⟨x, n⟩, he, rfl⟩
      exact ⟨n, (hmem x n).mp he⟩
    · rintro ⟨n, hn⟩
      exact ⟨(a, n), (hmem a n).mpr hn, rfl⟩
  · rw [hsupply, List.sum_toFinset _ hnodup, List.map_map, ← hamounts]
    rfl

/-- There is nothing of a denom exactly if nobody has any. -/
theorem circulating_eq_zero_iff (hs : WellFormed s) :
    circulating s d = 0 ↔ ∀ a, Key.IsShort a → balance s a d = .ok 0 := by
  obtain ⟨holders, hmem, hsupply⟩ := supply_eq_sum_holders hs d
  rw [hs.supply d] at hsupply
  rw [Except.ok.inj hsupply, Finset.sum_eq_zero_iff_of_nonneg fun a _ => hs.held_nonneg a d]
  constructor
  · intro hzero a ha
    have hbalance := hs.balance ha d
    by_cases hheld : held s a d = 0
    · rw [hbalance, hheld]
    · have hpos : 0 < held s a d := by
        have hnonneg := hs.held_nonneg a d
        omega
      exact absurd (hzero a ((hmem a).mpr ⟨_, hbalance, hpos⟩)) hheld
  · intro hzero a ha
    obtain ⟨n, hn, hpos⟩ := (hmem a).mp ha
    rw [hzero a (isShort_of_balance hn)] at hn
    have hn0 : 0 = n := Except.ok.inj hn
    omega

/-! ### All views -/

/-- The views of the bank tell the same books, and a factory finds a denom unused exactly if nobody
has any of it. -/
structure ViewsAgree (s : Store) : Prop where
  lookup : ∀ a d, Key.IsShort a → ∃ n, balance s a d = .ok n ∧ 0 ≤ n
  account : ∀ a, ∃ coins, allBalances s a = .ok coins ∧
    (coins.Pairwise fun x y => Utf8.encode x.denom < Utf8.encode y.denom) ∧
    ∀ coin, coin ∈ coins ↔ balance s a coin.denom = .ok coin.amount ∧ 0 < coin.amount
  denom : ∀ d, ∃ holders : Finset String,
    (∀ a, a ∈ holders ↔ ∃ n, balance s a d = .ok n ∧ 0 < n) ∧
    supply s d = .ok (∑ a ∈ holders, held s a d)
  unused : ∀ d, (Factory.ensureNoSupply host d s).result = .ok () ↔
    ∀ a, Key.IsShort a → balance s a d = .ok 0

theorem WellFormed.viewsAgree (hs : WellFormed s) : ViewsAgree s where
  lookup a d ha := ⟨held s a d, hs.balance ha d, hs.held_nonneg a d⟩
  account := allBalances_eq_coins hs
  denom := supply_eq_sum_holders hs
  unused d := by
    rw [← circulating_eq_zero_iff hs]
    constructor
    · intro hok
      exact ((Factory.ensureNoSupply_runs hs).mp ⟨hok, rfl⟩).1
    · intro hzero
      exact ((Factory.ensureNoSupply_runs hs).mpr ⟨hzero, rfl⟩).1

end Bank

end TokenLedger
