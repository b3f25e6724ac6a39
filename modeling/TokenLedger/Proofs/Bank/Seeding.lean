import TokenLedger.Proofs.Bank.Totals

/-!
# Replacing the balances of an account

The balances of an account are replaced in two loops: all that is listed for it is taken away, and
then the new coins are added one by one to what is left.  As everything the account has is listed,
nothing is left, and the new coins come to its balances (`initBalance_booked`).
-/

namespace TokenLedger.Bank

variable {s t u : Store} {a a' d : String} {coin : Coin} {coins : List Coin}

/-! ### Books that are kept one after another -/

theorem Booked.trans {f g : String → Int} (h : Booked a f s t) (h' : Booked a g t u) :
    Booked a (fun d => f d + g d) s u where
  wellFormed := h'.wellFormed
  outside := h.outside.trans h'.outside
  held a' d := by
    rw [h'.held, h.held]
    split_ifs <;> omega
  circulating d := by
    rw [h'.circulating, h.circulating]
    omega

theorem Booked.held_self {change : String → Int} (h : Booked a change s t) (d : String) :
    Bank.held t a d = Bank.held s a d + change d := by
  rw [h.held, if_pos rfl]

/-- The balances of all other accounts are what they were, also of those that can have none. -/
theorem Booked.balance_of_ne {change : String → Int} (h : Booked a change s t) (hs : WellFormed s)
    (hne : a' ≠ a) (d : String) : balance t a' d = balance s a' d := by
  by_cases ha' : Key.IsShort a'
  · rw [hs.balance ha', h.wellFormed.balance ha', h.held, if_neg hne, Int.add_zero]
  · unfold balance
    rw [load?_eq_of_not_isShort ha' s t]

/-! ### Taking away what is listed -/

theorem clear_cons_runs {r : Unit} : (clear a (coin :: coins)).Runs s r t ↔
    ∃ u, setBalance a coin.denom 0 s = .ok u ∧ (clear a coins).Runs u r t := by
  simp only [clear, Action.runs_bind, Action.runs_write, exists_const]

/-- How much goes of a denom when the listed ones are taken away. -/
def cleared (s : Store) (a : String) (coins : List Coin) (d : String) : Int :=
  if d ∈ coins.map Coin.denom then -held s a d else 0

theorem setBalance_zero_booked (hs : WellFormed s) (ha : Key.IsShort a) (d : String) :
    ∃ t, setBalance a d 0 s = .ok t ∧
      Booked a (fun d' => if d' = d then -held s a d else 0) s t := by
  obtain ⟨t, ht⟩ := exists_setBalance ha d 0 s
  have hmoved := setBalance_moved (Int.le_refl 0) (hs.balance ha d) ht
  rw [Int.zero_sub] at hmoved
  have hwell : WellFormed t := wellFormed_setBalance hs (Int.le_refl 0) (by omega) ht
  exact ⟨t, ht, hmoved.booked hs hwell (sameOutside_setBalance ht)⟩

/-- The listed balances are taken away, and nothing else. -/
theorem clear_booked (hs : WellFormed s) (ha : Key.IsShort a) (coins : List Coin) :
    ∃ t, (clear a coins).Runs s () t ∧ Booked a (cleared s a coins) s t := by
  induction coins generalizing s with
  | nil =>
    refine ⟨s, Action.runs_pure.mpr ⟨rfl, rfl⟩, ?_⟩
    exact Booked.refl hs a
  | cons coin coins ih =>
    obtain ⟨u, hfirst, hbooked⟩ := setBalance_zero_booked hs ha coin.denom
    obtain ⟨t, hrest, hrestBooked⟩ := ih hbooked.wellFormed
    refine ⟨t, clear_cons_runs.mpr ⟨u, hfirst, hrest⟩, ?_⟩
    -- A denom that is listed twice has nothing left when it comes again.
    have hchange : cleared s a (coin :: coins) =
        fun d => (if d = coin.denom then -held s a coin.denom else 0) + cleared u a coins d := by
      funext d
      simp only [cleared, List.map_cons, List.mem_cons, hbooked.held_self]
      by_cases hd : d = coin.denom
      · subst hd
        simp
      · simp [hd]
    exact hchange ▸ hbooked.trans hrestBooked

/-- The listing of an account leaves nothing out. -/
theorem cleared_eq_of_allBalances (hs : WellFormed s) (ha : Key.IsShort a)
    (h : allBalances s a = .ok coins) (d : String) : cleared s a coins d = -held s a d := by
  obtain ⟨listed, hlisted, -, hmem⟩ := allBalances_eq_coins hs a
  obtain rfl : coins = listed := Except.ok.inj (h.symm.trans hlisted)
  unfold cleared
  split_ifs with hd
  · rfl
  · have hpos : ¬ 0 < held s a d := fun hpos =>
      hd (List.mem_map.mpr ⟨⟨d, held s a d⟩, (hmem _).mpr ⟨hs.balance ha d, hpos⟩, rfl⟩)
    have hnonneg := hs.held_nonneg a d
    omega

/-! ### Replacing the balances -/

theorem initBalance_runs {r : Unit} : (initBalance a coins).Runs s r t ↔
    ∃ listed u, allBalances s a = .ok listed ∧ (clear a listed).Runs s () u ∧
      (add a coins).Runs u r t := by
  simp only [initBalance, Action.runs_bind, Action.runs_read]
  constructor
  · rintro ⟨listed, _, ⟨hlisted, rfl⟩, ⟨⟩, u, hclear, hadd⟩
    exact ⟨listed, u, hlisted, hclear, hadd⟩
  · rintro ⟨listed, u, hlisted, hclear, hadd⟩
    exact ⟨listed, s, ⟨hlisted, rfl⟩, (), u, hclear, hadd⟩

/-- The balances of an account are replaced by what the coins come to, if that fits. -/
theorem initBalance_booked (hs : WellFormed s) (ha : Key.IsShort a) (hc : NonNegativeCoins coins)
    (hmax : ∀ d, amountOf coins d ≤ maxAmount) :
    ∃ t, (initBalance a coins).Runs s () t ∧
      Booked a (fun d => -held s a d + amountOf coins d) s t := by
  obtain ⟨listed, hlisted⟩ := hs.allBalances a
  obtain ⟨u, hclear, hcleared⟩ := clear_booked hs ha listed
  rw [show cleared s a listed = fun d => -held s a d from
    funext (cleared_eq_of_allBalances hs ha hlisted)] at hcleared
  have hnothing (d : String) : held u a d = 0 := by
    rw [hcleared.held_self]
    omega
  have hroom (d : String) : held u a d + amountOf coins d ≤ maxAmount := by
    rw [hnothing, Int.zero_add]
    exact hmax d
  obtain ⟨t, hadd⟩ := exists_add_runs hcleared.wellFormed ha hc hroom
  exact ⟨t, initBalance_runs.mpr ⟨listed, u, hlisted, hclear, hadd⟩,
    hcleared.trans (add_booked hcleared.wellFormed hc hadd)⟩

end TokenLedger.Bank
