import TokenLedger.Bank
import TokenLedger.Proofs.Chain.Action
import TokenLedger.Proofs.Store.RecordMap

/-!
# Balances

In a well-formed store every recorded balance is positive and fits in 128 bits.  There every balance
and every supply can be told: `held` and `circulating`.  `Moved` says that the balances of one account
have changed, and the sums of all balances with them; to set a balance that is not negative moves the
difference (`setBalance_moved`).
-/

namespace TokenLedger.Bank

variable {s t u : Store} {a a' d d' : String} {n : Int} {coin : Coin} {coins : List Coin}

/-! ### Well-formed stores -/

/-- Every recorded balance is positive and fits in 128 bits. -/
def WellFormed (s : Store) : Prop := balances.Holds (fun _ n => 0 < n ∧ n ≤ maxAmount) s

instance : balances.key.Lawful := inferInstanceAs Key.pair.Lawful

theorem wellFormed_empty : WellFormed Store.empty := RecordMap.holds_empty

theorem amountShape_amountJson (h : 0 ≤ n) : amountShape (amountJson n) = .valid n := by
  obtain ⟨m, rfl⟩ := Int.eq_ofNat_of_zero_le h
  have hread : Shape.digits (amountJson m) = .valid m := by
    simp only [amountJson, Decimal.ofInt_natCast, Shape.digits, Shape.text, Checked.andThen,
      Decimal.read?_repr]
  unfold amountShape
  rw [hread]
  rfl

theorem readsBack_amount (h : 0 ≤ n) : balances.ReadsBack n :=
  RecordMap.readsBack_of_plain (m := balances) trivial (amountShape_amountJson h)

theorem fullKey_balances (ha : Key.IsShort a) (d : String) :
    ∃ b, balances.fullKey (a, d) = .ok b := (RecordMap.exists_fullKey_pair_iff rfl).mpr ha

/-! ### Balances and supplies -/

/-- The balance of an account, or zero if it cannot have one. -/
def held (s : Store) (a d : String) : Int := (balance s a d).toOption.getD 0

/-- The supply of a denom, or zero if it cannot be told. -/
def circulating (s : Store) (d : String) : Int := (supply s d).toOption.getD 0

/-- What a recorded balance adds to the supply of a denom. -/
def share (d : String) (k : String × String) (n : Int) : Int := if k.2 = d then n else 0

theorem held_of_load? {o : Option Int} (h : balances.load? s (a, d) = .ok o) :
    held s a d = o.getD 0 := by
  unfold held balance
  rw [h]
  rfl

theorem held_of_error {e : Fault} (h : balances.fullKey (a, d) = .error e) : held s a d = 0 := by
  unfold held balance RecordMap.load?
  rw [h]
  rfl

theorem balance_eq_ok (h : balance s a d = .ok n) :
    ∃ o, balances.load? s (a, d) = .ok o ∧ n = o.getD 0 := by
  obtain ⟨o, ho, hn⟩ := Except.map_eq_ok.mp h
  exact ⟨o, ho, hn.symm⟩

theorem held_of_balance (h : balance s a d = .ok n) : held s a d = n := by
  unfold held
  rw [h]
  rfl

/-- A balance that was read is the one that is held. -/
theorem balance_eq_held (h : balance s a d = .ok n) : balance s a d = .ok (held s a d) := by
  rw [held_of_balance h, h]

theorem WellFormed.load? (hs : WellFormed s) (a d : String) :
    (∃ e, balances.fullKey (a, d) = .error e) ∨ balances.load? s (a, d) = .ok none ∨
      ∃ n, balances.load? s (a, d) = .ok (some n) ∧ 0 < n ∧ n ≤ maxAmount := by
  cases hk : balances.fullKey (a, d) with
  | error e => exact Or.inl ⟨e, rfl⟩
  | ok b =>
    rcases hs.cases_load? hk with ⟨-, hnone⟩ | ⟨n, -, hn, -, hpos⟩
    · exact Or.inr (Or.inl hnone)
    · exact Or.inr (Or.inr ⟨n, hn, hpos⟩)

theorem WellFormed.held_nonneg (hs : WellFormed s) (a d : String) : 0 ≤ held s a d := by
  rcases hs.load? a d with ⟨e, he⟩ | hnone | ⟨n, hn, hpos, -⟩
  · rw [held_of_error he]
  · rw [held_of_load? hnone]
    rfl
  · rw [held_of_load? hn]
    exact Int.le_of_lt hpos

theorem WellFormed.held_le_maxAmount (hs : WellFormed s) (a d : String) :
    held s a d ≤ maxAmount := by
  rcases hs.load? a d with ⟨e, he⟩ | hnone | ⟨n, hn, -, hmax⟩
  · rw [held_of_error he]
    omega
  · rw [held_of_load? hnone]
    exact Int.natCast_nonneg maxAmount
  · rw [held_of_load? hn]
    exact hmax

theorem WellFormed.balance (hs : WellFormed s) (ha : Key.IsShort a) (d : String) :
    balance s a d = .ok (held s a d) := by
  obtain ⟨b, hk⟩ := fullKey_balances ha d
  rcases hs.load? a d with ⟨e, he⟩ | hnone | ⟨n, hn, -⟩
  · rw [hk] at he
    cases he
  · unfold Bank.balance
    rw [held_of_load? hnone, hnone]
    rfl
  · unfold Bank.balance
    rw [held_of_load? hn, hn]
    rfl

theorem foldl_share (d : String) (all : List ((String × String) × Int)) (n : Int) :
    (all.filter (·.1.2 == d)).foldl (fun sum e => sum + e.2) n =
      n + (all.map fun e => share d e.1 e.2).sum := by
  induction all generalizing n with
  | nil => simp
  | cons e all ih =>
    rw [List.filter_cons, List.map_cons, List.sum_cons, share]
    by_cases hd : e.1.2 = d
    · rw [if_pos (by simpa using hd), if_pos hd, List.foldl_cons, ih]
      omega
    · rw [if_neg (by simpa using hd), if_neg hd, ih]
      omega

theorem WellFormed.supply_eq_total (hs : WellFormed s) (d : String) :
    supply s d = .ok (s.total (balances.weigh (share d))) := by
  obtain ⟨all, hall, hsum⟩ := hs.entries (share d)
  unfold supply
  rw [hall]
  show Except.ok _ = _
  rw [foldl_share, Int.zero_add, hsum]

theorem WellFormed.circulating_eq_total (hs : WellFormed s) (d : String) :
    circulating s d = s.total (balances.weigh (share d)) := by
  unfold circulating
  rw [hs.supply_eq_total]
  rfl

/-- Every supply can be told. -/
theorem WellFormed.supply (hs : WellFormed s) (d : String) :
    supply s d = .ok (circulating s d) := by
  rw [hs.circulating_eq_total, hs.supply_eq_total]

theorem share_nonneg (d : String) (k : String × String) (n : Int)
    (h : 0 < n ∧ n ≤ maxAmount) : 0 ≤ share d k n := by
  unfold share
  split_ifs
  · omega
  · omega

theorem WellFormed.circulating_nonneg (hs : WellFormed s) (d : String) : 0 ≤ circulating s d := by
  rw [hs.circulating_eq_total]
  refine List.sum_nonneg fun x hx => ?_
  obtain ⟨e, he, rfl⟩ := List.mem_map.mp hx
  exact hs.weigh_nonneg _ (share_nonneg d) e he

/-! ### Other parts of the store -/

section Frame

variable (h : Store.SameUnder balances.root s t)
include h

theorem wellFormed_congr (hs : WellFormed s) : WellFormed t := hs.congr h

theorem balance_congr (a d : String) : balance t a d = balance s a d := by
  unfold balance
  rw [RecordMap.load?_congr h]

theorem held_congr (a d : String) : held t a d = held s a d := by
  unfold held
  rw [balance_congr h]

theorem circulating_congr (d : String) : circulating t d = circulating s d := by
  unfold circulating supply
  rw [RecordMap.entries_congr h]

end Frame

/-! ### Setting a balance -/

theorem setBalance_cases (h : setBalance a d n s = .ok t) :
    (n = 0 ∧ balances.delete s (a, d) = .ok t) ∨ (n ≠ 0 ∧ balances.save s (a, d) n = .ok t) := by
  unfold setBalance at h
  split_ifs at h with hn
  · exact Or.inl ⟨hn, h⟩
  · exact Or.inr ⟨hn, h⟩

/-- Any balance of an account that can have one can be set. -/
theorem exists_setBalance (ha : Key.IsShort a) (d : String) (n : Int) (s : Store) :
    ∃ t, setBalance a d n s = .ok t := by
  obtain ⟨b, hk⟩ := fullKey_balances ha d
  unfold setBalance
  split_ifs
  · exact ⟨_, RecordMap.delete_eq_ok.mpr ⟨b, hk, rfl⟩⟩
  · exact ⟨_, RecordMap.save_eq_ok.mpr ⟨b, hk, rfl⟩⟩

theorem load?_setBalance (hn : 0 ≤ n) (h : setBalance a d n s = .ok t) :
    balances.load? t (a, d) = .ok (if n = 0 then none else some n) := by
  rcases setBalance_cases h with ⟨rfl, h⟩ | ⟨hne, h⟩
  · exact RecordMap.load?_delete h
  · rw [if_neg hne]
    exact RecordMap.load?_save (readsBack_amount hn) h

theorem load?_setBalance_of_ne (hne : (a', d') ≠ (a, d)) (h : setBalance a d n s = .ok t) :
    balances.load? t (a', d') = balances.load? s (a', d') := by
  rcases setBalance_cases h with ⟨-, h⟩ | ⟨-, h⟩
  · exact RecordMap.load?_delete_of_ne hne h
  · exact RecordMap.load?_save_of_ne hne h

theorem wellFormed_setBalance (hs : WellFormed s) (hn : 0 ≤ n) (hmax : n ≤ maxAmount)
    (h : setBalance a d n s = .ok t) : WellFormed t := by
  rcases setBalance_cases h with ⟨-, h⟩ | ⟨hne, h⟩
  · exact hs.delete h
  · exact hs.save (readsBack_amount hn) ⟨by omega, hmax⟩ h

theorem sameOutside_setBalance (h : setBalance a d n s = .ok t) :
    Store.SameOutside balances.root s t := by
  rcases setBalance_cases h with ⟨-, h⟩ | ⟨-, h⟩
  · exact RecordMap.sameOutside_delete h
  · exact RecordMap.sameOutside_save h

theorem total_setBalance {o : Option Int} (hn : 0 ≤ n) (ho : balances.load? s (a, d) = .ok o)
    (h : setBalance a d n s = .ok t) (d' : String) :
    t.total (balances.weigh (share d')) =
      s.total (balances.weigh (share d')) + if d' = d then n - o.getD 0 else 0 := by
  have hshare : (o.map (share d' (a, d))).getD 0 = if d' = d then o.getD 0 else 0 := by
    cases o <;> simp [share, eq_comm]
  rcases setBalance_cases h with ⟨rfl, h⟩ | ⟨-, h⟩
  · rw [RecordMap.total_delete _ ho h, hshare]
    split_ifs <;> omega
  · rw [RecordMap.total_save _ (readsBack_amount hn) ho h, hshare, share]
    simp only [eq_comm (a := d)]
    split_ifs <;> omega

/-! ### Moves -/

/-- The balances of an account have changed by some amount of each denom, and the sums of the
balances have changed with them.  The balances need not fit. -/
structure Moved (a : String) (change : String → Int) (s t : Store) : Prop where
  held : ∀ a' d, held t a' d = held s a' d + if a' = a then change d else 0
  total : ∀ d, t.total (balances.weigh (share d)) = s.total (balances.weigh (share d)) + change d

theorem Moved.circulating {change : String → Int} (h : Moved a change s t) (hs : WellFormed s)
    (ht : WellFormed t) (d : String) :
    Bank.circulating t d = Bank.circulating s d + change d := by
  rw [ht.circulating_eq_total, hs.circulating_eq_total, h.total]

theorem Moved.refl (s : Store) (a : String) : Moved a (fun _ => 0) s s where
  held := by simp
  total := by simp

theorem Moved.trans {f g : String → Int} (h : Moved a f s t) (h' : Moved a g t u) :
    Moved a (fun d => f d + g d) s u where
  held a' d := by
    rw [h'.held, h.held]
    split_ifs <;> omega
  total d := by
    rw [h'.total, h.total]
    omega

theorem Moved.held_self {change : String → Int} (h : Moved a change s t) (d : String) :
    Bank.held t a d = Bank.held s a d + change d := by
  rw [h.held, if_pos rfl]

theorem Moved.held_of_ne {a' : String} {change : String → Int} (h : Moved a change s t)
    (hne : a' ≠ a) (d : String) : Bank.held t a' d = Bank.held s a' d := by
  rw [h.held, if_neg hne, Int.add_zero]

theorem setBalance_moved (hn : 0 ≤ n) (hb : balance s a d = .ok (held s a d))
    (h : setBalance a d n s = .ok t) :
    Moved a (fun d' => if d' = d then n - held s a d else 0) s t := by
  obtain ⟨o, ho, hheld⟩ := balance_eq_ok hb
  refine ⟨fun a' d' => ?_, fun d' => ?_⟩
  · by_cases hne : (a', d') = (a, d)
    · injection hne with ha hd
      subst ha hd
      rw [held_of_load? (load?_setBalance hn h), if_pos rfl, if_pos rfl]
      split_ifs with hzero
      · simp only [Option.getD_none]
        omega
      · simp only [Option.getD_some]
        omega
    · have hsame : held t a' d' = held s a' d' := by
        unfold held balance
        rw [load?_setBalance_of_ne hne h]
      rw [hsame]
      split_ifs with ha hd
      · exact absurd (by rw [ha, hd]) hne
      · omega
      · omega
  · rw [hheld, total_setBalance hn ho h]

/-! ### Coins -/

/-- How much of a denom coins come to. -/
def amountOf : List Coin → String → Int
  | [], _ => 0
  | coin :: coins, d => (if d = coin.denom then coin.amount else 0) + amountOf coins d

theorem amountOf_cons (coin : Coin) (coins : List Coin) (d : String) :
    amountOf (coin :: coins) d =
      (if d = coin.denom then coin.amount else 0) + amountOf coins d := rfl

theorem sub_cons_runs {r : Unit} : (sub a (coin :: coins)).Runs s r t ↔
    ∃ u, subCoin a coin s = .ok u ∧ (sub a coins).Runs u r t := by
  simp only [sub, Action.runs_bind, Action.runs_write, exists_const]

theorem add_cons_runs {r : Unit} : (add a (coin :: coins)).Runs s r t ↔
    ∃ u, addCoin a coin s = .ok u ∧ (add a coins).Runs u r t := by
  simp only [add, Action.runs_bind, Action.runs_write, exists_const]

end TokenLedger.Bank
