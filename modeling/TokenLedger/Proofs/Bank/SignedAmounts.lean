import TokenLedger.Proofs.Bank.Balances

/-!
# Coins with signed amounts

An amount is any integer, and nothing keeps negative ones out.  Taking coins asks for enough of each
and so leaves every balance readable, though perhaps too large (`sub_moved`).  Giving coins asks for
room, and a negative coin may leave a negative balance, which is stored and can never be read again:
from then on the account can neither be given nor relieved of that denom (`add_cases`).
-/

namespace TokenLedger.Bank

variable {s t u : Store} {a d : String} {n : Int} {coin : Coin} {coins : List Coin} {e : Fault}

/-! ### Balances that can be read -/

/-- Every recorded balance is positive, but it may be too large. -/
def Readable (s : Store) : Prop := balances.Holds (fun _ n => 0 < n) s

theorem WellFormed.readable (hs : WellFormed s) : Readable s := hs.mono fun _ _ h => h.1

/-- Where every balance can be read and fits, the store is well-formed. -/
theorem Readable.wellFormed (hs : Readable s) (hmax : ∀ a d, held s a d ≤ maxAmount) :
    WellFormed s := by
  intro b raw hb hroot
  obtain ⟨⟨a, d⟩, n, hk, hraw, hv, hpos⟩ := hs b raw hb hroot
  have hload : balances.load? s (a, d) = .ok (some n) :=
    (RecordMap.load?_eq_some_iff hk).mpr ⟨raw, hb, hraw ▸ hv⟩
  have hfits := hmax a d
  rw [held_of_load? hload] at hfits
  exact ⟨(a, d), n, hk, hraw, hv, hpos, hfits⟩

theorem readable_setBalance (hs : Readable s) (hn : 0 ≤ n) (h : setBalance a d n s = .ok t) :
    Readable t := by
  rcases setBalance_cases h with ⟨-, h⟩ | ⟨hne, h⟩
  · exact hs.delete h
  · have hpos : 0 < n := by omega
    exact hs.save (readsBack_amount hn) hpos h

/-! ### Coins that are taken -/

theorem subCoin_moved (h : subCoin a coin s = .ok t) :
    Moved a (fun d => if d = coin.denom then -coin.amount else 0) s t ∧
      (Readable s → Readable t) := by
  obtain ⟨n, hb, h⟩ := Except.bind_eq_ok.mp h
  have hheld : held s a coin.denom = n := held_of_balance hb
  split_ifs at h with hlt
  have hleft : 0 ≤ n - coin.amount := by omega
  have hmoved := setBalance_moved hleft (balance_eq_held hb) h
  have hchange : n - coin.amount - held s a coin.denom = -coin.amount := by omega
  rw [hchange] at hmoved
  exact ⟨hmoved, fun hs => readable_setBalance hs hleft h⟩

/-- Taking coins moves their amounts, whatever these are. -/
theorem sub_moved {r : Unit} (hs : Readable s) (h : (sub a coins).Runs s r t) :
    Moved a (fun d => -amountOf coins d) s t ∧ Readable t := by
  induction coins generalizing s with
  | nil =>
    obtain ⟨-, rfl⟩ := Action.runs_pure.mp h
    exact ⟨.refl t a, hs⟩
  | cons coin coins ih =>
    obtain ⟨s', hfirst, hrest⟩ := sub_cons_runs.mp h
    obtain ⟨hmoved, hread⟩ := subCoin_moved hfirst
    obtain ⟨hlater, ht⟩ := ih (hread hs) hrest
    have hchange : (fun d => -amountOf (coin :: coins) d) =
        fun d => (if d = coin.denom then -coin.amount else 0) + -amountOf coins d := by
      funext d
      rw [amountOf_cons]
      split_ifs <;> omega
    rw [hchange]
    exact ⟨hmoved.trans hlater, ht⟩

/-! ### Balances that cannot be read -/

theorem read?_ofInt_of_neg (h : n < 0) : Decimal.read? (Decimal.ofInt n) = none := by
  cases n with
  | ofNat m => exact absurd h (Int.not_lt.mpr (Int.natCast_nonneg m))
  | negSucc m =>
    have hdash : (Decimal.ofInt (.negSucc m)).toList = '-' :: (m + 1).repr.toList :=
      String.toList_append
    rw [Decimal.read?, hdash]
    rfl

theorem readRecord_amountJson_of_neg (h : n < 0) :
    ∃ e, balances.readRecord (amountJson n).toBytes = .error e := by
  have hrefused : Shape.digits (amountJson n) = .invalid [.notDigits (Decimal.ofInt n)] := by
    simp only [amountJson, Shape.digits, Shape.text, Checked.andThen, read?_ofInt_of_neg h]
  refine ⟨.decode balances.name (.shape [.notDigits (Decimal.ofInt n)]), ?_⟩
  have hplain : (amountJson n).Plain := trivial
  show amountShape.readBytes balances.name (amountJson n).toBytes = _
  rw [Shape.readBytes_toBytes_eq hplain, amountShape, hrefused]
  rfl

/-- A negative balance is stored and cannot be read. -/
theorem balance_of_negative (hn : n < 0) (h : setBalance a d n s = .ok t) :
    ∃ e, balance t a d = .error e := by
  obtain ⟨e, he⟩ := readRecord_amountJson_of_neg hn
  rcases setBalance_cases h with ⟨rfl, -⟩ | ⟨-, h⟩
  · exact absurd hn (Int.lt_irrefl 0)
  · obtain ⟨b, hk, rfl⟩ := RecordMap.save_eq_ok.mp h
    refine ⟨e, ?_⟩
    unfold balance
    rw [RecordMap.load?_of_fullKey hk, Store.get?_set_self]
    show _ <$> (some <$> balances.readRecord (amountJson n).toBytes) = _
    rw [he]
    rfl

/-! ### Coins that are given -/

theorem exists_balance_of_addCoin (h : addCoin a coin s = .ok t) :
    ∃ n, balance s a coin.denom = .ok n := by
  obtain ⟨n, hn, -⟩ := Except.bind_eq_ok.mp h
  exact ⟨n, hn⟩

theorem balance_addCoin_of_ne (hne : d ≠ coin.denom) (h : addCoin a coin s = .ok t) :
    balance t a d = balance s a d := by
  obtain ⟨n, -, h⟩ := Except.bind_eq_ok.mp h
  split_ifs at h
  unfold balance
  rw [load?_setBalance_of_ne (fun heq => hne (Prod.mk.inj heq).2) h]

/-- Giving a coin moves its amount, and the new balance fits, or else it is negative and cannot be
read. -/
theorem addCoin_cases (hs : Readable s) (h : addCoin a coin s = .ok t) :
    (Moved a (fun d => if d = coin.denom then coin.amount else 0) s t ∧ Readable t ∧
        held t a coin.denom ≤ maxAmount) ∨
      held s a coin.denom + coin.amount < 0 ∧ ∃ e, balance t a coin.denom = .error e := by
  obtain ⟨n, hb, h⟩ := Except.bind_eq_ok.mp h
  have hheld : held s a coin.denom = n := held_of_balance hb
  split_ifs at h with hroom
  by_cases hneg : n + coin.amount < 0
  · rw [hheld]
    exact Or.inr ⟨hneg, balance_of_negative hneg h⟩
  · have hmoved := setBalance_moved (Int.not_lt.mp hneg) (balance_eq_held hb) h
    have hchange : n + coin.amount - held s a coin.denom = coin.amount := by omega
    rw [hchange] at hmoved
    refine Or.inl ⟨hmoved, readable_setBalance hs (Int.not_lt.mp hneg) h, ?_⟩
    rw [hmoved.held_self, if_pos rfl]
    omega

/-- A denom whose balance cannot be read is never given again, and its balance stays as it is. -/
theorem add_of_unreadable {r : Unit} (hb : balance s a d = .error e)
    (h : (add a coins).Runs s r t) : amountOf coins d = 0 ∧ balance t a d = .error e := by
  induction coins generalizing s with
  | nil =>
    obtain ⟨-, rfl⟩ := Action.runs_pure.mp h
    exact ⟨rfl, hb⟩
  | cons coin coins ih =>
    obtain ⟨s', hfirst, hrest⟩ := add_cons_runs.mp h
    have hne : d ≠ coin.denom := by
      rintro rfl
      obtain ⟨n, hn⟩ := exists_balance_of_addCoin hfirst
      rw [hb] at hn
      cases hn
    have hb' : balance s' a d = .error e := by rw [balance_addCoin_of_ne hne hfirst, hb]
    obtain ⟨hnone, hstays⟩ := ih hb' hrest
    refine ⟨?_, hstays⟩
    rw [amountOf_cons, if_neg hne, hnone, Int.add_zero]

/-- Coins were given that come to less than nothing of a denom: its balance was there and cannot be
read any more. -/
structure Overdrawn (a : String) (coins : List Coin) (d : String) (s t : Store) : Prop where
  negative : held s a d + amountOf coins d < 0
  before : ∃ n, balance s a d = .ok n
  after : ∃ e, balance t a d = .error e

/-- What the later coins overdraw, all of them do. -/
theorem Overdrawn.cons {s' : Store} (h : Overdrawn a coins d s' t)
    (hfirst : addCoin a coin s = .ok s')
    (hmoved : Moved a (fun d => if d = coin.denom then coin.amount else 0) s s') :
    Overdrawn a (coin :: coins) d s t where
  negative := by
    have hnegative := h.negative
    rw [hmoved.held_self] at hnegative
    rw [amountOf_cons]
    omega
  before := by
    by_cases hd : d = coin.denom
    · subst hd
      exact exists_balance_of_addCoin hfirst
    · rw [← balance_addCoin_of_ne hd hfirst]
      exact h.before
  after := h.after

/-- Giving coins moves their amounts, and the new balances fit, or else a denom is overdrawn. -/
theorem add_cases {r : Unit} (hs : Readable s) (h : (add a coins).Runs s r t) :
    (Moved a (amountOf coins) s t ∧ Readable t ∧
        ∀ d, held t a d ≤ maxAmount ∨ held t a d = held s a d) ∨
      ∃ d, Overdrawn a coins d s t := by
  induction coins generalizing s with
  | nil =>
    obtain ⟨-, rfl⟩ := Action.runs_pure.mp h
    exact Or.inl ⟨.refl t a, hs, fun d => Or.inr rfl⟩
  | cons coin coins ih =>
    obtain ⟨s', hfirst, hrest⟩ := add_cons_runs.mp h
    rcases addCoin_cases hs hfirst with ⟨hmoved, hs', hroom⟩ | ⟨hneg, e, hbroken⟩
    · rcases ih hs' hrest with ⟨hlater, ht, hfits⟩ | ⟨d, hover⟩
      · refine Or.inl ⟨hmoved.trans hlater, ht, fun d => ?_⟩
        rcases hfits d with hmax | hsame
        · exact Or.inl hmax
        · by_cases hd : d = coin.denom
          · subst hd
            rw [hsame]
            exact Or.inl hroom
          · rw [hsame, hmoved.held_self, if_neg hd, Int.add_zero]
            exact Or.inr rfl
      · exact Or.inr ⟨d, hover.cons hfirst hmoved⟩
    · -- nothing of this denom can follow, so that the coin alone is to blame
      obtain ⟨hnone, hstays⟩ := add_of_unreadable hbroken hrest
      refine Or.inr ⟨coin.denom, ?_, exists_balance_of_addCoin hfirst, e, hstays⟩
      rw [amountOf_cons, if_pos rfl, hnone]
      omega

/-! ### Coins that come to something -/

theorem wellFormed_of_sub {r : Unit} (hs : WellFormed s) (hpos : ∀ d, 0 ≤ amountOf coins d)
    (h : (sub a coins).Runs s r t) : WellFormed t := by
  obtain ⟨hmoved, ht⟩ := sub_moved hs.readable h
  refine ht.wellFormed fun a' d => ?_
  have hfits := hs.held_le_maxAmount a' d
  have hcoins := hpos d
  rw [hmoved.held]
  split_ifs <;> omega

/-- If no balance that was given a coin is too large, then none is. -/
theorem wellFormed_of_moved {change : String → Int} (hs : WellFormed s) (ht : Readable t)
    (hmoved : Moved a change s t)
    (hfits : ∀ d, held t a d ≤ maxAmount ∨ held t a d = held s a d) :
    WellFormed t := by
  refine ht.wellFormed fun a' d => ?_
  by_cases ha : a' = a
  · subst ha
    rcases hfits d with hmax | hsame
    · exact hmax
    · rw [hsame]
      exact hs.held_le_maxAmount a' d
  · rw [hmoved.held_of_ne ha]
    exact hs.held_le_maxAmount a' d

end TokenLedger.Bank
