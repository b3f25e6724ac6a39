import TokenLedger.Proofs.Bank.Totals
import TokenLedger.Proofs.Chain.SignedAmounts

/-!
# Calls of the bank with many coins

The coins of a call may name a denom several times and come in any order, and some may be zero.  On a
well-formed store the call succeeds exactly if its totals can be taken and given (`Affordable`), and
then it moves the totals and nothing else (`Settled`).  So calls whose coins come to the same succeed
together and leave the same store (`runs_withCoins`).
-/

namespace TokenLedger.BankCall

open Bank

variable {c : Chain} {x : BankCall} {s t u : Store} {r : Response}
variable {sender recipient a d : String} {coins : List Coin}

/-- The accounts of a call can have balances, and coins are sent to somebody. -/
def Addressed : BankCall → Prop
  | .send sender recipient _ => Key.IsShort sender ∧ Key.IsShort recipient ∧ recipient ≠ ""
  | .burn sender _ => Key.IsShort sender
  | .mint recipient _ => Key.IsShort recipient

/-- The sender has the totals of a call, and the recipient, if it is somebody else, has room for
them. -/
def Affordable (s : Store) : BankCall → Prop
  | .send sender recipient coins =>
    (∀ d, amountOf coins d ≤ held s sender d) ∧
      (sender ≠ recipient → ∀ d, held s recipient d + amountOf coins d ≤ maxAmount)
  | .burn sender coins => ∀ d, amountOf coins d ≤ held s sender d
  | .mint recipient coins => ∀ d, held s recipient d + amountOf coins d ≤ maxAmount

/-- What the totals of a call add to a balance. -/
def gain : BankCall → (account denom : String) → Int
  | .send sender recipient coins, a, d =>
    (if a = recipient then amountOf coins d else 0) - if a = sender then amountOf coins d else 0
  | .burn sender coins, a, d => -if a = sender then amountOf coins d else 0
  | .mint recipient coins, a, d => if a = recipient then amountOf coins d else 0

/-- What the totals of a call add to a supply. -/
def issued : BankCall → (denom : String) → Int
  | .send .., _ => 0
  | .burn _ coins, d => -amountOf coins d
  | .mint _ coins, d => amountOf coins d

/-- A call has moved its totals and nothing else. -/
structure Settled (x : BankCall) (s t : Store) : Prop where
  wellFormed : WellFormed t
  balance : ∀ a d, Bank.balance t a d = (· + x.gain a d) <$> Bank.balance s a d
  supply : ∀ d, Bank.supply t d = (· + x.issued d) <$> Bank.supply s d
  outside : Store.SameOutside balances.root s t

/-- A call with other coins. -/
def withCoins (coins : List Coin) : BankCall → BankCall
  | .send sender recipient _ => .send sender recipient coins
  | .burn sender _ => .burn sender coins
  | .mint recipient _ => .mint recipient coins

/-! ### Success -/

/-- Coins are taken from one account and given to another if both are right for their totals; what
is taken from an account and given back to it always has room there. -/
theorem send_succeeds_iff (hs : WellFormed s) (hsender : Key.IsShort sender)
    (hrecipient : Key.IsShort recipient) (hc : NonNegativeCoins coins) :
    (∃ u, (sub sender coins).Runs s () u ∧ ∃ t, (add recipient coins).Runs u () t) ↔
      (BankCall.send sender recipient coins).Affordable s := by
  have hroom : ∀ u, (sub sender coins).Runs s () u →
      ((∃ t, (add recipient coins).Runs u () t) ↔
        (sender ≠ recipient → ∀ d, held s recipient d + amountOf coins d ≤ maxAmount)) := by
    intro u hsub
    have htaken := sub_booked hs hc hsub
    rw [add_runs_iff htaken.wellFormed hrecipient hc]
    by_cases hself : sender = recipient
    · subst hself
      refine iff_of_true (fun d => ?_) fun hne => absurd rfl hne
      have hmax := hs.held_le_maxAmount sender d
      rw [htaken.held, if_pos rfl]
      omega
    · simp only [htaken.held, if_neg (Ne.symm hself), Int.add_zero, ne_eq, hself,
        not_false_eq_true, forall_const]
  constructor
  · rintro ⟨u, hsub, hadd⟩
    exact ⟨(sub_runs_iff hs hsender hc).mp ⟨u, hsub⟩, (hroom u hsub).mp hadd⟩
  · rintro ⟨hhas, hfits⟩
    obtain ⟨u, hsub⟩ := (sub_runs_iff hs hsender hc).mpr hhas
    exact ⟨u, hsub, (hroom u hsub).mpr hfits⟩

/-- A call succeeds exactly if its totals can be taken and given. -/
theorem succeeds_iff (c : Chain) (hs : WellFormed s) (hx : x.Addressed)
    (hc : NonNegativeCoins x.amount) :
    (∃ r t, (c.transact x.transaction).Runs s r t) ↔ x.Affordable s := by
  simp only [Chain.transact_runs_iff]
  cases x with
  | burn sender coins =>
    have hcoins : NonNegativeCoins coins := hc
    rw [Affordable, ← sub_runs_iff hs hx hcoins]
    constructor
    · rintro ⟨r, t, hrun⟩
      exact ⟨t, (burn_runs.mp hrun).2⟩
    · rintro ⟨t, hsub⟩
      exact ⟨.empty, t, burn_runs.mpr ⟨rfl, hsub⟩⟩
  | mint recipient coins =>
    have hcoins : NonNegativeCoins coins := hc
    rw [Affordable, ← add_runs_iff hs hx hcoins]
    constructor
    · rintro ⟨r, t, hrun⟩
      exact ⟨t, (mint_runs.mp hrun).2⟩
    · rintro ⟨t, hadd⟩
      exact ⟨.empty, t, mint_runs.mpr ⟨rfl, hadd⟩⟩
  | send sender recipient coins =>
    have hcoins : NonNegativeCoins coins := hc
    obtain ⟨hsender, hrecipient, hnamed⟩ := hx
    rw [← send_succeeds_iff hs hsender hrecipient hcoins]
    constructor
    · rintro ⟨r, t, hrun⟩
      obtain ⟨-, -, u, hsub, hadd⟩ := send_runs.mp hrun
      exact ⟨u, hsub, t, hadd⟩
    · rintro ⟨u, hsub, t, hadd⟩
      exact ⟨.empty, t, send_runs.mpr ⟨hnamed, rfl, u, hsub, hadd⟩⟩

/-! ### Effects -/

theorem settled_of (hs : WellFormed s) (ht : WellFormed t)
    (hheld : ∀ a d, held t a d = held s a d + x.gain a d)
    (hsupply : ∀ d, circulating t d = circulating s d + x.issued d)
    (hout : Store.SameOutside balances.root s t) : x.Settled s t where
  wellFormed := ht
  balance a d := by
    by_cases ha : Key.IsShort a
    · rw [ht.balance ha d, hs.balance ha d, hheld]
      rfl
    · cases hb : Bank.balance s a d with
      | ok n => exact absurd (isShort_of_balance hb) ha
      | error e =>
        unfold Bank.balance at hb ⊢
        rw [load?_eq_of_not_isShort ha s t d, hb]
        rfl
  supply d := by
    rw [ht.supply d, hs.supply d, hsupply]
    rfl
  outside := hout

/-- A call that succeeds answers nothing and has moved its totals. -/
theorem settled_of_runs (c : Chain) (hs : WellFormed s) (hc : NonNegativeCoins x.amount)
    (h : (c.transact x.transaction).Runs s r t) : r = .empty ∧ x.Settled s t := by
  have hrun := (c.transact_runs_iff s x.transaction).mp h
  cases x with
  | burn sender coins =>
    have hcoins : NonNegativeCoins coins := hc
    obtain ⟨hr, hsub⟩ := burn_runs.mp hrun
    have htaken := sub_booked hs hcoins hsub
    refine ⟨hr, settled_of hs htaken.wellFormed (fun a d => ?_) htaken.circulating htaken.outside⟩
    rw [htaken.held, gain]
    split_ifs <;> omega
  | mint recipient coins =>
    obtain ⟨hr, hadd⟩ := mint_runs.mp hrun
    have hgiven := add_booked hs hc hadd
    exact ⟨hr, settled_of hs hgiven.wellFormed hgiven.held hgiven.circulating hgiven.outside⟩
  | send sender recipient coins =>
    have hcoins : NonNegativeCoins coins := hc
    obtain ⟨-, hr, u, hsub, hadd⟩ := send_runs.mp hrun
    have htaken := sub_booked hs hcoins hsub
    have hgiven := add_booked htaken.wellFormed hcoins hadd
    refine ⟨hr, settled_of hs hgiven.wellFormed (fun a d => ?_) (fun d => ?_)
      (htaken.outside.trans hgiven.outside)⟩
    · rw [hgiven.held, htaken.held, gain]
      split_ifs <;> omega
    · rw [hgiven.circulating, htaken.circulating, issued]
      omega

/-- Calls that add the same to every balance leave the same store. -/
theorem Settled.eq_of_gain {y : BankCall} (h : x.Settled s t) (h' : y.Settled s u)
    (hgain : ∀ a d, y.gain a d = x.gain a d) : u = t := by
  have hsame : SameBalances t u := fun a d _ => by rw [h'.balance, h.balance, hgain]
  refine hsame.eq h.wellFormed h'.wellFormed fun k hk => ?_
  rw [h'.outside k hk, h.outside k hk]

/-- What is sent to the sender changes nothing. -/
theorem Settled.eq_of_toOneself (h : x.Settled s t) (hs : WellFormed s) (hself : x.ToOneself) :
    t = s := by
  cases x with
  | burn sender coins => exact absurd hself id
  | mint recipient coins => exact absurd hself id
  | send sender recipient coins =>
    obtain rfl : recipient = sender := hself
    have hsame : SameBalances s t := fun a d ha => by
      rw [h.balance, hs.balance ha d, gain, Int.sub_self]
      show Except.ok (_ + 0) = _
      rw [Int.add_zero]
    exact hsame.eq hs h.wellFormed h.outside

/-! ### Other coins with the same totals -/

variable (htotals : ∀ d, amountOf coins d = amountOf x.amount d)

theorem addressed_withCoins : (x.withCoins coins).Addressed ↔ x.Addressed := by
  cases x <;> exact Iff.rfl

theorem amount_withCoins : (x.withCoins coins).amount = coins := by
  cases x <;> rfl

include htotals in
theorem affordable_withCoins : (x.withCoins coins).Affordable s ↔ x.Affordable s := by
  cases x <;> simp only [withCoins, Affordable, htotals, amount]

include htotals in
theorem gain_withCoins (a d : String) : (x.withCoins coins).gain a d = x.gain a d := by
  cases x <;> simp only [withCoins, gain, htotals, amount]

include htotals in
/-- Calls whose coins come to the same do the same. -/
theorem runs_withCoins (c : Chain) (hs : WellFormed s) (hx : x.Addressed)
    (hc : NonNegativeCoins x.amount) (hcoins : NonNegativeCoins coins) :
    (c.transact (x.withCoins coins).transaction).Runs s r t ↔
      (c.transact x.transaction).Runs s r t := by
  have hx' : (x.withCoins coins).Addressed := addressed_withCoins.mpr hx
  have hc' : NonNegativeCoins (x.withCoins coins).amount := amount_withCoins.symm ▸ hcoins
  have hsucceeds : (∃ r t, (c.transact (x.withCoins coins).transaction).Runs s r t) ↔
      ∃ r t, (c.transact x.transaction).Runs s r t := by
    rw [succeeds_iff c hs hx' hc', succeeds_iff c hs hx hc, affordable_withCoins htotals]
  have hsame {r r' : Response} {t t' : Store}
      (h' : (c.transact (x.withCoins coins).transaction).Runs s r' t')
      (h : (c.transact x.transaction).Runs s r t) : r' = r ∧ t' = t := by
    obtain ⟨rfl, hsettled'⟩ := settled_of_runs c hs hc' h'
    obtain ⟨rfl, hsettled⟩ := settled_of_runs c hs hc h
    exact ⟨rfl, hsettled.eq_of_gain hsettled' (gain_withCoins htotals)⟩
  constructor
  · intro h'
    obtain ⟨r₀, t₀, h⟩ := hsucceeds.mp ⟨r, t, h'⟩
    obtain ⟨rfl, rfl⟩ := hsame h' h
    exact h
  · intro h
    obtain ⟨r₀, t₀, h'⟩ := hsucceeds.mpr ⟨r, t, h⟩
    obtain ⟨rfl, rfl⟩ := hsame h' h
    exact h'

/-- **Coins act as their totals.**  On a well-formed store a call whose coins are not negative
succeeds exactly if the sender has what they come to in every denom and the recipient has room for it.
Then it adds the totals to the balances and the supplies and changes nothing else; what is sent to the
sender changes nothing at all.  In any other order the coins do the same. -/
theorem coins_act_as_totals (c : Chain) (hs : WellFormed s) (hx : x.Addressed)
    (hc : NonNegativeCoins x.amount) :
    ((∃ r t, (c.transact x.transaction).Runs s r t) ↔ x.Affordable s) ∧
    (∀ r t, (c.transact x.transaction).Runs s r t →
      x.Settled s t ∧ (x.ToOneself → t = s)) ∧
    ∀ coins, coins.Perm x.amount → ∀ r t,
      (c.transact (x.withCoins coins).transaction).Runs s r t ↔
        (c.transact x.transaction).Runs s r t := by
  refine ⟨succeeds_iff c hs hx hc, fun r t hrun => ?_, fun coins hperm r t => ?_⟩
  · obtain ⟨-, hsettled⟩ := settled_of_runs c hs hc hrun
    exact ⟨hsettled, hsettled.eq_of_toOneself hs⟩
  · have hcoins : NonNegativeCoins coins := fun coin hcoin => hc coin (hperm.mem_iff.mp hcoin)
    exact runs_withCoins (amountOf_perm hperm) c hs hx hc hcoins

/-- Seven coins in two parts, and none between them. -/
def splitSend : BankCall := .send "a" "b" [⟨"ucore", 3⟩, ⟨"ucore", 0⟩, ⟨"ucore", 4⟩]

/-- The parts are sent as the seven coins that they come to, in either order. -/
theorem coins_act_as_totals_splitSend :
    WellFormed smallBooks ∧ splitSend.Addressed ∧ NonNegativeCoins splitSend.amount ∧
      splitSend.Affordable smallBooks ∧
      ∃ r t, ((Chain.small .coreum).transact splitSend.transaction).Runs smallBooks r t ∧
        Bank.balance t "a" "ucore" = .ok 9999993 ∧ Bank.balance t "b" "ucore" = .ok 12 ∧
        ((Chain.small .coreum).transact
          (splitSend.withCoins splitSend.amount.reverse).transaction).Runs smallBooks r t := by
  have hx : splitSend.Addressed := by
    refine ⟨?_, ?_, ?_⟩ <;> decide
  have hc : NonNegativeCoins splitSend.amount := by
    simp [splitSend, amount, NonNegativeCoins]
  obtain ⟨r, hr⟩ := Except.exists_ok_of_toOption
    (x := ((Chain.small .coreum).transact splitSend.transaction smallBooks).result)
    (by decide +kernel)
  obtain ⟨hsucceeds, heffect, horder⟩ :=
    coins_act_as_totals (Chain.small .coreum) wellFormed_smallBooks hx hc
  have hrun : ((Chain.small .coreum).transact splitSend.transaction).Runs smallBooks r _ := ⟨hr, rfl⟩
  obtain ⟨hsettled, -⟩ := heffect r _ hrun
  refine ⟨wellFormed_smallBooks, hx, hc, hsucceeds.mp ⟨r, _, hrun⟩, r, _, hrun, ?_, ?_, ?_⟩
  · have hbefore : Bank.balance smallBooks "a" "ucore" = .ok 10000000 :=
      Except.eq_ok_of_toOption (by decide +kernel)
    rw [hsettled.balance, hbefore]
    rfl
  · have hbefore : Bank.balance smallBooks "b" "ucore" = .ok 5 :=
      Except.eq_ok_of_toOption (by decide +kernel)
    rw [hsettled.balance, hbefore]
    rfl
  · exact (horder _ splitSend.amount.reverse_perm r _).mpr hrun

end TokenLedger.BankCall
