import TokenLedger.Proofs.Bank.Views
import TokenLedger.Proofs.Chain.Run
import TokenLedger.Proofs.Chain.Transactions

/-!
# Which amounts the bank survives

Coins of any amounts may be sent, burnt or minted.  A call that succeeds leaves the books in order
(`Sound`) exactly if its coins come to no less than nothing in every denom, or if it sends them to
the sender: single coins may be negative, but nobody asks whether all of them are.
-/

namespace TokenLedger

open Bank

/-- What can be asked of the bank. -/
inductive BankCall
  | send (sender recipient : String) (amount : List Coin)
  | burn (sender : String) (amount : List Coin)
  | mint (recipient : String) (amount : List Coin)
deriving DecidableEq, Repr

namespace BankCall

/-- The transaction that asks for it. -/
def transaction : BankCall → Chain.Transaction
  | .send sender recipient amount => .message sender (.bank (.send recipient amount))
  | .burn sender amount => .message sender (.bank (.burn amount))
  | .mint recipient amount => .order (.mint ⟨recipient, amount⟩)

/-- The coins of a call. -/
def amount : BankCall → List Coin
  | .send _ _ amount | .burn _ amount | .mint _ amount => amount

/-- The sender of a transaction; an order to mint has none. -/
def sender? : BankCall → Option String
  | .send sender .. | .burn sender _ => some sender
  | .mint .. => none

/-- A call sends coins to the sender. -/
def ToOneself : BankCall → Prop
  | .send sender recipient _ => recipient = sender
  | .burn .. | .mint .. => False

/-- What a call may do to a supply. -/
def Allows : BankCall → (before after : Int) → Prop
  | .send .., before, after => after = before
  | .burn .., before, after => after ≤ before
  | .mint .., before, after => before ≤ after

/-- A call has left the books in order: the store is well-formed, all that could be told can be told,
nobody but the sender has less, and the supplies are as they should be. -/
structure Sound (x : BankCall) (s t : Store) : Prop where
  wellFormed : WellFormed t
  balance : ∀ a d n, Bank.balance s a d = .ok n →
    ∃ n', Bank.balance t a d = .ok n' ∧ (x.sender? ≠ some a → n ≤ n')
  listing : ∀ a, ∃ coins, allBalances t a = .ok coins
  supply : ∀ d n, Bank.supply s d = .ok n → ∃ n', Bank.supply t d = .ok n' ∧ x.Allows n n'

variable {x : BankCall} {s t u : Store} {sender recipient a d : String} {coins : List Coin}

/-! ### Books in order -/

theorem sound_of (hs : WellFormed s) (ht : WellFormed t)
    (hheld : ∀ a d, x.sender? ≠ some a → held s a d ≤ held t a d)
    (hsupply : ∀ d, x.Allows (circulating s d) (circulating t d)) : x.Sound s t where
  wellFormed := ht
  balance a d n hn := by
    refine ⟨held t a d, ht.balance (isShort_of_balance hn) d, fun hne => ?_⟩
    have hle := hheld a d hne
    rw [held_of_balance hn] at hle
    exact hle
  listing a := by
    obtain ⟨coins, hcoins, -⟩ := allBalances_eq_coins ht a
    exact ⟨coins, hcoins⟩
  supply d n hn := by
    rw [hs.supply d] at hn
    obtain rfl := Except.ok.inj hn
    exact ⟨circulating t d, ht.supply d, hsupply d⟩

theorem Sound.circulating (h : x.Sound s t) (hs : WellFormed s) (d : String) :
    x.Allows (Bank.circulating s d) (Bank.circulating t d) := by
  obtain ⟨n', hn', hallowed⟩ := h.supply d _ (hs.supply d)
  rw [h.wellFormed.supply d] at hn'
  rw [Except.ok.inj hn']
  exact hallowed

theorem Sound.held_le (h : x.Sound s t) (hs : WellFormed s) (hne : x.sender? ≠ some a)
    (d : String) : held s a d ≤ held t a d := by
  cases hk : balances.fullKey (a, d) with
  | error e => rw [held_of_error hk, held_of_error hk]
  | ok b =>
    have hshort : Key.IsShort a := isShort_of_fullKey hk
    obtain ⟨n', hn', hle⟩ := h.balance a d _ (hs.balance hshort d)
    rw [held_of_balance hn']
    exact hle hne

/-- Where a denom is overdrawn the books are not in order. -/
theorem not_sound_of_overdrawn (hs : WellFormed s) (h : Overdrawn a coins d u t) :
    ¬ x.Sound s t := by
  intro hsound
  obtain ⟨n, hn⟩ := h.before
  obtain ⟨n', hn', -⟩ := hsound.balance a d _ (hs.balance (isShort_of_balance hn) d)
  obtain ⟨e, he⟩ := h.after
  rw [he] at hn'
  cases hn'

/-! ### The three calls -/

theorem burn_sound_iff {r : Unit} (hs : WellFormed s) (h : (sub sender coins).Runs s r t) :
    (BankCall.burn sender coins).Sound s t ↔ ∀ d, 0 ≤ amountOf coins d := by
  obtain ⟨hmoved, -⟩ := sub_moved hs.readable h
  constructor
  · intro hsound d
    have hle : circulating t d ≤ circulating s d := hsound.circulating hs d
    rw [hmoved.circulating hs hsound.wellFormed] at hle
    omega
  · intro hpos
    have ht := wellFormed_of_sub hs hpos h
    refine sound_of hs ht (fun a d hne => ?_) fun d => ?_
    · have ha : a ≠ sender := fun heq => hne (congrArg some heq.symm)
      rw [hmoved.held_of_ne ha]
    · show circulating t d ≤ circulating s d
      have hcoins := hpos d
      rw [hmoved.circulating hs ht]
      omega

theorem mint_sound_iff {r : Unit} (hs : WellFormed s) (h : (add recipient coins).Runs s r t) :
    (BankCall.mint recipient coins).Sound s t ↔ ∀ d, 0 ≤ amountOf coins d := by
  rcases add_cases hs.readable h with ⟨hmoved, hread, hfits⟩ | ⟨d, hover⟩
  · constructor
    · intro hsound d
      have hle : circulating s d ≤ circulating t d := hsound.circulating hs d
      rw [hmoved.circulating hs hsound.wellFormed] at hle
      omega
    · intro hpos
      have ht := wellFormed_of_moved hs hread hmoved hfits
      refine sound_of hs ht (fun a d _ => ?_) fun d => ?_
      · have hcoins := hpos d
        rw [hmoved.held]
        split_ifs <;> omega
      · show circulating s d ≤ circulating t d
        have hcoins := hpos d
        rw [hmoved.circulating hs ht]
        omega
  · constructor
    · intro hsound
      exact absurd hsound (not_sound_of_overdrawn hs hover)
    · intro hpos
      have hneg := hover.negative
      have hheld := hs.held_nonneg recipient d
      have hcoins := hpos d
      omega

/-- Coins that are sent to the sender come back, whatever their amounts are. -/
theorem sound_of_toOneself {r r' : Unit} (hs : WellFormed s) (hsub : (sub sender coins).Runs s r u)
    (hadd : (add sender coins).Runs u r' t) : (BankCall.send sender sender coins).Sound s t := by
  obtain ⟨htaken, hu⟩ := sub_moved hs.readable hsub
  rcases add_cases hu hadd with ⟨hgiven, hread, -⟩ | ⟨d, hover⟩
  · have hback := htaken.trans hgiven
    have hheld (a d : String) : held t a d = held s a d := by
      rw [hback.held]
      split_ifs <;> omega
    have ht : WellFormed t := hread.wellFormed fun a d => by
      rw [hheld]
      exact hs.held_le_maxAmount a d
    refine sound_of hs ht (fun a d _ => ?_) fun d => ?_
    · rw [hheld]
    · show circulating t d = circulating s d
      rw [hback.circulating hs ht]
      omega
  · have hneg := hover.negative
    have hheld := hs.held_nonneg sender d
    rw [htaken.held_self] at hneg
    omega

theorem send_sound_iff {r r' : Unit} (hs : WellFormed s) (hne : recipient ≠ sender)
    (hsub : (sub sender coins).Runs s r u) (hadd : (add recipient coins).Runs u r' t) :
    (BankCall.send sender recipient coins).Sound s t ↔ ∀ d, 0 ≤ amountOf coins d := by
  obtain ⟨htaken, hu⟩ := sub_moved hs.readable hsub
  rcases add_cases hu hadd with ⟨hgiven, hread, hfits⟩ | ⟨d, hover⟩
  · have hheld (d : String) : held t recipient d = held s recipient d + amountOf coins d := by
      rw [hgiven.held_self, htaken.held_of_ne hne]
    constructor
    · intro hsound d
      have hle : held s recipient d ≤ held t recipient d :=
        hsound.held_le hs (fun heq => hne (Option.some.inj heq).symm) d
      rw [hheld] at hle
      omega
    · intro hpos
      have huw := wellFormed_of_sub hs hpos hsub
      have ht := wellFormed_of_moved huw hread hgiven hfits
      refine sound_of hs ht (fun a d ha => ?_) fun d => ?_
      · have hother : a ≠ sender := fun heq => ha (congrArg some heq.symm)
        have hcoins := hpos d
        rw [hgiven.held, htaken.held_of_ne hother]
        split_ifs <;> omega
      · show circulating t d = circulating s d
        rw [hgiven.circulating huw ht, htaken.circulating hs huw]
        omega
  · constructor
    · intro hsound
      exact absurd hsound (not_sound_of_overdrawn hs hover)
    · intro hpos
      have hneg := hover.negative
      have hheld := hs.held_nonneg recipient d
      have hcoins := hpos d
      rw [htaken.held_of_ne hne] at hneg
      omega

/-- **What the bank survives.**  On a well-formed store a call that succeeds, whatever the amounts of
its coins are, leaves the books in order exactly if the coins come to no less than nothing in every
denom or are sent to the sender. -/
theorem sound_iff (c : Chain) {r : Response} (hs : WellFormed s)
    (h : (c.transact x.transaction).Runs s r t) :
    x.Sound s t ↔ (∀ d, 0 ≤ amountOf x.amount d) ∨ x.ToOneself := by
  have hrun := (c.transact_runs_iff s x.transaction).mp h
  cases x with
  | burn sender coins =>
    have hsub := (burn_runs.mp hrun).2
    rw [burn_sound_iff hs hsub]
    exact (or_iff_left id).symm
  | mint recipient coins =>
    have hadd := (mint_runs.mp hrun).2
    rw [mint_sound_iff hs hadd]
    exact (or_iff_left id).symm
  | send sender recipient coins =>
    obtain ⟨-, -, u, hsub, hadd⟩ := send_runs.mp hrun
    by_cases hself : recipient = sender
    · subst hself
      constructor
      · intro _
        exact Or.inr rfl
      · intro _
        exact sound_of_toOneself hs hsub hadd
    · rw [send_sound_iff hs hself hsub hadd]
      exact (or_iff_left hself).symm

/-- The books of the small accounts. -/
def smallBooks : Store := (Chain.small .coreum).run Chain.smallAccounts

theorem wellFormed_smallBooks : WellFormed smallBooks :=
  Chain.run_wellFormed Chain.smallAccounts_nonNegative

/-- Five coins with two of them back. -/
def mixedSend : BankCall := .send "a" "b" [⟨"ucore", 5⟩, ⟨"ucore", -2⟩]

/-- One of the amounts is negative, and the books are in order all the same. -/
theorem sound_mixedSend :
    WellFormed smallBooks ∧
      ∃ r t, ((Chain.small .coreum).transact mixedSend.transaction).Runs smallBooks r t ∧
        mixedSend.Sound smallBooks t := by
  obtain ⟨r, hr⟩ := Except.exists_ok_of_toOption
    (x := ((Chain.small .coreum).transact mixedSend.transaction smallBooks).result)
    (by decide +kernel)
  have hpos : ∀ d, 0 ≤ amountOf mixedSend.amount d := by
    intro d
    simp only [mixedSend, amount, amountOf]
    split_ifs <;> omega
  refine ⟨wellFormed_smallBooks, r, _, ⟨hr, rfl⟩, ?_⟩
  rw [sound_iff (Chain.small .coreum) wellFormed_smallBooks ⟨hr, rfl⟩]
  exact Or.inl hpos

/-! ### Less than nothing -/

/-- Burns less than nothing. -/
def negativeBurn : BankCall := .burn "a" [⟨"ucore", -5⟩]

/-- Sends less than nothing. -/
def negativeSend : BankCall := .send "a" "b" [⟨"ucore", -10⟩]

/-- **Negative amounts are let through.**  An account burns less than nothing, and there is more of
the denom than before; it sends less than nothing, and neither the balance of the recipient nor the
supply can be told any more. -/
theorem negative_amounts_pass :
    (∃ r t, ((Chain.small .coreum).transact negativeBurn.transaction).Runs smallBooks r t ∧
      Bank.supply smallBooks "ucore" = .ok 10000005 ∧ Bank.supply t "ucore" = .ok 10000010) ∧
    ∃ r t, ((Chain.small .coreum).transact negativeSend.transaction).Runs smallBooks r t ∧
      Bank.balance smallBooks "b" "ucore" = .ok 5 ∧
      (∀ n, Bank.balance t "b" "ucore" ≠ .ok n) ∧ ∀ n, Bank.supply t "ucore" ≠ .ok n := by
  constructor
  · obtain ⟨r, hr⟩ := Except.exists_ok_of_toOption
      (x := ((Chain.small .coreum).transact negativeBurn.transaction smallBooks).result)
      (by decide +kernel)
    refine ⟨r, _, ⟨hr, rfl⟩, Except.eq_ok_of_toOption ?_, Except.eq_ok_of_toOption ?_⟩
    · decide +kernel
    · decide +kernel
  · obtain ⟨r, hr⟩ := Except.exists_ok_of_toOption
      (x := ((Chain.small .coreum).transact negativeSend.transaction smallBooks).result)
      (by decide +kernel)
    refine ⟨r, _, ⟨hr, rfl⟩, Except.eq_ok_of_toOption ?_, Except.ne_ok_of_toOption ?_,
      Except.ne_ok_of_toOption ?_⟩
    · decide +kernel
    · decide +kernel
    · decide +kernel

end BankCall

end TokenLedger
