import TokenLedger.Proofs.Bank.SignedAmounts

/-!
# The bank keeps its books

Coins without negative amounts that come or go change the balances of one account and the supplies
by the same amounts, and nothing else (`Booked`, `add_booked`, `sub_booked`).  So the store stays
well-formed, also where a change fails half-way.
-/

namespace TokenLedger

/-! ### Amounts that are not negative -/

/-- No coin has a negative amount. -/
def NonNegativeCoins (coins : List Coin) : Prop := ∀ coin ∈ coins, 0 ≤ coin.amount

/-- No coin of a message has a negative amount. -/
def BankMessage.NonNegative : BankMessage → Prop
  | .send _ amount | .burn amount => NonNegativeCoins amount

/-- No coin of an order has a negative amount. -/
def MintOrder.NonNegative (order : MintOrder) : Prop := NonNegativeCoins order.amount

namespace Bank

variable {s t u : Store} {a d address : String} {n : Int} {coin : Coin} {coins : List Coin}

theorem nonNegativeCoins_cons :
    NonNegativeCoins (coin :: coins) ↔ 0 ≤ coin.amount ∧ NonNegativeCoins coins :=
  List.forall_mem_cons

theorem nonNegativeCoins_singleton : NonNegativeCoins [coin] ↔ 0 ≤ coin.amount := by
  rw [nonNegativeCoins_cons]
  exact and_iff_left fun _ h => absurd h List.not_mem_nil

theorem amountOf_nonneg (h : NonNegativeCoins coins) (d : String) : 0 ≤ amountOf coins d := by
  induction coins with
  | nil => exact Int.le_refl 0
  | cons coin coins ih =>
    obtain ⟨hcoin, hcoins⟩ := nonNegativeCoins_cons.mp h
    have := ih hcoins
    rw [amountOf_cons]
    split_ifs <;> omega

/-! ### The rest of the store

Whatever the amounts are, the bank writes balances and nothing else.
-/

/-- A change of the store that writes balances and nothing else, also if it fails. -/
def WritesBalances {α : Type} (x : Action α) : Prop :=
  ∀ s, x.Keeps (Store.SameOutside balances.root s)

theorem WritesBalances.sameOutside {α : Type} {x : Action α} (h : WritesBalances x) (s : Store) :
    Store.SameOutside balances.root s (x s).store := h s s .rfl

theorem WritesBalances.of_runs {α : Type} {x : Action α} {r : α} (h : WritesBalances x)
    (hr : x.Runs s r t) : Store.SameOutside balances.root s t := (h s).of_runs .rfl hr

theorem WritesBalances.bind {α β : Type} {x : Action α} {f : α → Action β}
    (hx : WritesBalances x) (hf : ∀ a, WritesBalances (f a)) : WritesBalances (x >>= f) :=
  fun s => Action.keeps_bind (hx s) fun a => hf a s

theorem writesBalances_pure {α : Type} {a : α} : WritesBalances (pure a) :=
  fun _ => Action.keeps_pure

theorem writesBalances_write {f : Store → Except Fault Store}
    (h : ∀ s t, f s = .ok t → Store.SameOutside balances.root s t) :
    WritesBalances (Action.write f) :=
  fun _ => Action.keeps_write fun s t hs ht => hs.trans (h s t ht)

theorem addCoin_sameOutside (h : addCoin a coin s = .ok t) :
    Store.SameOutside balances.root s t := by
  obtain ⟨n, -, h⟩ := Except.bind_eq_ok.mp h
  split_ifs at h
  exact sameOutside_setBalance h

theorem subCoin_sameOutside (h : subCoin a coin s = .ok t) :
    Store.SameOutside balances.root s t := by
  obtain ⟨n, -, h⟩ := Except.bind_eq_ok.mp h
  split_ifs at h
  exact sameOutside_setBalance h

theorem add_writesBalances (a : String) (coins : List Coin) : WritesBalances (add a coins) := by
  induction coins with
  | nil => exact writesBalances_pure
  | cons coin coins ih =>
    exact (writesBalances_write fun _ _ => addCoin_sameOutside).bind fun _ => ih

theorem sub_writesBalances (a : String) (coins : List Coin) : WritesBalances (sub a coins) := by
  induction coins with
  | nil => exact writesBalances_pure
  | cons coin coins ih =>
    exact (writesBalances_write fun _ _ => subCoin_sameOutside).bind fun _ => ih

theorem clear_writesBalances (a : String) (coins : List Coin) :
    WritesBalances (clear a coins) := by
  induction coins with
  | nil => exact writesBalances_pure
  | cons coin coins ih =>
    exact (writesBalances_write fun _ _ => sameOutside_setBalance).bind fun _ => ih

theorem initBalance_writesBalances (a : String) (coins : List Coin) :
    WritesBalances (initBalance a coins) := by
  refine WritesBalances.bind (fun _ => Action.keeps_read) fun listed => ?_
  exact (clear_writesBalances a listed).bind fun _ => add_writesBalances a coins

theorem mint_writesBalances (order : MintOrder) : WritesBalances (mint order) :=
  (add_writesBalances order.recipient order.amount).bind fun _ => writesBalances_pure

theorem execute_writesBalances (sender : String) (message : BankMessage) :
    WritesBalances (execute sender message) := by
  cases message with
  | burn amount => exact (sub_writesBalances sender amount).bind fun _ => writesBalances_pure
  | send recipient amount =>
    simp only [execute]
    split_ifs
    · exact fun _ => Action.keeps_fail
    · refine (sub_writesBalances sender amount).bind fun _ => ?_
      exact (add_writesBalances recipient amount).bind fun _ => writesBalances_pure

/-! ### Books -/

/-- The balances of an account and the supplies have changed by some amount of each denom, and
nothing else has changed. -/
structure Booked (a : String) (change : String → Int) (s t : Store) : Prop where
  wellFormed : WellFormed t
  outside : Store.SameOutside balances.root s t
  held : ∀ a' d, held t a' d = held s a' d + if a' = a then change d else 0
  circulating : ∀ d, circulating t d = circulating s d + change d

theorem Moved.booked {change : String → Int} (h : Moved a change s t) (hs : WellFormed s)
    (ht : WellFormed t) (hout : Store.SameOutside balances.root s t) : Booked a change s t where
  wellFormed := ht
  outside := hout
  held := h.held
  circulating := h.circulating hs ht

theorem Booked.refl (hs : WellFormed s) (a : String) : Booked a (fun _ => 0) s s where
  wellFormed := hs
  outside := .rfl
  held := by simp
  circulating := by simp

theorem add_booked (hs : WellFormed s) (hc : NonNegativeCoins coins) {r : Unit}
    (h : (add a coins).Runs s r t) : Booked a (amountOf coins) s t := by
  rcases add_cases hs.readable h with ⟨hmoved, ht, hfits⟩ | ⟨d, hover⟩
  · exact hmoved.booked hs (wellFormed_of_moved hs ht hmoved hfits)
      ((add_writesBalances a coins).of_runs h)
  · have hneg := hover.negative
    have hheld := hs.held_nonneg a d
    have hcoins := amountOf_nonneg hc d
    omega

theorem sub_booked (hs : WellFormed s) (hc : NonNegativeCoins coins) {r : Unit}
    (h : (sub a coins).Runs s r t) : Booked a (fun d => -amountOf coins d) s t := by
  obtain ⟨hmoved, -⟩ := sub_moved hs.readable h
  exact hmoved.booked hs (wellFormed_of_sub hs (amountOf_nonneg hc) h)
    ((sub_writesBalances a coins).of_runs h)

/-! ### Messages -/

theorem send_runs {recipient : String} {amount : List Coin} {r : Response} :
    (execute address (.send recipient amount)).Runs s r t ↔
      recipient ≠ "" ∧ r = .empty ∧
        ∃ u, (sub address amount).Runs s () u ∧ (add recipient amount).Runs u () t := by
  simp only [execute]
  split_ifs with hrecipient
  · simp [Action.not_runs_fail, hrecipient]
  · simp only [Action.runs_bind, Action.runs_pure]
    constructor
    · rintro ⟨⟨⟩, u, hsub, ⟨⟩, t', hadd, hr, rfl⟩
      exact ⟨hrecipient, hr, u, hsub, hadd⟩
    · rintro ⟨-, hr, u, hsub, hadd⟩
      exact ⟨(), u, hsub, (), t, hadd, hr, rfl⟩

theorem burn_runs {amount : List Coin} {r : Response} :
    (execute address (.burn amount)).Runs s r t ↔
      r = .empty ∧ (sub address amount).Runs s () t := by
  simp only [execute, Action.runs_bind, Action.runs_pure]
  constructor
  · rintro ⟨⟨⟩, u, hsub, hr, rfl⟩
    exact ⟨hr, hsub⟩
  · rintro ⟨hr, hsub⟩
    exact ⟨(), t, hsub, hr, rfl⟩

theorem mint_runs {order : MintOrder} {r : Response} :
    (mint order).Runs s r t ↔ r = .empty ∧ (add order.recipient order.amount).Runs s () t := by
  simp only [mint, Action.runs_bind, Action.runs_pure]
  constructor
  · rintro ⟨⟨⟩, u, hadd, hr, rfl⟩
    exact ⟨hr, hadd⟩
  · rintro ⟨hr, hadd⟩
    exact ⟨(), t, hadd, hr, rfl⟩

/-- No message to the bank adds to a supply. -/
theorem execute_circulating {message : BankMessage} {r : Response} (hs : WellFormed s)
    (hm : message.NonNegative) (h : (execute address message).Runs s r t) :
    WellFormed t ∧ ∀ d, circulating t d ≤ circulating s d := by
  cases message with
  | burn amount =>
    have hsub := sub_booked hs hm (burn_runs.mp h).2
    refine ⟨hsub.wellFormed, fun d => ?_⟩
    have := amountOf_nonneg hm d
    rw [hsub.circulating]
    omega
  | send recipient amount =>
    obtain ⟨-, -, u, hsub, hadd⟩ := send_runs.mp h
    have hsub := sub_booked hs hm hsub
    have hadd := add_booked hsub.wellFormed hm hadd
    refine ⟨hadd.wellFormed, fun d => ?_⟩
    rw [hadd.circulating, hsub.circulating]
    omega

/-! ### Changes that may fail half-way -/

theorem wellFormed_addCoin (hs : WellFormed s) (hc : 0 ≤ coin.amount)
    (h : addCoin a coin s = .ok t) : WellFormed t := by
  obtain ⟨n, hb, h⟩ := Except.bind_eq_ok.mp h
  have hheld : held s a coin.denom = n := held_of_balance hb
  have hpos := hs.held_nonneg a coin.denom
  split_ifs at h with hmax
  exact wellFormed_setBalance hs (by omega) (by omega) h

theorem wellFormed_subCoin (hs : WellFormed s) (hc : 0 ≤ coin.amount)
    (h : subCoin a coin s = .ok t) : WellFormed t := by
  obtain ⟨n, hb, h⟩ := Except.bind_eq_ok.mp h
  have hheld : held s a coin.denom = n := held_of_balance hb
  have hmax := hs.held_le_maxAmount a coin.denom
  split_ifs at h with hlt
  exact wellFormed_setBalance hs (by omega) (by omega) h

theorem add_keeps (hc : NonNegativeCoins coins) (a : String) : (add a coins).Keeps WellFormed := by
  induction coins with
  | nil => exact Action.keeps_pure
  | cons coin coins ih =>
    obtain ⟨hcoin, hcoins⟩ := nonNegativeCoins_cons.mp hc
    refine Action.keeps_bind ?_ fun _ => ih hcoins
    exact Action.keeps_write fun s t hs ht => wellFormed_addCoin hs hcoin ht

theorem sub_keeps (hc : NonNegativeCoins coins) (a : String) : (sub a coins).Keeps WellFormed := by
  induction coins with
  | nil => exact Action.keeps_pure
  | cons coin coins ih =>
    obtain ⟨hcoin, hcoins⟩ := nonNegativeCoins_cons.mp hc
    refine Action.keeps_bind ?_ fun _ => ih hcoins
    exact Action.keeps_write fun s t hs ht => wellFormed_subCoin hs hcoin ht

theorem clear_keeps (a : String) (coins : List Coin) : (clear a coins).Keeps WellFormed := by
  induction coins with
  | nil => exact Action.keeps_pure
  | cons coin coins ih =>
    refine Action.keeps_bind ?_ fun _ => ih
    exact Action.keeps_write fun s t hs ht =>
      wellFormed_setBalance hs (Int.le_refl 0) (by omega) ht

/-- Replacing balances leaves a well-formed store, however far it gets. -/
theorem initBalance_keeps (hc : NonNegativeCoins coins) (a : String) :
    (initBalance a coins).Keeps WellFormed := by
  refine Action.keeps_bind Action.keeps_read fun listed => ?_
  exact Action.keeps_bind (clear_keeps a listed) fun _ => add_keeps hc a

/-- A message to the bank leaves a well-formed store, however far it gets. -/
theorem execute_keeps {message : BankMessage} (hm : message.NonNegative) (sender : String) :
    (execute sender message).Keeps WellFormed := by
  cases message with
  | burn amount => exact Action.keeps_bind (sub_keeps hm sender) fun _ => Action.keeps_pure
  | send recipient amount =>
    simp only [execute]
    split_ifs
    · exact Action.keeps_fail
    · refine Action.keeps_bind (sub_keeps hm sender) fun _ => ?_
      exact Action.keeps_bind (add_keeps hm recipient) fun _ => Action.keeps_pure

theorem mint_keeps {order : MintOrder} (ho : order.NonNegative) : (mint order).Keeps WellFormed :=
  Action.keeps_bind (add_keeps ho order.recipient) fun _ => Action.keeps_pure

end Bank

end TokenLedger
