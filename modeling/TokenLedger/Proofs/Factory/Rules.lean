import TokenLedger.Factory.Rules
import TokenLedger.Proofs.Bank.Answers
import TokenLedger.Proofs.Bank.Ledger
import TokenLedger.Proofs.Text.IntegerLiteral

/-!
# The rules of the factories on the books of the bank

With the bank as the host, a factory learns the true supply of a denom (`ensureNoSupply_runs`), and
fees, burnt and minted coins are booked.  A denom falls apart into the parts it was put together
from (`parts_append`).
-/

namespace TokenLedger

namespace Factory

open Bank

variable {s t : Store} {d sender recipient : String} {n : Int} {coin : Coin}

/-! ### New denoms -/

/-- A new denom passes if its parts are short enough, and the creator is the sender and has no
slash. -/
theorem checkNewDenom_eq_ok {config : FactoryConfig} {subdenom creator : String} :
    checkNewDenom config subdenom creator sender = .ok () ↔
      Text.units subdenom ≤ config.maxSubdenomLength ∧
        Text.units creator ≤ config.maxCreatorLength ∧ '/' ∉ creator.toList ∧ creator = sender := by
  unfold checkNewDenom
  constructor
  · intro h
    split_ifs at h with hsubdenom hcreator hslash hsender
    exact ⟨Nat.not_lt.mp hsubdenom, Nat.not_lt.mp hcreator, hslash, not_not.mp hsender⟩
  · rintro ⟨hsubdenom, hcreator, hslash, hsender⟩
    rw [if_neg (Nat.not_lt.mpr hsubdenom), if_neg (Nat.not_lt.mpr hcreator), if_neg hslash,
      if_neg (not_not.mpr hsender)]

theorem creator_of_checkNewDenom {config : FactoryConfig} {subdenom creator : String}
    (h : checkNewDenom config subdenom creator sender = .ok ()) :
    '/' ∉ creator.toList ∧ creator = sender := (checkNewDenom_eq_ok.mp h).2.2

/-! ### The supply of a denom -/

/-- An answer about a supply is read as the supply it tells. -/
theorem readSupply_answer (d : String) (h : 0 ≤ n) :
    readSupply (Json.obj [("amount", coinJson ⟨d, n⟩)]).toBytes = .ok n := by
  have hread := Answer.readBytes_coin "SupplyResponse" ⟨d, n⟩
  obtain ⟨m, rfl⟩ := Int.eq_ofNat_of_zero_le h
  simp only [readSupply, hread, Coin.wire, bind, Except.bind, Decimal.ofInt_natCast,
    IntegerLiteral.read_repr]

theorem querySupply_runs (hs : WellFormed s) :
    (querySupply Bank.host d).Runs s n t ↔ n = circulating s d ∧ t = s := by
  have hanswer : (Bank.host.query (.supply d) s).result =
      .ok (Json.obj [("amount", coinJson ⟨d, circulating s d⟩)]).toBytes :=
    query_supply (hs.supply d)
  simp only [querySupply, Action.runs_bind, Action.runs_ask, Action.runs_ofExcept, hanswer]
  constructor
  · rintro ⟨raw, u, ⟨hraw, rfl⟩, hread, rfl⟩
    injection hraw with hraw
    rw [← hraw, readSupply_answer d (hs.circulating_nonneg d)] at hread
    injection hread with hread
    exact ⟨hread.symm, rfl⟩
  · rintro ⟨rfl, rfl⟩
    exact ⟨_, t, ⟨rfl, rfl⟩, readSupply_answer d (hs.circulating_nonneg d), rfl⟩

/-- A new denom is let through exactly when there is none of it. -/
theorem ensureNoSupply_runs (hs : WellFormed s) {r : Unit} :
    (ensureNoSupply Bank.host d).Runs s r t ↔ circulating s d = 0 ∧ t = s := by
  simp only [ensureNoSupply, Action.runs_bind, Action.runs_require, querySupply_runs hs,
    decide_eq_true_eq]
  constructor
  · rintro ⟨n, u, ⟨rfl, rfl⟩, hzero, rfl⟩
    exact ⟨hzero, rfl⟩
  · rintro ⟨hzero, rfl⟩
    exact ⟨_, t, ⟨rfl, rfl⟩, hzero, rfl⟩

/-! ### Coins -/

theorem burnCoin_booked (hs : WellFormed s) (hc : 0 ≤ coin.amount) {r : Response}
    (h : (burnCoin Bank.host sender coin).Runs s r t) :
    Booked sender (fun d => -amountOf [coin] d) s t :=
  sub_booked hs (nonNegativeCoins_singleton.mpr hc) (burn_runs.mp h).2

theorem mintCoin_booked (hs : WellFormed s) (hc : 0 ≤ coin.amount) {r : Response}
    (h : (mintCoin Bank.host recipient coin).Runs s r t) :
    Booked recipient (amountOf [coin]) s t :=
  add_booked hs (nonNegativeCoins_singleton.mpr hc) (mint_runs.mp h).2

/-! ### Fees -/

theorem amount_nonneg_of_ofText {variant : Variant} {text : String}
    (h : Coin.ofText variant text = .ok coin) : 0 ≤ coin.amount := by
  unfold Coin.ofText at h
  simp only at h
  split_ifs at h
  injection h with h
  subst h
  exact Int.natCast_nonneg _

/-- A fee takes nothing from anybody but the sender. -/
theorem chargeFee_booked {config : FactoryConfig} {variant : Variant} (hs : WellFormed s)
    {r : Response} (h : (chargeFee Bank.host config variant sender).Runs s r t) :
    ∃ fee : String → Int, (∀ d, 0 ≤ fee d) ∧ Booked sender (fun d => -fee d) s t := by
  obtain ⟨coin, u, hread, hburn⟩ := Action.runs_bind.mp h
  obtain ⟨hfee, rfl⟩ := Action.runs_ofExcept.mp hread
  have hc := amount_nonneg_of_ofText hfee
  exact ⟨amountOf [coin], amountOf_nonneg (nonNegativeCoins_singleton.mpr hc),
    burnCoin_booked hs hc hburn⟩

theorem chargeFee_writesBalances (config : FactoryConfig) (variant : Variant) (sender : String) :
    WritesBalances (chargeFee Bank.host config variant sender) := by
  refine WritesBalances.bind (fun _ => Action.keeps_ofExcept) fun fee => ?_
  exact execute_writesBalances sender (.burn [fee])

theorem ensureNoSupply_store {r : Unit} (h : (ensureNoSupply Bank.host d).Runs s r t) : t = s := by
  simp only [ensureNoSupply, querySupply, Action.runs_bind, Action.runs_ask, Action.runs_ofExcept,
    Action.runs_require] at h
  obtain ⟨_, _, ⟨_, _, ⟨-, rfl⟩, -, rfl⟩, -, rfl⟩ := h
  rfl

theorem readAmount_eq_ok {text what : String} {k : Nat} :
    readAmount text what = .ok k ↔ Decimal.read? text = some k ∧ k ≤ maxAmount := by
  unfold readAmount
  cases Decimal.read? text with
  | none => simp
  | some m =>
    dsimp only
    split_ifs with hmax
    · simp only [Option.some.injEq, false_iff, not_and]
      omega
    · simp only [Except.ok.injEq, Option.some.injEq]
      exact ⟨fun h => ⟨h, by omega⟩, fun h => h.1⟩

theorem positiveAmount_eq_ok {text : String} {k : Nat} :
    positiveAmount text = .ok k ↔ readAmount text "amount" = .ok k ∧ k ≠ 0 := by
  rw [positiveAmount, Except.bind_eq_ok]
  constructor
  · rintro ⟨m, hm, h⟩
    split_ifs at h with hzero
    injection h with h
    exact h ▸ ⟨hm, hzero⟩
  · rintro ⟨hk, hzero⟩
    exact ⟨k, hk, if_neg hzero⟩

/-! ### The books after a message -/

/-- What a factory has done to the books for a sender: it has taken from nobody else, and the supply
of one denom at most has grown, by what was minted. -/
structure Settled (sender : String) (minted : Option Coin) (s t : Store) : Prop where
  wellFormed : WellFormed t
  held : ∀ a d, a ≠ sender → held s a d ≤ held t a d
  circulating : ∀ d, circulating t d ≤ circulating s d ∨
    circulating t d = circulating s d + amountOf minted.toList d

/-- What happens outside the balances leaves the books as they are. -/
theorem Settled.congr {minted : Option Coin} {u : Store} (h : Settled sender minted s u)
    (hframe : Store.SameUnder balances.root u t) : Settled sender minted s t where
  wellFormed := wellFormed_congr hframe h.wellFormed
  held a d hne := by
    rw [held_congr hframe]
    exact h.held a d hne
  circulating d := by
    rw [circulating_congr hframe]
    exact h.circulating d

theorem Settled.refl (hs : WellFormed s) (sender : String) : Settled sender none s s where
  wellFormed := hs
  held _ _ _ := Int.le_refl _
  circulating _ := Or.inl (Int.le_refl _)

/-- What was booked for the sender alone settles a message that mints nothing. -/
theorem settled_of_booked {change : String → Int} (h : Booked sender change s t)
    (hchange : ∀ d, change d ≤ 0) : Settled sender none s t where
  wellFormed := h.wellFormed
  held a d hne := by
    rw [h.held, if_neg hne]
    omega
  circulating d := by
    have := hchange d
    rw [h.circulating]
    omega

theorem settled_of_sameUnder (hs : WellFormed s) (h : Store.SameUnder balances.root s t) :
    Settled sender none s t := (Settled.refl hs sender).congr h

theorem settled_of_burnCoin (hs : WellFormed s) {amount : Nat} {r : Response}
    (h : (burnCoin Bank.host sender ⟨d, amount⟩).Runs s r t) : Settled sender none s t := by
  have hc : (0 : Int) ≤ amount := Int.natCast_nonneg amount
  refine settled_of_booked (burnCoin_booked hs hc h) fun d' => ?_
  have hpos : 0 ≤ amountOf [⟨d, amount⟩] d' :=
    amountOf_nonneg (nonNegativeCoins_singleton.mpr hc) d'
  omega

theorem settled_of_mintCoin (hs : WellFormed s) {amount : Nat} {r : Response}
    (h : (mintCoin Bank.host recipient ⟨d, amount⟩).Runs s r t) :
    Settled sender (some ⟨d, amount⟩) s t := by
  have hc : (0 : Int) ≤ amount := Int.natCast_nonneg amount
  have hmint := mintCoin_booked hs hc h
  refine ⟨hmint.wellFormed, fun a d' _ => ?_, fun d' => Or.inr (hmint.circulating d')⟩
  have hpos : 0 ≤ amountOf [⟨d, amount⟩] d' :=
    amountOf_nonneg (nonNegativeCoins_singleton.mpr hc) d'
  rw [hmint.held]
  split_ifs <;> omega

/-! ### Parts -/

variable {sep : Char} {a b : String}

/-- A separator between two texts separates their parts. -/
theorem parts_append {between : String} (h : between.toList = [sep]) (a b : String) :
    parts sep (a ++ between ++ b) = parts sep a ++ parts sep b := by
  unfold parts
  rw [String.toList_append, String.toList_append, h, List.append_assoc, List.singleton_append,
    List.splitOn_append_cons_self, List.map_append]

theorem parts_of_notMem (h : sep ∉ a.toList) : parts sep a = [a] := by
  unfold parts
  rw [List.splitOn_eq_singleton h, List.map_singleton, String.ofList_toList]

theorem parts_ne_nil (sep : Char) (a : String) : parts sep a ≠ [] := by
  unfold parts
  exact fun h => List.splitOn_ne_nil _ _ (List.map_eq_nil_iff.mp h)

theorem length_parts_eq_one_iff : (parts sep a).length = 1 ↔ sep ∉ a.toList := by
  constructor
  · intro hone hsep
    obtain ⟨front, rest, ha⟩ := List.append_of_mem hsep
    have hrest := List.length_pos_iff.mpr (List.splitOn_ne_nil sep rest)
    have hfront := List.length_pos_iff.mpr (List.splitOn_ne_nil sep front)
    rw [parts, List.length_map, ha, List.splitOn_append_cons_self, List.length_append] at hone
    omega
  · intro hsep
    rw [parts_of_notMem hsep]
    rfl

/-- There are two parts around a separator if there is no other one. -/
theorem length_parts_append_eq_two_iff {between : String} (h : between.toList = [sep])
    (a b : String) :
    (parts sep (a ++ between ++ b)).length = 2 ↔ sep ∉ a.toList ∧ sep ∉ b.toList := by
  have ha := List.length_pos_iff.mpr (parts_ne_nil sep a)
  have hb := List.length_pos_iff.mpr (parts_ne_nil sep b)
  rw [parts_append h, List.length_append, ← length_parts_eq_one_iff, ← length_parts_eq_one_iff]
  omega

/-- A text that is its own first part has no other. -/
theorem eq_nil_of_parts_eq_cons {rest : List String} (h : parts sep a = a :: rest) : rest = [] := by
  unfold parts at h
  obtain ⟨l, ls, hsplit, hl, hls⟩ := List.map_eq_cons_iff.mp h
  have hjoin : [sep].intercalate (a.toList.splitOn sep) = a.toList := List.intercalate_splitOn sep
  rw [hsplit] at hjoin
  have hlen : l = a.toList := by rw [← hl, String.toList_ofList]
  subst hlen
  cases ls with
  | nil => exact hls.symm
  | cons l' ls =>
    have := congrArg List.length hjoin
    simp [List.intercalate] at this

theorem parts_eq_singleton (h : parts sep a = [b]) : b = a := by
  unfold parts at h
  obtain ⟨l, hsplit, hl⟩ := List.map_eq_singleton_iff.mp h
  have hjoin : [sep].intercalate (a.toList.splitOn sep) = a.toList := List.intercalate_splitOn sep
  rw [hsplit] at hjoin
  have hlist : l = a.toList := by simpa [List.intercalate] using hjoin
  rw [← hl, hlist, String.ofList_toList]

/-- Two parts of two texts are the texts themselves. -/
theorem parts_append_eq_pair {x y : String} (h : parts sep a ++ parts sep b = [x, y]) :
    x = a ∧ y = b := by
  cases ha : parts sep a with
  | nil => exact absurd ha (parts_ne_nil sep a)
  | cons p ps =>
    rw [ha, List.cons_append] at h
    injection h with hp hrest
    cases ps with
    | nil => exact ⟨hp ▸ parts_eq_singleton ha, parts_eq_singleton hrest⟩
    | cons q qs =>
      injection hrest with hq hnil
      exact absurd (List.append_eq_nil_iff.mp hnil).2 (parts_ne_nil sep b)

end Factory

end TokenLedger
