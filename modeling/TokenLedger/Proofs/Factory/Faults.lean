import TokenLedger.Factory.Coreum
import TokenLedger.Factory.Generic
import TokenLedger.Proofs.Factory.Rules
import TokenLedger.Proofs.Store.Faults

/-!
# What the steps of a factory fail with

Two faults of a factory's message tell more than that its own checks refuse it: that of a coin text,
which is read nowhere but in the fee, and that of an overflow, which comes from nothing but adding a
coin to a balance.  Every other step fails plainly, with neither of them (`Fault.IsPlain`).
-/

namespace TokenLedger

/-- A fault of a coin text. -/
def Fault.ofCoinText : Fault → Bool
  | .invalid (.coinForm _) | .invalid (.coinTooLarge ..) => true
  | _ => false

/-- The fault of a balance that would get too large. -/
def Fault.isOverflow : Fault → Bool
  | .invalid (.overflow ..) => true
  | _ => false

/-- Neither a fault of a coin text nor an overflow. -/
structure Fault.IsPlain (e : Fault) : Prop where
  spared : e.ofCoinText = false
  contained : e.isOverflow = false

variable {variant : Variant} {config : FactoryConfig} {text sender d : String} {e : Fault}
  {s : Store}

theorem Fault.isPlain_of_isDecode (h : e.IsDecode) : e.IsPlain := by
  cases e with
  | decode typeName cause => exact ⟨rfl, rfl⟩
  | _ => exact absurd h id

/-- A text that is no coin is refused with a fault of a coin text. -/
theorem Coin.ofCoinText_of_ofText (h : Coin.ofText variant text = .error e) :
    e.ofCoinText = true := by
  unfold Coin.ofText at h
  dsimp only at h
  split_ifs at h
  · obtain rfl := Except.error.inj h
    rfl
  · obtain rfl := Except.error.inj h
    rfl

theorem Fault.isOverflow_of_ofCoinText (h : e.ofCoinText = true) : e.isOverflow = false := by
  unfold Fault.ofCoinText at h
  split at h
  · rfl
  · rfl
  · cases h

/-- An action fails with nothing but plain faults. -/
def Action.FailsPlainly {α : Type} (x : Action α) : Prop := x.FailsOnly Fault.IsPlain

/-- An action does not fail with the fault of a coin text. -/
def Action.SparesCoinTexts {α : Type} (x : Action α) : Prop := x.FailsOnly (·.ofCoinText = false)

/-- An action does not fail with an overflow. -/
def Action.ContainsAmounts {α : Type} (x : Action α) : Prop := x.FailsOnly (·.isOverflow = false)

theorem Action.FailsPlainly.sparesCoinTexts {α : Type} {x : Action α} (h : x.FailsPlainly) :
    x.SparesCoinTexts := h.mono fun _ he => he.spared

theorem Action.FailsPlainly.containsAmounts {α : Type} {x : Action α} (h : x.FailsPlainly) :
    x.ContainsAmounts := h.mono fun _ he => he.contained

/-! ### The bank -/

namespace Bank

variable {address : String} {coin : Coin} {n : Int}

instance : balances.key.FailsDecoding := inferInstanceAs Key.pair.FailsDecoding

theorem isDecode_of_balance (h : balance s address d = .error e) : e.IsDecode :=
  RecordMap.isDecode_of_load? (Except.map_eq_error.mp h)

theorem isDecode_of_supply (h : supply s d = .error e) : e.IsDecode := by
  rcases Except.bind_eq_error.mp h with hentries | ⟨all, -, hsum⟩
  · exact RecordMap.isDecode_of_entries hentries
  · cases hsum

theorem isDecode_of_setBalance (h : setBalance address d n s = .error e) : e.IsDecode := by
  unfold setBalance at h
  split_ifs at h
  · exact RecordMap.isDecode_of_delete h
  · exact RecordMap.isDecode_of_save h

/-- A coin cannot be added if it would make the balance too large, or if the record of the balance
cannot be read or written. -/
theorem addCoin_error_cases (h : addCoin address coin s = .error e) :
    (∃ held, balance s address coin.denom = .ok held ∧ maxAmount < held + coin.amount ∧
      e = .invalid (.overflow held coin.amount coin.denom)) ∨ e.IsDecode := by
  rcases Except.bind_eq_error.mp h with hbalance | ⟨held, hheld, hrest⟩
  · exact Or.inr (isDecode_of_balance hbalance)
  · split_ifs at hrest with hover
    · exact Or.inl ⟨held, hheld, hover, (Except.error.inj hrest).symm⟩
    · exact Or.inr (isDecode_of_setBalance hrest)

theorem ofCoinText_of_addCoin (h : addCoin address coin s = .error e) : e.ofCoinText = false := by
  rcases addCoin_error_cases h with ⟨held, -, -, rfl⟩ | hdecode
  · rfl
  · exact (Fault.isPlain_of_isDecode hdecode).spared

theorem isPlain_of_subCoin (h : subCoin address coin s = .error e) : e.IsPlain := by
  rcases Except.bind_eq_error.mp h with hbalance | ⟨held, -, hrest⟩
  · exact Fault.isPlain_of_isDecode (isDecode_of_balance hbalance)
  · split_ifs at hrest
    · obtain rfl := Except.error.inj hrest
      exact ⟨rfl, rfl⟩
    · exact Fault.isPlain_of_isDecode (isDecode_of_setBalance hrest)

theorem add_sparesCoinTexts (address : String) (coins : List Coin) :
    (add address coins).SparesCoinTexts := by
  induction coins with
  | nil => exact Action.failsOnly_pure
  | cons coin coins ih =>
    apply Action.failsOnly_bind
    · exact Action.failsOnly_write fun s e h => ofCoinText_of_addCoin h
    · exact fun _ => ih

theorem sub_failsPlainly (address : String) (coins : List Coin) :
    (sub address coins).FailsPlainly := by
  induction coins with
  | nil => exact Action.failsOnly_pure
  | cons coin coins ih =>
    apply Action.failsOnly_bind
    · exact Action.failsOnly_write fun s e h => isPlain_of_subCoin h
    · exact fun _ => ih

theorem isDecode_of_querySupply (h : (host.query (.supply d) s).result = .error e) :
    e.IsDecode := by
  have hquery : (supply s d >>= fun amount =>
      Except.ok (Json.obj [("amount", coinJson ⟨d, amount⟩)]).toBytes) = .error e := h
  rcases Except.bind_eq_error.mp hquery with hsupply | ⟨n, -, hbytes⟩
  · exact isDecode_of_supply hsupply
  · cases hbytes

end Bank

/-! ### Rules of the factories -/

namespace Factory

instance : Generic.createdDenoms.key.FailsDecoding := inferInstanceAs Key.text.FailsDecoding

instance : Asset.issuedTokens.key.FailsDecoding := inferInstanceAs Key.text.FailsDecoding

theorem isPlain_of_checkNewDenom {subdenom creator : String}
    (h : checkNewDenom config subdenom creator sender = .error e) : e.IsPlain := by
  unfold checkNewDenom at h
  split_ifs at h
  all_goals
    obtain rfl := Except.error.inj h
    exact ⟨rfl, rfl⟩

theorem isPlain_of_readSupply {raw : Bytes} (h : readSupply raw = .error e) : e.IsPlain := by
  rcases Except.bind_eq_error.mp h with hanswer | ⟨coin, -, hread⟩
  · exact Fault.isPlain_of_isDecode (Shape.isDecode_of_readBytes hanswer)
  · split at hread
    · cases hread
    · obtain rfl := Except.error.inj hread
      exact ⟨rfl, rfl⟩

theorem isPlain_of_readAmount {amount what : String} (h : readAmount amount what = .error e) :
    e.IsPlain := by
  unfold readAmount at h
  split at h
  · obtain rfl := Except.error.inj h
    exact ⟨rfl, rfl⟩
  · split_ifs at h
    obtain rfl := Except.error.inj h
    exact ⟨rfl, rfl⟩

theorem isPlain_of_checkAssetName {field : NameField} {value : String}
    (h : Coreum.checkAssetName field value = .error e) : e.IsPlain := by
  unfold Coreum.checkAssetName at h
  split_ifs at h
  obtain rfl := Except.error.inj h
  exact ⟨rfl, rfl⟩

theorem ensureNoSupply_failsPlainly (d : String) : (ensureNoSupply Bank.host d).FailsPlainly := by
  apply Action.failsOnly_bind
  · apply Action.failsOnly_bind
    · exact Action.failsOnly_ask fun s e h =>
        Fault.isPlain_of_isDecode (Bank.isDecode_of_querySupply h)
    · exact fun raw => Action.failsOnly_ofExcept fun e h => isPlain_of_readSupply h
  · exact fun n => Action.failsOnly_require ⟨rfl, rfl⟩

theorem mintCoin_sparesCoinTexts (recipient : String) (coin : Coin) :
    (mintCoin Bank.host recipient coin).SparesCoinTexts :=
  Action.failsOnly_bind (Bank.add_sparesCoinTexts recipient [coin]) fun _ => Action.failsOnly_pure

theorem burnCoin_failsPlainly (sender : String) (coin : Coin) :
    (burnCoin Bank.host sender coin).FailsPlainly :=
  Action.failsOnly_bind (Bank.sub_failsPlainly sender [coin]) fun _ => Action.failsOnly_pure

theorem chargeFee_containsAmounts (config : FactoryConfig) (variant : Variant) (sender : String) :
    (chargeFee Bank.host config variant sender).ContainsAmounts := by
  apply Action.failsOnly_bind
  · exact Action.failsOnly_ofExcept fun e h =>
      Fault.isOverflow_of_ofCoinText (Coin.ofCoinText_of_ofText h)
  · exact fun fee => (burnCoin_failsPlainly sender fee).containsAmounts

end Factory

end TokenLedger
