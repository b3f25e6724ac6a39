import TokenLedger.Factory.Generic
import TokenLedger.Proofs.Coin
import TokenLedger.Proofs.Factory.Faults
import TokenLedger.Proofs.Message

/-!
# How a creation fails on its fee

A new denom or token costs the fee that the factory is set up with, and the text of the fee is read
only when it is charged.  No other step fails with the fault of a coin text, so that such a fault is
that of the fee (`create_failsOnly`, `issue_failsOnly`); and a fee that cannot be read is refused in
every creation that has passed the checks in front of it (`create_fails`, `issue_fails`).
-/

namespace TokenLedger

/-- If it is a fault of a coin text, then of the given one. -/
def Fault.Blames (variant : Variant) (text : String) (e : Fault) : Prop :=
  e.ofCoinText = true → Coin.ofText variant text = .error e

variable {variant : Variant} {config : FactoryConfig} {text sender d : String} {e : Fault}
  {s : Store}

theorem Fault.blames_of_ofCoinText (h : e.ofCoinText = false) : e.Blames variant text := by
  intro htrue
  rw [h] at htrue
  cases htrue

theorem Action.SparesCoinTexts.blames {α : Type} {x : Action α} (h : x.SparesCoinTexts) :
    x.FailsOnly (Fault.Blames variant text) := h.mono fun _ => Fault.blames_of_ofCoinText

theorem Action.FailsPlainly.blames {α : Type} {x : Action α} (h : x.FailsPlainly) :
    x.FailsOnly (Fault.Blames variant text) := h.sparesCoinTexts.blames

namespace Factory

/-- Charging the fee is the one step that may fail with a fault of a coin text. -/
theorem chargeFee_failsOnly (config : FactoryConfig) (variant : Variant) (sender : String) :
    (chargeFee Bank.host config variant sender).FailsOnly
      (Fault.Blames variant config.creationFee) := by
  apply Action.failsOnly_bind
  · exact Action.failsOnly_ofExcept fun e h _ => h
  · exact fun fee => (burnCoin_failsPlainly sender fee).blames

/-- A fee that cannot be read is refused when it is charged. -/
theorem chargeFee_fails (h : Coin.ofText variant config.creationFee = .error e) (s : Store) :
    (chargeFee Bank.host config variant sender).Fails s e :=
  Action.fails_bind.mpr (Or.inl h)

/-! ### New denoms -/

namespace Generic

theorem create_failsOnly (m : CreateDenom) : (create config Bank.host sender m).FailsOnly
    (Fault.Blames .generic config.creationFee) := by
  apply Action.failsOnly_bind
  · exact Action.failsOnly_ofExcept fun e h =>
      Fault.blames_of_ofCoinText (isPlain_of_checkNewDenom h).spared
  intro _
  apply Action.failsOnly_bind (ensureNoSupply_failsPlainly _).blames
  intro _
  apply Action.failsOnly_bind (chargeFee_failsOnly config .generic sender)
  intro _
  apply Action.failsOnly_bind
  · refine Action.failsOnly_write fun s e h => Fault.blames_of_ofCoinText ?_
    exact (Fault.isPlain_of_isDecode (RecordMap.isDecode_of_save h)).spared
  intro _
  refine Action.failsOnly_bind Action.failsOnly_log fun _ => ?_
  apply Action.failsOnly_bind
  · refine Action.failsOnly_ofExcept fun e h => ?_
    -- the response always has bytes
    have hrow := MessageType.createDenomResponse.readsBack_row
      (⟨denomOf config m.sender m.subdenom⟩ : CreateDenomResponse) trivial
    obtain ⟨data, hdata, -⟩ := Wire.Codec.decode_encode hrow
    have hencode : CreateDenomResponse.codec.encode ⟨denomOf config m.sender m.subdenom⟩ =
        .ok data := hdata
    rw [hencode] at h
    cases h
  · exact fun _ => Action.failsOnly_pure

/-- Where there is nothing of the denom, a creation that passes the checks comes to the fee. -/
theorem create_fails {m : CreateDenom} (hs : Bank.WellFormed s)
    (hfee : Coin.ofText .generic config.creationFee = .error e)
    (hchecked : checkNewDenom config m.subdenom m.sender sender = .ok ())
    (hnone : Bank.circulating s (denomOf config m.sender m.subdenom) = 0) :
    (create config Bank.host sender m).Fails s e := by
  refine Action.fails_bind.mpr (Or.inr ⟨(), s, Action.runs_ofExcept.mpr ⟨hchecked, rfl⟩, ?_⟩)
  refine Action.fails_bind.mpr (Or.inr ⟨(), s, (ensureNoSupply_runs hs).mpr ⟨hnone, rfl⟩, ?_⟩)
  exact Action.fails_bind.mpr (Or.inl (chargeFee_fails hfee s))

end Generic

/-! ### New tokens -/

namespace Coreum

theorem isAssetName_of_checkAssetName {field : NameField} {value : String}
    (h : checkAssetName field value = .ok ()) : isAssetName value = true := by
  unfold checkAssetName at h
  split_ifs at h with hname
  exact hname

theorem mintInitial_sparesCoinTexts (d : String) (m : IssueToken) :
    (mintInitial Bank.host d m).SparesCoinTexts := by
  unfold mintInitial
  split_ifs
  · exact Action.failsOnly_pure
  · apply Action.failsOnly_bind
    · exact Action.failsOnly_ofExcept fun e h => (isPlain_of_readAmount h).spared
    intro amount
    split_ifs
    · exact Action.failsOnly_pure
    · exact Action.failsOnly_bind (mintCoin_sparesCoinTexts _ _) fun _ => Action.failsOnly_pure

theorem issue_failsOnly (m : IssueToken) : (issue config Bank.host sender m).FailsOnly
    (Fault.Blames .coreum config.creationFee) := by
  apply Action.failsOnly_bind
  · exact Action.failsOnly_ofExcept fun e h =>
      Fault.blames_of_ofCoinText (isPlain_of_checkNewDenom h).spared
  intro _
  apply Action.failsOnly_bind
  · exact Action.failsOnly_ofExcept fun e h =>
      Fault.blames_of_ofCoinText (isPlain_of_checkAssetName h).spared
  intro _
  apply Action.failsOnly_bind
  · exact Action.failsOnly_ofExcept fun e h =>
      Fault.blames_of_ofCoinText (isPlain_of_checkAssetName h).spared
  intro _
  apply Action.failsOnly_bind (ensureNoSupply_failsPlainly _).blames
  intro _
  apply Action.failsOnly_bind (chargeFee_failsOnly config .coreum sender)
  intro _
  apply Action.failsOnly_bind (mintInitial_sparesCoinTexts _ m).blames
  intro _
  apply Action.failsOnly_bind
  · refine Action.failsOnly_write fun s e h => Fault.blames_of_ofCoinText ?_
    exact (Fault.isPlain_of_isDecode (RecordMap.isDecode_of_save h)).spared
  intro _
  exact Action.failsOnly_bind Action.failsOnly_log fun _ => Action.failsOnly_pure

/-- Where there is nothing of the denom, an issue that passes the checks comes to the fee. -/
theorem issue_fails {m : IssueToken} (hs : Bank.WellFormed s)
    (hfee : Coin.ofText .coreum config.creationFee = .error e)
    (hchecked : checkNewDenom config m.subunit m.issuer sender = .ok ())
    (hsubunit : checkAssetName .subunit m.subunit = .ok ())
    (hsymbol : checkAssetName .symbol m.symbol = .ok ())
    (hnone : Bank.circulating s (Asset.denomOf m.subunit m.issuer) = 0) :
    (issue config Bank.host sender m).Fails s e := by
  refine Action.fails_bind.mpr (Or.inr ⟨(), s, Action.runs_ofExcept.mpr ⟨hchecked, rfl⟩, ?_⟩)
  refine Action.fails_bind.mpr (Or.inr ⟨(), s, Action.runs_ofExcept.mpr ⟨hsubunit, rfl⟩, ?_⟩)
  refine Action.fails_bind.mpr (Or.inr ⟨(), s, Action.runs_ofExcept.mpr ⟨hsymbol, rfl⟩, ?_⟩)
  refine Action.fails_bind.mpr (Or.inr ⟨(), s, (ensureNoSupply_runs hs).mpr ⟨hnone, rfl⟩, ?_⟩)
  exact Action.fails_bind.mpr (Or.inl (chargeFee_fails hfee s))

/-! A subunit has three characters at least.  Where the limit is lower than that no issue comes to the
fee. -/

theorem length_le_unitCount (cs : List Char) (n : Nat) :
    n + cs.length ≤ cs.foldl (fun n c => n + Text.charUnits c) n := by
  induction cs generalizing n with
  | nil => exact Nat.le_refl n
  | cons c cs ih =>
    have hrest := ih (n + Text.charUnits c)
    have hone : 1 ≤ Text.charUnits c := by
      unfold Text.charUnits
      split_ifs <;> omega
    rw [List.foldl_cons, List.length_cons]
    omega

theorem three_le_units {value : String} (h : isAssetName value = true) : 3 ≤ Text.units value := by
  have hlength := length_le_unitCount value.toList 0
  unfold isAssetName at h
  split at h
  · rename_i c rest hvalue
    simp only [Bool.and_eq_true, decide_eq_true_eq] at h
    obtain ⟨⟨⟨-, hrest⟩, -⟩, -⟩ := h
    rw [hvalue, List.length_cons] at hlength
    have hunits : (c :: rest).foldl (fun n c => n + Text.charUnits c) 0 = Text.units value := by
      rw [Text.units, hvalue]
      rfl
    omega
  · cases h

theorem issue_sparesCoinTexts_of_lt (hlimit : config.maxSubdenomLength < 3) (m : IssueToken) :
    (issue config Bank.host sender m).SparesCoinTexts := by
  intro s e h
  rcases Action.fails_bind.mp h with hcheck | ⟨_, _, hchecked, hrest⟩
  · exact (isPlain_of_checkNewDenom (Action.fails_ofExcept.mp hcheck)).spared
  · rcases Action.fails_bind.mp hrest with hname | ⟨_, _, hnamed, -⟩
    · exact (isPlain_of_checkAssetName (Action.fails_ofExcept.mp hname)).spared
    · have hshort := (checkNewDenom_eq_ok.mp (Action.runs_ofExcept.mp hchecked).1).1
      have hlong := three_le_units (isAssetName_of_checkAssetName (Action.runs_ofExcept.mp hnamed).1)
      omega

end Coreum

end Factory

end TokenLedger
