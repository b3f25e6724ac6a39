import TokenLedger.Proofs.Chain.Identifiers
import TokenLedger.Proofs.Config
import TokenLedger.Proofs.Factory.CreationFee

/-!
# Accepted fees that cannot be charged

A configuration is accepted with every fee that has digits in front and no blanks, whereas a fee is
charged only if it is a coin text.  With a fee that is none, the creations that come to it fail, and
the very first one may come to it.  Only limits under which no creation comes to its fee hide this.
-/

namespace TokenLedger.Chain

open Bank Factory

variable {c : Chain} {variant : Variant} {config : FactoryConfig} {overrides : List (String × Json)}
  {sender typeUrl d : String} {value : Bytes} {s : Store} {e : Fault}

/-- In no run does the creation of a denom fail because a coin text cannot be read. -/
def NeverRefusesFee (c : Chain) (config : FactoryConfig) (variant : Variant) : Prop :=
  ∀ calls sender typeUrl value d e, Issues config variant typeUrl value (.denom d) →
    (c.executeTx sender (.stargate typeUrl value) (c.run calls)).result = .error e →
      e.ofCoinText = false

/-- The limits of a configuration let creations come to the fee: a subunit has three characters. -/
def ReachesFee (config : FactoryConfig) : Variant → Prop
  | .generic => True
  | .coreum => 3 ≤ config.maxSubdenomLength

/-! ### Creations that fail -/

theorem createDenom_fails_iff (hcore : c.stargate.core = .factory .generic config)
    {m : CreateDenom} (decoded : CreateDenom.codec.decode value = .ok m) :
    (c.executeTx sender (.stargate CreateDenom.typeUrl value) s).result = .error e ↔
      (Generic.create config Bank.host sender m).Fails s e := by
  have hread : (Generic.Message.create m).ReadFrom CreateDenom.typeUrl value := ⟨rfl, decoded⟩
  rw [executeTx_generic hcore hread]
  rfl

theorem issueToken_fails_iff (hcore : c.stargate.core = .factory .coreum config)
    {m : IssueToken} (decoded : IssueToken.codec.decode value = .ok m) :
    (c.executeTx sender (.stargate IssueToken.typeUrl value) s).result = .error e ↔
      (Coreum.issue config Bank.host sender m).Fails s e := by
  have hread : (Coreum.Message.issue m).ReadFrom IssueToken.typeUrl value := ⟨rfl, decoded⟩
  rw [executeTx_coreum hcore hread]
  rfl

/-- If a creation fails with the fault of a coin text, then it has come to the fee, and the fee is
none. -/
theorem fee_of_ofCoinText (hcore : c.stargate.core = .factory variant config)
    (hissues : Issues config variant typeUrl value (.denom d))
    (h : (c.executeTx sender (.stargate typeUrl value) s).result = .error e)
    (he : e.ofCoinText = true) :
    Coin.ofText variant config.creationFee = .error e ∧ ReachesFee config variant := by
  generalize hid : Identifier.denom d = id at hissues
  cases hissues with
  | @createDenom _ m decoded =>
    have hfails := (createDenom_fails_iff hcore decoded).mp h
    exact ⟨Generic.create_failsOnly m s e hfails he, trivial⟩
  | @issueToken _ m decoded =>
    have hfails := (issueToken_fails_iff hcore decoded).mp h
    refine ⟨Coreum.issue_failsOnly m s e hfails he, ?_⟩
    by_contra hlimit
    have hspared := Coreum.issue_sparesCoinTexts_of_lt (Nat.not_le.mp hlimit) m s e hfails
    rw [hspared] at he
    cases he
  | issueClass => cases hid

/-! ### The first creation -/

/-- On a new chain some creation comes to the fee if any can. -/
theorem exists_refused (hconfig : config.Accepted)
    (hcore : c.stargate.core = .factory variant config)
    (hfee : Coin.ofText variant config.creationFee = .error e)
    (hreaches : ReachesFee config variant) :
    ∃ typeUrl value d, Issues config variant typeUrl value (.denom d) ∧
      (c.executeTx "a" (.stargate typeUrl value) (c.run [])).result = .error e := by
  have hnone (d : String) : circulating (c.run []) d = 0 := rfl
  cases variant with
  | generic =>
    have hdecoded : CreateDenom.codec.decode smallCreate = .ok smallDenom := rfl
    refine ⟨_, _, _, .createDenom hdecoded, (createDenom_fails_iff hcore hdecoded).mpr ?_⟩
    have hchecked : checkNewDenom config "b" "a" "a" = .ok () :=
      checkNewDenom_eq_ok.mpr ⟨hconfig.subdenom, hconfig.creator, by decide, rfl⟩
    exact Generic.create_fails wellFormed_empty hfee hchecked (hnone _)
  | coreum =>
    have hdecoded : IssueToken.codec.decode smallIssue = .ok smallIssued := rfl
    refine ⟨_, _, _, .issueToken hdecoded, (issueToken_fails_iff hcore hdecoded).mpr ?_⟩
    have hchecked : checkNewDenom config "tok" "a" "a" = .ok () :=
      checkNewDenom_eq_ok.mpr ⟨hreaches, hconfig.creator, by decide, rfl⟩
    exact Coreum.issue_fails wellFormed_empty hfee hchecked rfl rfl (hnone _)

/-- **An accepted fee need not be usable.**  It can be read exactly if it is one or more digits with
a known denom behind them and an amount that fits, and exactly then no creation is ever refused
because of it, unless the limits keep creations from coming to it. -/
theorem fee_never_refused_iff (c : Chain)
    (hconfig : FactoryConfig.resolve variant overrides = .ok config)
    (hcore : c.stargate.core = .factory variant config) :
    ((∃ coin, Coin.ofText variant config.creationFee = .ok coin) ↔
        IsCoin variant config.creationFee) ∧
      (c.NeverRefusesFee config variant ↔
        IsCoin variant config.creationFee ∨ ¬ ReachesFee config variant) := by
  refine ⟨Coin.exists_ofText_iff, ?_⟩
  constructor
  · intro hnever
    by_contra hnot
    obtain ⟨hcoin, hreaches⟩ := not_or.mp hnot
    cases hread : Coin.ofText variant config.creationFee with
    | ok coin => exact hcoin (Coin.exists_ofText_iff.mp ⟨coin, hread⟩)
    | error e =>
      obtain ⟨typeUrl, value, d, hissues, hrefused⟩ := exists_refused
        (FactoryConfig.accepted_of_resolve hconfig) hcore hread (not_not.mp hreaches)
      have hspared := hnever [] "a" typeUrl value d e hissues hrefused
      rw [Coin.ofCoinText_of_ofText hread] at hspared
      cases hspared
  · intro husable calls sender typeUrl value d e hissues hrefused
    by_contra hblamed
    obtain ⟨hread, hreaches⟩ :=
      fee_of_ofCoinText hcore hissues hrefused (Bool.eq_true_of_not_eq_false hblamed)
    rcases husable with hcoin | hhidden
    · obtain ⟨coin, hok⟩ := Coin.exists_ofText_iff.mpr hcoin
      rw [hread] at hok
      cases hok
    · exact hhidden hreaches

/-- The standard fee is never refused. -/
theorem fee_never_refused_standard :
    FactoryConfig.resolve .coreum [] = .ok (.standard .coreum) ∧
      (small .coreum).NeverRefusesFee (.standard .coreum) .coreum := by
  have hconfig : FactoryConfig.resolve .coreum [] = .ok (.standard .coreum) := rfl
  obtain ⟨hcoin, hnever⟩ := fee_never_refused_iff (small .coreum) hconfig rfl
  exact ⟨hconfig, hnever.mpr (Or.inl (hcoin.mp ⟨⟨"ucore", 10000000⟩, rfl⟩))⟩

/-! ### A fee in capitals -/

/-- The Coreum factory with a fee whose denom is in capitals. -/
def capitalFee : FactoryConfig := { FactoryConfig.standard .coreum with creationFee := "1UCORE" }

/-- A chain with that factory. -/
def capitalChain : Chain := { small .coreum with stargate := .factory .coreum capitalFee }

/-- **The fee is accepted and cannot be charged**: an account with enough coins is refused a token. -/
theorem capitalFee_refused :
    FactoryConfig.resolve .coreum [("denomCreationFee", .str "1UCORE")] = .ok capitalFee ∧
      (¬ ∃ coin, Coin.ofText .coreum capitalFee.creationFee = .ok coin) ∧
      (capitalChain.executeTx "a" (.stargate IssueToken.typeUrl smallIssue)
        (capitalChain.run smallAccounts)).result = .error (.invalid (.coinForm "1UCORE")) := by
  have hfee : Coin.ofText .coreum capitalFee.creationFee = .error (.invalid (.coinForm "1UCORE")) :=
    rfl
  refine ⟨FactoryConfig.resolve_fee .coreum "1UCORE", ?_, ?_⟩
  · rintro ⟨coin, hcoin⟩
    rw [hfee] at hcoin
    cases hcoin
  · have hdecoded : IssueToken.codec.decode smallIssue = .ok smallIssued := rfl
    have hchecked : checkNewDenom capitalFee "tok" "a" "a" = .ok () := rfl
    have hnone : circulating (capitalChain.run smallAccounts) "tok-a" = 0 := by decide +kernel
    rw [issueToken_fails_iff rfl hdecoded]
    exact Coreum.issue_fails (run_wellFormed smallAccounts_nonNegative) hfee hchecked rfl rfl hnone

end TokenLedger.Chain
