import TokenLedger.Proofs.Chain.Run

/-!
# Who can inflate a token

The supply of a denom grows in a transaction only by a mint or an issue of just that denom, by what
the message says, and the factory has a record of the denom that names the sender.  The records are
named for what they are about in every run (`run_recordsNamed`); a factory reads the issuer or the
creator back out of the denom.
-/

namespace TokenLedger

open Bank

variable {variant : Variant} {config : FactoryConfig} {sender d : String}

/-! ### Factories of both variants -/

namespace Factory

/-- The records of a factory are named for what they are about. -/
def RecordsNamed (config : FactoryConfig) : Variant → Store → Prop
  | .generic => Generic.DenomsNamed config
  | .coreum => Coreum.TokensNamed

/-- A message has minted an amount of a denom, and the factory's record of the denom in the store
after it names the sender. -/
inductive Minted (sender d : String) (amount : Int) (after : Store) : Variant → Message → Prop
  | mintDenom {value : Bytes} {m : MintDenom} {coin : WireCoin} {n : Nat}
      {record : Generic.CreatedDenom}
      (decoded : MintDenom.codec.decode value = .ok m)
      (named : m.amount = some coin) (denom : coin.denom = d)
      (parsed : readAmount coin.amount "amount" = .ok n) (exact : amount = n)
      (recorded : Generic.createdDenoms.load? after d = .ok (some record))
      (creator : record.creator = sender) :
      Minted sender d amount after .generic (.stargate MintDenom.typeUrl value)
  | mintToken {value : Bytes} {m : MintToken} {coin : WireCoin} {n : Nat}
      {record : Asset.IssuedToken}
      (decoded : MintToken.codec.decode value = .ok m)
      (named : m.coin = some coin) (denom : coin.denom = d)
      (parsed : readAmount coin.amount "amount" = .ok n) (exact : amount = n)
      (recorded : Asset.issuedTokens.load? after d = .ok (some record))
      (issuer : record.issuer = sender) :
      Minted sender d amount after .coreum (.stargate MintToken.typeUrl value)
  | issueToken {value : Bytes} {m : IssueToken} {n : Nat} {record : Asset.IssuedToken}
      (decoded : IssueToken.codec.decode value = .ok m)
      (denom : Asset.denomOf m.subunit m.issuer = d)
      (parsed : readAmount m.initialAmount "initial_amount" = .ok n) (exact : amount = n)
      (recorded : Asset.issuedTokens.load? after d = .ok (some record))
      (issuer : record.issuer = sender) :
      Minted sender d amount after .coreum (.stargate IssueToken.typeUrl value)

variable {s t : Store} {coin : Coin}

/-- Where a supply has grown, a coin of the denom was minted, and by its amount. -/
theorem minted_of_circulating_lt {minted : Option Coin} (h : Settled sender minted s t)
    (hlt : circulating s d < circulating t d) :
    ∃ amount, minted = some ⟨d, amount⟩ ∧ circulating t d - circulating s d = amount := by
  rcases h.circulating d with hle | heq
  · omega
  · cases minted with
    | none =>
      have hzero : amountOf (none : Option Coin).toList d = 0 := rfl
      omega
    | some coin =>
      have hcoin : amountOf (some coin).toList d =
          (if d = coin.denom then coin.amount else 0) + 0 := rfl
      split_ifs at hcoin with hd
      · subst hd
        exact ⟨coin.amount, rfl, by omega⟩
      · omega

theorem Generic.minted_of_mints {m : Generic.Message} {typeUrl : String} {value : Bytes}
    {amount : Int} (hs : Generic.DenomsNamed config s) (hm : m.ReadFrom typeUrl value)
    (h : Generic.Effect config Bank.host sender m s t) (hcoin : m.Mints ⟨d, amount⟩) :
    Minted sender d amount t .generic (.stargate typeUrl value) := by
  obtain ⟨record, hload, hcreator⟩ := h.recorded hs hcoin
  cases hcoin with
  | mint named read =>
    obtain ⟨rfl, decoded⟩ := hm
    exact .mintDenom decoded named rfl read rfl hload hcreator

theorem Coreum.minted_of_mints {m : Coreum.Message} {typeUrl : String} {value : Bytes}
    {amount : Int} (hs : Coreum.TokensNamed s) (hm : m.ReadFrom typeUrl value)
    (h : Coreum.Effect config Bank.host sender m s t) (hcoin : m.Mints ⟨d, amount⟩) :
    Minted sender d amount t .coreum (.stargate typeUrl value) := by
  obtain ⟨record, hload, hissuer⟩ := h.recorded hs hm hcoin
  cases hcoin with
  | issue read =>
    obtain ⟨rfl, decoded⟩ := hm
    exact .issueToken decoded rfl read rfl hload hissuer
  | mint named read =>
    obtain ⟨rfl, decoded⟩ := hm
    exact .mintToken decoded named rfl read rfl hload hissuer

end Factory

open Factory

namespace StargateModule

variable {s t : Store} {typeUrl : String} {value : Bytes} {r : Response}

theorem factory_recordsNamed (hs : RecordsNamed config variant s)
    (h : ((factory variant config).execute Bank.host sender typeUrl value).Runs s r t) :
    RecordsNamed config variant t := by
  cases variant with
  | generic =>
    obtain ⟨m, -, heffect⟩ := Generic.execute_effect h
    exact heffect.denomsNamed hs
  | coreum =>
    obtain ⟨m, hm, heffect⟩ := Coreum.execute_effect h
    exact heffect.tokensNamed hs (Coreum.readFrom_of_ofWire hm)

/-- A factory's message that makes a supply grow is a mint by the one the record names. -/
theorem factory_minted (hs : WellFormed s) (hnamed : RecordsNamed config variant s)
    (h : ((factory variant config).execute Bank.host sender typeUrl value).Runs s r t)
    (hlt : circulating s d < circulating t d) :
    Minted sender d (circulating t d - circulating s d) t variant (.stargate typeUrl value) := by
  cases variant with
  | generic =>
    obtain ⟨m, hm, heffect⟩ := Generic.execute_effect h
    obtain ⟨minted, hmints, hsettled⟩ := heffect.settled hs
    obtain ⟨amount, hminted, hamount⟩ := minted_of_circulating_lt hsettled hlt
    exact hamount ▸ Generic.minted_of_mints hnamed (Generic.readFrom_of_ofWire hm) heffect
      (hmints _ hminted)
  | coreum =>
    obtain ⟨m, hm, heffect⟩ := Coreum.execute_effect h
    obtain ⟨minted, hmints, hsettled⟩ := heffect.settled hs
    obtain ⟨amount, hminted, hamount⟩ := minted_of_circulating_lt hsettled hlt
    exact hamount ▸ Coreum.minted_of_mints hnamed (Coreum.readFrom_of_ofWire hm) heffect
      (hmints _ hminted)

end StargateModule

/-! ### Runs -/

namespace Chain

variable {c : Chain} {s : Store} {calls : List Call} {message : Message}

theorem recordsNamed_empty : RecordsNamed config variant .empty := by
  cases variant with
  | generic => exact Generic.denomsNamed_empty
  | coreum => exact Coreum.tokensNamed_empty

theorem recordsNamed_of_sameOutside {t : Store} (hs : RecordsNamed config variant s)
    (h : Store.SameOutside balances.root s t) : RecordsNamed config variant t := by
  cases variant with
  | generic => exact RecordMap.Holds.congr hs (RecordMap.sameUnder_of_sameOutside h (by decide))
  | coreum => exact RecordMap.Holds.congr hs (RecordMap.sameUnder_of_sameOutside h (by decide))

theorem call_recordsNamed (hcore : c.stargate.core = .factory variant config)
    (hs : RecordsNamed config variant s) (call : Call) :
    RecordsNamed config variant (c.call s call) := by
  rcases call_stargate_cases c s call with hout | ⟨sender, typeUrl, value, r, -, hrun⟩
  · exact recordsNamed_of_sameOutside hs hout
  · rw [hcore] at hrun
    exact StargateModule.factory_recordsNamed hs hrun

/-- In every run the records are named for what they are about. -/
theorem run_recordsNamed (hcore : c.stargate.core = .factory variant config) (calls : List Call) :
    RecordsNamed config variant (c.run calls) :=
  run_keeps recordsNamed_empty fun call _ _ hu => call_recordsNamed hcore hu call

/-- After any calls without negative amounts, a transaction of a chain with a token factory makes
the supply of a denom grow only if it succeeds, mints just that denom and just that amount, and the
factory's record of the denom names the sender. -/
theorem minted_of_supply_lt (c : Chain) (hcore : c.stargate.core = .factory variant config)
    (hcalls : ∀ call ∈ calls, call.NonNegative) (hmessage : message.NonNegative)
    (sender d : String) :
    ∃ before after, supply (c.run calls) d = .ok before ∧
      supply (c.executeTx sender message (c.run calls)).store d = .ok after ∧
      (before < after →
        (∃ r, (c.executeTx sender message (c.run calls)).result = .ok r) ∧
          Minted sender d (after - before) (c.executeTx sender message (c.run calls)).store variant
            message) := by
  have hs := run_wellFormed (c := c) hcalls
  have hnamed := run_recordsNamed hcore calls
  rcases executeTx_cases c sender message (c.run calls) with
    ⟨e, -, hstore⟩ | ⟨r, t, hrun, hresult, hstore⟩
  · rw [hstore]
    exact ⟨_, _, hs.supply d, hs.supply d, fun hlt => absurd hlt (Int.lt_irrefl _)⟩
  · have ht := execute_wellFormed hs hmessage hrun
    rw [hstore]
    refine ⟨_, _, hs.supply d, ht.supply d, fun hlt => ⟨⟨r, hresult⟩, ?_⟩⟩
    cases message with
    | bank message =>
      have hle := (execute_circulating hs hmessage hrun).2 d
      omega
    | custom => exact absurd hrun not_runs_custom
    | stargate typeUrl value =>
      rw [execute_stargate, hcore] at hrun
      exact StargateModule.factory_minted hs hnamed hrun hlt

/-- The account that can pay for it issues a token with seven units. -/
theorem minted_of_supply_lt_issue :
    Minted "a" "tok-a" 7 ((small .coreum).executeTx "a" (.stargate IssueToken.typeUrl smallIssue)
      ((small .coreum).run smallAccounts)).store .coreum
        (.stargate IssueToken.typeUrl smallIssue) := by
  obtain ⟨before, after, hbefore, hafter, hminted⟩ :=
    minted_of_supply_lt (small .coreum) rfl smallAccounts_nonNegative
      (show (Message.stargate IssueToken.typeUrl smallIssue).NonNegative from trivial) "a" "tok-a"
  have hzero : before = 0 := by
    refine Option.some.inj ((congrArg Except.toOption hbefore).symm.trans ?_)
    decide +kernel
  have hseven : after = 7 := by
    refine Option.some.inj ((congrArg Except.toOption hafter).symm.trans ?_)
    decide +kernel
  subst hzero hseven
  exact (hminted (by decide)).2

end Chain

end TokenLedger
