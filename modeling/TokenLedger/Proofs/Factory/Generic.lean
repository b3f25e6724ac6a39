import TokenLedger.Factory.Generic
import TokenLedger.Proofs.Factory.Rules

/-!
# What the generic factory does

`Effect` lists, message by message, everything a successful message has checked and written
(`effect_of_runs`).  Every created denom is recorded under the name its creator and subdenom spell
(`DenomsNamed`), and whoever may mint a recorded denom is its creator (`creator_of_authorize`),
whatever slashes the prefix and the subdenom contain.
-/

namespace TokenLedger.Factory.Generic

variable {config : FactoryConfig} {host : Host} {sender : String} {s t : Store} {r : Response}
  {m : Message}

/-! ### Effects -/

/-- A successful message of a sender, with the stores before and after it. -/
inductive Effect (config : FactoryConfig) (host : Host) (sender : String) :
    Message → Store → Store → Prop
  | create {m : CreateDenom} {s s' u t : Store} {paid : Response}
      (checked : checkNewDenom config m.subdenom m.sender sender = .ok ())
      (new : (ensureNoSupply host (denomOf config m.sender m.subdenom)).Runs s () s')
      (fee : (chargeFee host config .generic sender).Runs s' paid u)
      (saved : createdDenoms.save u (denomOf config m.sender m.subdenom)
        ⟨m.sender, m.subdenom⟩ = .ok t) :
      Effect config host sender (.create m) s t
  | mint {m : MintDenom} {coin : WireCoin} {amount : Nat} {minted : Response} {s t : Store}
      (named : m.amount = some coin)
      (authorized : authorize config sender coin.denom m.sender .mint = .ok ())
      (created : createdDenoms.has s coin.denom = .ok true)
      (positive : positiveAmount coin.amount = .ok amount)
      (done : (mintCoin host (orElse m.mintToAddress m.sender) ⟨coin.denom, amount⟩).Runs s
        minted t) :
      Effect config host sender (.mint m) s t
  | burn {m : BurnDenom} {coin : WireCoin} {amount : Nat} {burned : Response} {s t : Store}
      (named : m.amount = some coin)
      (authorized : authorize config sender coin.denom m.sender .burn = .ok ())
      (positive : positiveAmount coin.amount = .ok amount)
      (done : (burnCoin host sender ⟨coin.denom, amount⟩).Runs s burned t) :
      Effect config host sender (.burn m) s t

theorem requiredAmount_eq_ok {given : Option WireCoin} {coin : WireCoin} :
    requiredAmount given = .ok coin ↔ given = some coin := by
  cases given <;> simp [requiredAmount]

/-- What a creation that succeeds has done, and what it answers. -/
theorem create_inv {m : CreateDenom} (h : (create config host sender m).Runs s r t) :
    ∃ s' u paid data, checkNewDenom config m.subdenom m.sender sender = .ok () ∧
      (ensureNoSupply host (denomOf config m.sender m.subdenom)).Runs s () s' ∧
      (chargeFee host config .generic sender).Runs s' paid u ∧
      createdDenoms.save u (denomOf config m.sender m.subdenom) ⟨m.sender, m.subdenom⟩ = .ok t ∧
      CreateDenomResponse.codec.encode ⟨denomOf config m.sender m.subdenom⟩ = .ok data ∧
      r = ⟨[⟨"create_denom", [("creator", m.sender),
        ("new_token_denom", denomOf config m.sender m.subdenom)]⟩], some data⟩ := by
  simp only [create, Action.runs_bind, Action.runs_ofExcept, Action.runs_write, Action.runs_log,
    Action.runs_pure] at h
  obtain ⟨_, _, ⟨checked, rfl⟩, _, s', new, paid, u, fee, _, w, saved, _, _, rfl, data, _,
    ⟨encoded, rfl⟩, answered, rfl⟩ := h
  exact ⟨s', u, paid, data, checked, new, fee, saved, encoded, answered⟩

theorem create_effect {m : CreateDenom} (h : (create config host sender m).Runs s r t) :
    Effect config host sender (.create m) s t := by
  obtain ⟨s', u, paid, data, checked, new, fee, saved, -⟩ := create_inv h
  exact .create checked new fee saved

/-- When a mint succeeds, and what it answers. -/
theorem mint_runs {m : MintDenom} : (mint config host sender m).Runs s r t ↔
    ∃ coin amount minted, m.amount = some coin ∧
      authorize config sender coin.denom m.sender .mint = .ok () ∧
      createdDenoms.has s coin.denom = .ok true ∧ positiveAmount coin.amount = .ok amount ∧
      (mintCoin host (orElse m.mintToAddress m.sender) ⟨coin.denom, amount⟩).Runs s minted t ∧
      r = ⟨[⟨"tf_mint", [("sender", m.sender), ("mint_to_address", m.mintToAddress),
        ("recipient", orElse m.mintToAddress m.sender), ("denom", coin.denom),
        ("amount", amount.repr)]⟩], some []⟩ := by
  simp only [mint, Action.runs_bind, Action.runs_ofExcept, Action.runs_read, Action.runs_require,
    Action.runs_log, Action.runs_pure, requiredAmount_eq_ok]
  constructor
  · rintro ⟨coin, _, ⟨named, rfl⟩, _, _, ⟨authorized, rfl⟩, _, _, ⟨created, rfl⟩, _, _,
      ⟨rfl, rfl⟩, amount, _, ⟨positive, rfl⟩, minted, u, done, _, _, rfl, answered, rfl⟩
    exact ⟨coin, amount, minted, named, authorized, created, positive, done, answered⟩
  · rintro ⟨coin, amount, minted, named, authorized, created, positive, done, answered⟩
    exact ⟨_, _, ⟨named, rfl⟩, _, _, ⟨authorized, rfl⟩, _, _, ⟨created, rfl⟩, (), _, ⟨rfl, rfl⟩, _,
      _, ⟨positive, rfl⟩, _, _, done, (), _, rfl, answered, rfl⟩

theorem mint_effect {m : MintDenom} (h : (mint config host sender m).Runs s r t) :
    Effect config host sender (.mint m) s t := by
  obtain ⟨coin, amount, minted, named, authorized, created, positive, done, -⟩ := mint_runs.mp h
  exact .mint named authorized created positive done

/-- What a burn that succeeds has done, and what it answers. -/
theorem burn_inv {m : BurnDenom} (h : (burn config host sender m).Runs s r t) :
    ∃ coin amount burned, m.amount = some coin ∧
      authorize config sender coin.denom m.sender .burn = .ok () ∧
      positiveAmount coin.amount = .ok amount ∧
      (burnCoin host sender ⟨coin.denom, amount⟩).Runs s burned t ∧
      r = ⟨[⟨"tf_burn", [("burn_from_address", sender), ("amount", amount.repr)]⟩], some []⟩ := by
  simp only [burn, Action.runs_bind, Action.runs_ofExcept, Action.runs_log, Action.runs_pure,
    requiredAmount_eq_ok] at h
  obtain ⟨coin, _, ⟨named, rfl⟩, _, _, ⟨authorized, rfl⟩, amount, _, ⟨positive, rfl⟩, burned, u,
    done, _, _, rfl, answered, rfl⟩ := h
  exact ⟨coin, amount, burned, named, authorized, positive, done, answered⟩

theorem burn_effect {m : BurnDenom} (h : (burn config host sender m).Runs s r t) :
    Effect config host sender (.burn m) s t := by
  obtain ⟨coin, amount, burned, named, authorized, positive, done, -⟩ := burn_inv h
  exact .burn named authorized positive done

/-- A message that succeeds has its effect. -/
theorem effect_of_runs (h : (handle config host sender m).Runs s r t) :
    Effect config host sender m s t := by
  cases m with
  | create m => exact create_effect h
  | mint m => exact mint_effect h
  | burn m => exact burn_effect h

theorem execute_effect {typeUrl : String} {value : Bytes}
    (h : (execute config host sender typeUrl value).Runs s r t) :
    ∃ m, Message.ofWire typeUrl value = .ok m ∧ Effect config host sender m s t := by
  obtain ⟨m, _, hread, hrun⟩ := Action.runs_bind.mp h
  obtain ⟨hm, rfl⟩ := Action.runs_ofExcept.mp hread
  exact ⟨m, hm, effect_of_runs hrun⟩

/-! ### Messages off the wire -/

/-- A message is what the payload of a type says. -/
def Message.ReadFrom (typeUrl : String) (value : Bytes) : Message → Prop
  | .create m => typeUrl = CreateDenom.typeUrl ∧ CreateDenom.codec.decode value = .ok m
  | .mint m => typeUrl = MintDenom.typeUrl ∧ MintDenom.codec.decode value = .ok m
  | .burn m => typeUrl = BurnDenom.typeUrl ∧ BurnDenom.codec.decode value = .ok m

theorem readFrom_of_ofWire {typeUrl : String} {value : Bytes}
    (h : Message.ofWire typeUrl value = .ok m) : m.ReadFrom typeUrl value := by
  unfold Message.ofWire at h
  split_ifs at h with h1 h2 h3
  all_goals
    obtain ⟨m, hm, rfl⟩ := Except.map_eq_ok.mp h
    exact ⟨‹_›, hm⟩

theorem ofWire_of_readFrom {typeUrl : String} {value : Bytes} (h : m.ReadFrom typeUrl value) :
    Message.ofWire typeUrl value = .ok m := by
  cases m with
  | create m =>
    obtain ⟨rfl, hm⟩ := h
    exact congrArg (Message.create <$> ·) hm
  | mint m =>
    obtain ⟨rfl, hm⟩ := h
    exact congrArg (Message.mint <$> ·) hm
  | burn m =>
    obtain ⟨rfl, hm⟩ := h
    exact congrArg (Message.burn <$> ·) hm

/-- A payload that is read as a message is handled as that message. -/
theorem execute_of_readFrom {typeUrl : String} {value : Bytes}
    (hm : m.ReadFrom typeUrl value) :
    execute config host sender typeUrl value = handle config host sender m := by
  unfold execute
  rw [ofWire_of_readFrom hm]
  rfl

/-- A payload that is read as a message has the effect of that message. -/
theorem effect_of_readFrom {typeUrl : String} {value : Bytes}
    (hm : m.ReadFrom typeUrl value) (h : (execute config host sender typeUrl value).Runs s r t) :
    Effect config host sender m s t := by
  rw [execute_of_readFrom hm] at h
  exact effect_of_runs h

/-! ### The books -/

/-- A message mints a coin. -/
inductive Message.Mints : Message → Coin → Prop
  | mint {m : MintDenom} {coin : WireCoin} {amount : Nat} (named : m.amount = some coin)
      (read : readAmount coin.amount "amount" = .ok amount) :
      Mints (.mint m) ⟨coin.denom, amount⟩

open Bank in
/-- Every message settles. -/
theorem Effect.settled (hs : WellFormed s) (h : Effect config Bank.host sender m s t) :
    ∃ minted, (∀ coin, minted = some coin → m.Mints coin) ∧ Settled sender minted s t := by
  cases h with
  | create checked new fee saved =>
    cases ensureNoSupply_store new
    obtain ⟨cost, hcost, hfee⟩ := chargeFee_booked hs fee
    have hpaid : Settled sender none s _ := settled_of_booked hfee fun d => by
      have := hcost d
      omega
    have hframe : Store.SameUnder balances.root _ t := RecordMap.sameUnder_save saved (by decide)
    exact ⟨none, by simp, hpaid.congr hframe⟩
  | mint named authorized created positive done =>
    refine ⟨_, ?_, settled_of_mintCoin hs done⟩
    rintro _ ⟨⟩
    exact .mint named (positiveAmount_eq_ok.mp positive).1
  | burn named authorized positive done =>
    exact ⟨none, by simp, settled_of_burnCoin hs done⟩

/-! ### Names of denoms -/

theorem parts_denomOf {creator subdenom : String} (h : '/' ∉ creator.toList) :
    parts '/' (denomOf config creator subdenom) =
      parts '/' config.denomPrefix ++ creator :: parts '/' subdenom := by
  unfold denomOf
  rw [parts_append rfl, parts_append rfl, parts_of_notMem h, List.append_assoc]
  rfl

theorem authorize_eq_ok {denom messageSender : String} {action : TokenAction} {u : Unit} :
    authorize config sender denom messageSender action = .ok u ↔
      ((parts '/' denom).length = 3 ∨ (parts '/' denom)[0]? = some config.denomPrefix) ∧
        (parts '/' denom)[1]? = some sender ∧ messageSender = sender := by
  unfold authorize
  simp only
  split_ifs with h1 h2 h3
  · simp only [false_iff, not_and]
    intro h
    exact absurd h (not_or.mpr h1)
  · simp [h2]
  · simp [Ne.symm h3]
  · simp only [true_iff]
    refine ⟨?_, not_not.mp h2, (not_not.mp h3).symm⟩
    by_contra hnot
    exact h1 (not_or.mp hnot)

/-- A prefix with slashes lets nobody mint, and without them the creator alone. -/
theorem creator_of_authorize {creator subdenom messageSender : String} {action : TokenAction}
    (hcreator : '/' ∉ creator.toList)
    (h : authorize config sender (denomOf config creator subdenom) messageSender action = .ok ()) :
    creator = sender := by
  obtain ⟨hform, hsecond, -⟩ := authorize_eq_ok.mp h
  rw [parts_denomOf hcreator] at hform hsecond
  cases hparts : parts '/' config.denomPrefix with
  | nil => exact absurd hparts (parts_ne_nil _ _)
  | cons p ps =>
    have hps : ps = [] := by
      rw [hparts] at hform
      rcases hform with hlength | hfirst
      · have hsub : 0 < (parts '/' subdenom).length :=
          List.length_pos_of_ne_nil (parts_ne_nil _ _)
        simp only [List.length_append, List.length_cons] at hlength
        exact List.eq_nil_of_length_eq_zero (by omega)
      · have hp : p = config.denomPrefix := by simpa using hfirst
        exact eq_nil_of_parts_eq_cons (hp ▸ hparts)
    rw [hparts, hps] at hsecond
    simpa using hsecond

/-! ### Records of denoms -/

instance : createdDenoms.key.Lawful := inferInstanceAs Key.text.Lawful

theorem readsBack_createdDenom (d : CreatedDenom) : createdDenoms.ReadsBack d := by
  refine RecordMap.readsBack_of_plain (m := createdDenoms) ?_ rfl
  refine ⟨?_, trivial, trivial, trivial⟩
  simp only [List.map_cons, List.map_nil]
  decide

/-- Every denom is recorded under its name, and its creator has no slash. -/
def DenomsNamed (config : FactoryConfig) (s : Store) : Prop :=
  createdDenoms.Holds
    (fun d record => d = denomOf config record.creator record.subdenom ∧
      '/' ∉ record.creator.toList) s

theorem denomsNamed_empty : DenomsNamed config Store.empty := RecordMap.holds_empty

theorem Effect.denomsNamed (hs : DenomsNamed config s)
    (h : Effect config Bank.host sender m s t) : DenomsNamed config t := by
  have booked {u : Store} (hout : Store.SameOutside Bank.balances.root s u) :
      DenomsNamed config u :=
    RecordMap.Holds.congr hs (RecordMap.sameUnder_of_sameOutside hout (by decide))
  cases h with
  | create checked new fee saved =>
    cases ensureNoSupply_store new
    have hu := booked ((chargeFee_writesBalances config .generic sender).of_runs fee)
    refine RecordMap.Holds.save hu (readsBack_createdDenom _) ?_ saved
    exact ⟨rfl, (creator_of_checkNewDenom checked).1⟩
  | mint named authorized created positive done =>
    exact booked ((Bank.mint_writesBalances _).of_runs done)
  | burn named authorized positive done =>
    exact booked ((Bank.execute_writesBalances sender (.burn _)).of_runs done)

/-- What is minted is a recorded denom, and the sender is its creator. -/
theorem Effect.recorded {coin : Coin} (hs : DenomsNamed config s)
    (h : Effect config Bank.host sender m s t) (hcoin : m.Mints coin) :
    ∃ record, createdDenoms.load? t coin.denom = .ok (some record) ∧ record.creator = sender := by
  cases h with
  | create => cases hcoin
  | burn => cases hcoin
  | mint named authorized created positive done =>
    cases hcoin with
    | mint named' read =>
      cases named.symm.trans named'
      obtain ⟨record, hload⟩ := RecordMap.Holds.load?_of_has hs created
      obtain ⟨hname, hslash⟩ := (RecordMap.Holds.of_load? hs hload).2
      rw [hname] at authorized
      have hframe : Store.SameUnder createdDenoms.root _ t :=
        RecordMap.sameUnder_of_sameOutside ((Bank.mint_writesBalances _).of_runs done) (by decide)
      exact ⟨record, by rw [RecordMap.load?_congr hframe, hload],
        creator_of_authorize hslash authorized⟩

end TokenLedger.Factory.Generic
