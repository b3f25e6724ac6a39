import TokenLedger.Factory.Coreum
import TokenLedger.Proofs.Asset.Record
import TokenLedger.Proofs.Factory.Rules

/-!
# What the Coreum factory does

`Effect` lists, message by message, everything a successful message has checked and written;
`effect_of_runs` shows that nothing else happens.  Invariants are shown by cases on it.
-/

namespace TokenLedger.Factory.Coreum

open Asset

variable {config : FactoryConfig} {host : Host} {sender : String} {s t : Store} {r : Response}

/-! ### Effects -/

/-- A successful message of a sender, with the stores before and after it. -/
inductive Effect (config : FactoryConfig) (host : Host) (sender : String) :
    Message → Store → Store → Prop
  | issue {m : IssueToken} {s s' u v t : Store} {paid : Response} {events : List Event}
      (checked : checkNewDenom config m.subunit m.issuer sender = .ok ())
      (new : (ensureNoSupply host (denomOf m.subunit m.issuer)).Runs s () s')
      (fee : (chargeFee host config .coreum sender).Runs s' paid u)
      (minted : (mintInitial host (denomOf m.subunit m.issuer) m).Runs u events v)
      (saved : issuedTokens.save v (denomOf m.subunit m.issuer) (.ofMessage m) = .ok t) :
      Effect config host sender (.issue m) s t
  | mint {m : MintToken} {coin : WireCoin} {amount : Nat} {minted : Response} {s t : Store}
      (named : m.coin = some coin)
      (authorized : authorize sender coin.denom m.sender .mint = .ok ())
      (issued : issuedTokens.has s coin.denom = .ok true)
      (positive : positiveAmount coin.amount = .ok amount)
      (done : (mintCoin host (orElse m.recipient m.sender) ⟨coin.denom, amount⟩).Runs s minted t) :
      Effect config host sender (.mint m) s t
  | burn {m : BurnToken} {coin : WireCoin} {amount : Nat} {burned : Response} {s t : Store}
      (named : m.coin = some coin)
      (authorized : authorize sender coin.denom m.sender .burn = .ok ())
      (issued : issuedTokens.has s coin.denom = .ok true)
      (positive : positiveAmount coin.amount = .ok amount)
      (done : (burnCoin host sender ⟨coin.denom, amount⟩).Runs s burned t) :
      Effect config host sender (.burn m) s t
  | issueClass {m : IssueClass} {s t : Store}
      (issuer : m.issuer = sender)
      (free : classes.has s (classIdOf m.symbol m.issuer) = .ok false)
      (saved : classes.save s (classIdOf m.symbol m.issuer) (.ofMessage m) = .ok t) :
      Effect config host sender (.issueClass m) s t
  | mintNft {m : MintNft} {c : StoredClass} {s t : Store}
      (signed : m.sender = sender)
      (known : classes.load? s m.classId = .ok (some c))
      (issuer : c.issuer = sender)
      (free : nfts.has s (m.classId, m.id) = .ok false)
      (saved : nfts.save s (m.classId, m.id) (.ofMessage m (orElse m.recipient m.sender)) = .ok t) :
      Effect config host sender (.mintNft m) s t
  | burnNft {m : BurnNft} {c : StoredClass} {n : StoredNft} {s t : Store}
      (signed : m.sender = sender)
      (known : classes.load? s m.classId = .ok (some c))
      (live : nfts.load? s (m.classId, m.id) = .ok (some n))
      (allowed : n.owner = sender ∨ (.burning ∈ c.features ∧ c.issuer = sender))
      (deleted : nfts.delete s (m.classId, m.id) = .ok t) :
      Effect config host sender (.burnNft m) s t
  | sendNft {m : SendNft} {c : StoredClass} {n : StoredNft} {s t : Store}
      (known : classes.load? s m.classId = .ok (some c))
      (live : nfts.load? s (m.classId, m.id) = .ok (some n))
      (checked : checkSender sender m c n = .ok ())
      (receiver : m.receiver ≠ "")
      (saved : nfts.save s (m.classId, m.id) { n with owner := m.receiver } = .ok t) :
      Effect config host sender (.sendNft m) s t

/-! ### Readings -/

theorem requireIssued_runs {denom : String} {action : TokenAction} {u : Unit} :
    (requireIssued denom action).Runs s u t ↔ issuedTokens.has s denom = .ok true ∧ t = s := by
  simp only [requireIssued, Action.runs_bind, Action.runs_read, Action.runs_require]
  constructor
  · rintro ⟨_, _, ⟨hhas, rfl⟩, rfl, rfl⟩
    exact ⟨hhas, rfl⟩
  · rintro ⟨hhas, rfl⟩
    exact ⟨true, t, ⟨hhas, rfl⟩, rfl, rfl⟩

theorem requiredCoin_eq_ok {action : TokenAction} {given : Option WireCoin} {coin : WireCoin} :
    requiredCoin action given = .ok coin ↔ given = some coin := by
  cases given <;> simp [requiredCoin]

theorem classToMint_eq_ok {classId : String} {c : StoredClass} :
    classToMint classId s = .ok c ↔ classes.load? s classId = .ok (some c) := by
  rw [classToMint, Except.bind_eq_ok]
  constructor
  · rintro ⟨_ | c', hload, h⟩
    · cases h
    · injection h with h
      exact h ▸ hload
  · exact fun h => ⟨some c, h, rfl⟩

theorem loadLive_eq_ok {classId id : String} {c : StoredClass} {n : StoredNft} :
    loadLive classId id s = .ok (c, n) ↔
      classes.load? s classId = .ok (some c) ∧ nfts.load? s (classId, id) = .ok (some n) := by
  rw [loadLive, Except.bind_eq_ok]
  constructor
  · rintro ⟨_ | c', hclass, h⟩
    · cases h
    · obtain ⟨_ | n', hnft, h⟩ := Except.bind_eq_ok.mp h
      · cases h
      · injection h with h
        injection h with hc hn
        exact ⟨hc ▸ hclass, hn ▸ hnft⟩
  · rintro ⟨hclass, hnft⟩
    exact ⟨some c, hclass, Except.bind_eq_ok.mpr ⟨some n, hnft, rfl⟩⟩

/-- An initial amount that is empty or zero is not minted, any other one is. -/
theorem mintInitial_inv {denom : String} {m : IssueToken} {events : List Event}
    (h : (mintInitial host denom m).Runs s events t) :
    ((m.initialAmount = "" ∨ readAmount m.initialAmount "initial_amount" = .ok 0) ∧ t = s) ∨
      ∃ amount minted, readAmount m.initialAmount "initial_amount" = .ok amount ∧
        m.initialAmount ≠ "" ∧ (mintCoin host m.issuer ⟨denom, amount⟩).Runs s minted t := by
  unfold mintInitial at h
  split_ifs at h with hempty
  · exact Or.inl ⟨Or.inl hempty, (Action.runs_pure.mp h).2⟩
  · obtain ⟨amount, _, hread, hrest⟩ := Action.runs_bind.mp h
    obtain ⟨hamount, rfl⟩ := Action.runs_ofExcept.mp hread
    split_ifs at hrest with hzero
    · subst hzero
      exact Or.inl ⟨Or.inr hamount, (Action.runs_pure.mp hrest).2⟩
    · obtain ⟨minted, _, hmint, hpure⟩ := Action.runs_bind.mp hrest
      obtain ⟨-, rfl⟩ := Action.runs_pure.mp hpure
      exact Or.inr ⟨amount, minted, hamount, hempty, hmint⟩

/-! ### Handlers -/

theorem issue_effect {m : IssueToken} (h : (issue config host sender m).Runs s r t) :
    Effect config host sender (.issue m) s t := by
  simp only [issue, Action.runs_bind, Action.runs_ofExcept, Action.runs_write, Action.runs_log,
    Action.runs_pure] at h
  obtain ⟨_, _, ⟨checked, rfl⟩, _, _, ⟨-, rfl⟩, _, _, ⟨-, rfl⟩, _, s', new, paid, u, fee, events, v,
    minted, _, w, saved, _, _, rfl, -, rfl⟩ := h
  exact .issue checked new fee minted saved

/-- When a mint succeeds, and what it answers. -/
theorem mint_runs {m : MintToken} : (mint host sender m).Runs s r t ↔
    ∃ coin amount minted, m.coin = some coin ∧
      authorize sender coin.denom m.sender .mint = .ok () ∧
      issuedTokens.has s coin.denom = .ok true ∧ positiveAmount coin.amount = .ok amount ∧
      (mintCoin host (orElse m.recipient m.sender) ⟨coin.denom, amount⟩).Runs s minted t ∧
      r = ⟨minted.events ++ [⟨"tf_mint", [("sender", m.sender),
        ("recipient", orElse m.recipient m.sender), ("denom", coin.denom),
        ("amount", amount.repr)]⟩], none⟩ := by
  simp only [mint, Action.runs_bind, Action.runs_ofExcept, Action.runs_log, Action.runs_pure,
    requireIssued_runs, requiredCoin_eq_ok]
  constructor
  · rintro ⟨coin, _, ⟨named, rfl⟩, _, _, ⟨authorized, rfl⟩, _, _, ⟨issued, rfl⟩, amount, _,
      ⟨positive, rfl⟩, minted, u, done, _, _, rfl, answered, rfl⟩
    exact ⟨coin, amount, minted, named, authorized, issued, positive, done, answered⟩
  · rintro ⟨coin, amount, minted, named, authorized, issued, positive, done, answered⟩
    exact ⟨_, _, ⟨named, rfl⟩, _, _, ⟨authorized, rfl⟩, (), _, ⟨issued, rfl⟩, _, _,
      ⟨positive, rfl⟩, _, _, done, (), _, rfl, answered, rfl⟩

theorem mint_effect {m : MintToken} (h : (mint host sender m).Runs s r t) :
    Effect config host sender (.mint m) s t := by
  obtain ⟨coin, amount, minted, named, authorized, issued, positive, done, -⟩ := mint_runs.mp h
  exact .mint named authorized issued positive done

/-- What a burn that succeeds has done, and what it answers. -/
theorem burn_inv {m : BurnToken} (h : (burn host sender m).Runs s r t) :
    ∃ coin amount burned, m.coin = some coin ∧
      authorize sender coin.denom m.sender .burn = .ok () ∧
      issuedTokens.has s coin.denom = .ok true ∧ positiveAmount coin.amount = .ok amount ∧
      (burnCoin host sender ⟨coin.denom, amount⟩).Runs s burned t ∧
      r = ⟨burned.events ++
        [⟨"tf_burn", [("burn_from_address", sender), ("amount", amount.repr)]⟩], none⟩ := by
  simp only [burn, Action.runs_bind, Action.runs_ofExcept, Action.runs_log, Action.runs_pure,
    requireIssued_runs, requiredCoin_eq_ok] at h
  obtain ⟨coin, _, ⟨named, rfl⟩, _, _, ⟨authorized, rfl⟩, _, _, ⟨issued, rfl⟩, amount, _,
    ⟨positive, rfl⟩, burned, u, done, _, _, rfl, answered, rfl⟩ := h
  exact ⟨coin, amount, burned, named, authorized, issued, positive, done, answered⟩

theorem burn_effect {m : BurnToken} (h : (burn host sender m).Runs s r t) :
    Effect config host sender (.burn m) s t := by
  obtain ⟨coin, amount, burned, named, authorized, issued, positive, done, -⟩ := burn_inv h
  exact .burn named authorized issued positive done

theorem issueClass_effect {m : IssueClass} (h : (issueClass sender m).Runs s r t) :
    Effect config host sender (.issueClass m) s t := by
  simp only [issueClass, Action.runs_bind, Action.runs_require, Action.runs_read,
    Action.runs_write, Action.runs_log, Action.runs_pure, decide_eq_true_eq,
    Bool.not_eq_true'] at h
  obtain ⟨_, _, ⟨issuer, rfl⟩, taken, _, ⟨free, rfl⟩, _, _, ⟨rfl, rfl⟩, _, u, saved, _, _, rfl, -,
    rfl⟩ := h
  exact .issueClass issuer free saved

theorem mintNft_effect {m : MintNft} (h : (mintNft sender m).Runs s r t) :
    Effect config host sender (.mintNft m) s t := by
  simp only [mintNft, Action.runs_bind, Action.runs_require, Action.runs_read, Action.runs_write,
    Action.runs_log, Action.runs_pure, decide_eq_true_eq, Bool.not_eq_true',
    classToMint_eq_ok] at h
  obtain ⟨_, _, ⟨signed, rfl⟩, c, _, ⟨known, rfl⟩, _, _, ⟨issuer, rfl⟩, taken, _, ⟨free, rfl⟩, _, _,
    ⟨rfl, rfl⟩, _, u, saved, _, _, rfl, -, rfl⟩ := h
  exact .mintNft signed known issuer free saved

theorem burnNft_effect {m : BurnNft} (h : (burnNft sender m).Runs s r t) :
    Effect config host sender (.burnNft m) s t := by
  simp only [burnNft, Action.runs_bind, Action.runs_require, Action.runs_read, Action.runs_write,
    Action.runs_log, Action.runs_pure, decide_eq_true_eq, Bool.or_eq_true, Bool.and_eq_true,
    beq_iff_eq, List.contains_iff_mem] at h
  obtain ⟨_, _, ⟨signed, rfl⟩, ⟨c, n⟩, _, ⟨both, rfl⟩, _, _, rfl, _, _, ⟨allowed, rfl⟩, _, u,
    deleted, -, rfl⟩ := h
  obtain ⟨known, live⟩ := loadLive_eq_ok.mp both
  exact .burnNft signed known live allowed deleted

theorem sendNft_effect {m : SendNft} (h : (sendNft sender m).Runs s r t) :
    Effect config host sender (.sendNft m) s t := by
  simp only [sendNft, Action.runs_bind, Action.runs_require, Action.runs_read, Action.runs_write,
    Action.runs_ofExcept, Action.runs_log, Action.runs_pure, bne_iff_ne] at h
  obtain ⟨⟨c, n⟩, _, ⟨both, rfl⟩, _, _, ⟨checked, rfl⟩, _, _, ⟨receiver, rfl⟩, _, u, saved, _, _,
    rfl, -, rfl⟩ := h
  obtain ⟨known, live⟩ := loadLive_eq_ok.mp both
  exact .sendNft known live checked receiver saved

/-- A message that succeeds has its effect. -/
theorem effect_of_runs {m : Message} (h : (handle config host sender m).Runs s r t) :
    Effect config host sender m s t := by
  cases m with
  | issue m => exact issue_effect h
  | mint m => exact mint_effect h
  | burn m => exact burn_effect h
  | issueClass m => exact issueClass_effect h
  | mintNft m => exact mintNft_effect h
  | burnNft m => exact burnNft_effect h
  | sendNft m => exact sendNft_effect h

theorem execute_effect {typeUrl : String} {value : Bytes}
    (h : (execute config host sender typeUrl value).Runs s r t) :
    ∃ m, Message.ofWire typeUrl value = .ok m ∧ Effect config host sender m s t := by
  obtain ⟨m, _, hread, hrun⟩ := Action.runs_bind.mp h
  obtain ⟨hm, rfl⟩ := Action.runs_ofExcept.mp hread
  exact ⟨m, hm, effect_of_runs hrun⟩

/-! ### Messages off the wire -/

/-- A message is what the payload of a type says. -/
def Message.ReadFrom (typeUrl : String) (value : Bytes) : Message → Prop
  | .issue m => typeUrl = IssueToken.typeUrl ∧ IssueToken.codec.decode value = .ok m
  | .mint m => typeUrl = MintToken.typeUrl ∧ MintToken.codec.decode value = .ok m
  | .burn m => typeUrl = BurnToken.typeUrl ∧ BurnToken.codec.decode value = .ok m
  | .issueClass m => typeUrl = IssueClass.typeUrl ∧ IssueClass.codec.decode value = .ok m
  | .mintNft m => typeUrl = MintNft.typeUrl ∧ MintNft.codec.decode value = .ok m
  | .burnNft m => typeUrl = BurnNft.typeUrl ∧ BurnNft.codec.decode value = .ok m
  | .sendNft m => typeUrl = SendNft.typeUrl ∧ SendNft.codec.decode value = .ok m

theorem readFrom_of_ofWire {typeUrl : String} {value : Bytes} {m : Message}
    (h : Message.ofWire typeUrl value = .ok m) : m.ReadFrom typeUrl value := by
  unfold Message.ofWire at h
  split_ifs at h with h1 h2 h3 h4 h5 h6 h7
  all_goals
    obtain ⟨m, hm, rfl⟩ := Except.map_eq_ok.mp h
    exact ⟨‹_›, hm⟩

theorem ofWire_of_readFrom {typeUrl : String} {value : Bytes} {m : Message}
    (h : m.ReadFrom typeUrl value) : Message.ofWire typeUrl value = .ok m := by
  cases m with
  | issue m =>
    obtain ⟨rfl, hm⟩ := h
    exact congrArg (Message.issue <$> ·) hm
  | mint m =>
    obtain ⟨rfl, hm⟩ := h
    exact congrArg (Message.mint <$> ·) hm
  | burn m =>
    obtain ⟨rfl, hm⟩ := h
    exact congrArg (Message.burn <$> ·) hm
  | issueClass m =>
    obtain ⟨rfl, hm⟩ := h
    exact congrArg (Message.issueClass <$> ·) hm
  | mintNft m =>
    obtain ⟨rfl, hm⟩ := h
    exact congrArg (Message.mintNft <$> ·) hm
  | burnNft m =>
    obtain ⟨rfl, hm⟩ := h
    exact congrArg (Message.burnNft <$> ·) hm
  | sendNft m =>
    obtain ⟨rfl, hm⟩ := h
    exact congrArg (Message.sendNft <$> ·) hm

/-- A payload that is read as a message is handled as that message. -/
theorem execute_of_readFrom {typeUrl : String} {value : Bytes} {m : Message}
    (hm : m.ReadFrom typeUrl value) :
    execute config host sender typeUrl value = handle config host sender m := by
  unfold execute
  rw [ofWire_of_readFrom hm]
  rfl

/-- A payload that is read as a message has the effect of that message. -/
theorem effect_of_readFrom {typeUrl : String} {value : Bytes} {m : Message}
    (hm : m.ReadFrom typeUrl value) (h : (execute config host sender typeUrl value).Runs s r t) :
    Effect config host sender m s t := by
  rw [execute_of_readFrom hm] at h
  exact effect_of_runs h

/-! ### Which records change -/

theorem mintInitial_writesBalances (denom : String) (m : IssueToken) :
    Bank.WritesBalances (mintInitial Bank.host denom m) := by
  unfold mintInitial
  split_ifs
  · exact Bank.writesBalances_pure
  · refine Bank.WritesBalances.bind (fun _ => Action.keeps_ofExcept) fun amount => ?_
    split_ifs
    · exact Bank.writesBalances_pure
    · exact (Bank.mint_writesBalances _).bind fun _ => Bank.writesBalances_pure

variable {m : Message}

/-- The name of the map that a message writes a record of. -/
def Message.mapName? : Message → Option String
  | .issue _ => some issuedTokens.name
  | .mint _ | .burn _ => none
  | .issueClass _ => some classes.name
  | .mintNft _ | .burnNft _ | .sendNft _ => some nfts.name

/-- Only the issue of a token writes a token. -/
theorem eq_issue_of_mapName? (h : m.mapName? = some issuedTokens.name) : ∃ m', m = .issue m' := by
  cases m with
  | issue m => exact ⟨m, rfl⟩
  | mint | burn => cases h
  | issueClass | mintNft | burnNft | sendNft =>
    exact absurd h (by simp only [Message.mapName?]; decide)

/-- Only the issue of a class writes a class. -/
theorem eq_issueClass_of_mapName? (h : m.mapName? = some classes.name) :
    ∃ m', m = .issueClass m' := by
  cases m with
  | issueClass m => exact ⟨m, rfl⟩
  | mint | burn => cases h
  | issue | mintNft | burnNft | sendNft =>
    exact absurd h (by simp only [Message.mapName?]; decide)

/-- Besides the balances a message changes records of one map at most. -/
theorem Effect.sameUnder {K V : Type} {map : RecordMap K V}
    (h : Effect config Bank.host sender m s t) (hbalances : map.name ≠ Bank.balances.name)
    (hmap : m.mapName? ≠ some map.name) : Store.SameUnder map.root s t := by
  have booked {u v : Store} (hout : Store.SameOutside Bank.balances.root u v) :
      Store.SameUnder map.root u v := RecordMap.sameUnder_of_sameOutside hout hbalances
  have recorded {K' V' : Type} {map' : RecordMap K' V'} {u : Store}
      (hout : Store.SameOutside map'.root u t) (hne : some map'.name ≠ some map.name) :
      Store.SameUnder map.root u t :=
    RecordMap.sameUnder_of_sameOutside hout fun heq => hne (congrArg some heq.symm)
  cases h with
  | @issue m _ _ _ v _ _ _ checked new fee minted saved =>
    cases ensureNoSupply_store new
    have hfee := (chargeFee_writesBalances config .coreum sender).of_runs fee
    have hmint := (mintInitial_writesBalances _ m).of_runs minted
    exact (booked (hfee.trans hmint)).trans (recorded (RecordMap.sameOutside_save saved) hmap)
  | mint named authorized issued positive done =>
    exact booked ((Bank.mint_writesBalances _).of_runs done)
  | burn named authorized issued positive done =>
    exact booked ((Bank.execute_writesBalances sender (.burn _)).of_runs done)
  | issueClass issuer free saved => exact recorded (RecordMap.sameOutside_save saved) hmap
  | mintNft signed known issuer free saved =>
    exact recorded (RecordMap.sameOutside_save saved) hmap
  | burnNft signed known live allowed deleted =>
    exact recorded (RecordMap.sameOutside_delete deleted) hmap
  | sendNft known live checked receiver saved =>
    exact recorded (RecordMap.sameOutside_save saved) hmap

/-! ### The books -/

/-- A message mints a coin. -/
inductive Message.Mints : Message → Coin → Prop
  | issue {m : IssueToken} {amount : Nat}
      (read : readAmount m.initialAmount "initial_amount" = .ok amount) :
      Mints (.issue m) ⟨denomOf m.subunit m.issuer, amount⟩
  | mint {m : MintToken} {coin : WireCoin} {amount : Nat} (named : m.coin = some coin)
      (read : readAmount coin.amount "amount" = .ok amount) :
      Mints (.mint m) ⟨coin.denom, amount⟩

open Bank in
theorem mintInitial_booked {m : IssueToken} {events : List Event} (hs : WellFormed s)
    (h : (mintInitial Bank.host (denomOf m.subunit m.issuer) m).Runs s events t) :
    ∃ minted : Option Coin, (∀ coin, minted = some coin → Message.Mints (.issue m) coin) ∧
      Booked m.issuer (amountOf minted.toList) s t ∧
        ∀ coin, minted = some coin → 0 ≤ coin.amount := by
  rcases mintInitial_inv h with ⟨-, rfl⟩ | ⟨amount, response, hread, -, hmint⟩
  · exact ⟨none, by simp, .refl hs _, by simp⟩
  · refine ⟨some ⟨denomOf m.subunit m.issuer, amount⟩, ?_, ?_, ?_⟩
    · rintro _ ⟨⟩
      exact .issue hread
    · exact mintCoin_booked hs (Int.natCast_nonneg amount) hmint
    · rintro _ ⟨⟩
      exact Int.natCast_nonneg amount

open Bank in
/-- A new token settles: there was none of it, so that no fee was paid in it. -/
theorem issue_settled {m : IssueToken} (hs : WellFormed s)
    (h : Effect config Bank.host sender (.issue m) s t) :
    ∃ minted, (∀ coin, minted = some coin → Message.Mints (.issue m) coin) ∧
      Settled sender minted s t := by
  cases h with
  | issue checked new fee minted saved =>
    obtain ⟨hnone, rfl⟩ := (ensureNoSupply_runs hs).mp new
    obtain ⟨cost, hcost, hfee⟩ := chargeFee_booked hs fee
    obtain ⟨coin, hcoin, hmint, hpos⟩ := mintInitial_booked hfee.wellFormed minted
    have hframe : Store.SameUnder balances.root _ t := RecordMap.sameUnder_save saved (by decide)
    have hamount : ∀ d, 0 ≤ amountOf coin.toList d := by
      refine amountOf_nonneg fun c hc => hpos c ?_
      simpa [eq_comm] using hc
    refine ⟨coin, hcoin, Settled.congr ⟨hmint.wellFormed, fun a d hne => ?_, fun d => ?_⟩ hframe⟩
    · have := hamount d
      rw [hmint.held, hfee.held, if_neg hne]
      split_ifs <;> omega
    · have hle := hcost d
      rw [hmint.circulating, hfee.circulating]
      by_cases hd : d = denomOf m.subunit m.issuer
      · subst hd
        have hrest := hfee.wellFormed.circulating_nonneg (denomOf m.subunit m.issuer)
        rw [hfee.circulating] at hrest
        omega
      · have hother : amountOf coin.toList d = 0 := by
          cases coin with
          | none => rfl
          | some c =>
            cases hcoin c rfl
            simp [amountOf, hd]
        omega

open Bank in
/-- Every message settles. -/
theorem Effect.settled (hs : WellFormed s) (h : Effect config Bank.host sender m s t) :
    ∃ minted, (∀ coin, minted = some coin → m.Mints coin) ∧ Settled sender minted s t := by
  have quiet {K V : Type} {map : RecordMap K V} (hout : Store.SameOutside map.root s t)
      (hne : balances.name ≠ map.name) :
      ∃ minted, (∀ coin, minted = some coin → m.Mints coin) ∧ Settled sender minted s t :=
    ⟨none, by simp, settled_of_sameUnder hs (RecordMap.sameUnder_of_sameOutside hout hne)⟩
  cases h with
  | issue checked new fee minted saved =>
    exact issue_settled hs (.issue checked new fee minted saved)
  | mint named authorized issued positive done =>
    refine ⟨_, ?_, settled_of_mintCoin hs done⟩
    rintro _ ⟨⟩
    exact .mint named (positiveAmount_eq_ok.mp positive).1
  | burn named authorized issued positive done =>
    exact ⟨none, by simp, settled_of_burnCoin hs done⟩
  | issueClass issuer free saved => exact quiet (RecordMap.sameOutside_save saved) (by decide)
  | mintNft signed known issuer free saved =>
    exact quiet (RecordMap.sameOutside_save saved) (by decide)
  | burnNft signed known live allowed deleted =>
    exact quiet (RecordMap.sameOutside_delete deleted) (by decide)
  | sendNft known live checked receiver saved =>
    exact quiet (RecordMap.sameOutside_save saved) (by decide)

/-! ### Records of tokens -/

/-- Every token is recorded under the denom of its subunit and issuer. -/
def TokensNamed (s : Store) : Prop :=
  issuedTokens.Holds (fun d token => d = denomOf token.subunit token.issuer) s

theorem tokensNamed_empty : TokensNamed Store.empty := RecordMap.holds_empty

/-- A message off the wire keeps the tokens named. -/
theorem Effect.tokensNamed {typeUrl : String} {value : Bytes} (hs : TokensNamed s)
    (hm : m.ReadFrom typeUrl value) (h : Effect config Bank.host sender m s t) : TokensNamed t := by
  by_cases hmap : m.mapName? = some issuedTokens.name
  · obtain ⟨m, rfl⟩ := eq_issue_of_mapName? hmap
    cases h with
    | @issue _ _ _ _ v _ _ _ checked new fee minted saved =>
      cases ensureNoSupply_store new
      have hout := ((chargeFee_writesBalances config .coreum sender).of_runs fee).trans
        ((mintInitial_writesBalances _ m).of_runs minted)
      have hv : TokensNamed v := RecordMap.Holds.congr hs
        (RecordMap.sameUnder_of_sameOutside hout (by decide))
      have hwords := IssueToken.numbersAreWords_decode hm.2
      exact hv.save (readsBack_issuedToken hwords) rfl saved
  · exact RecordMap.Holds.congr hs (h.sameUnder (by decide) hmap)

/-- A denom of two parts names its issuer behind the separator. -/
theorem issuerOf_denomOf {subunit issuer found : String}
    (h : issuerOf (denomOf subunit issuer) = .ok found) : found = issuer := by
  unfold issuerOf denomOf at h
  rw [parts_append rfl] at h
  split at h
  · rename_i x y hparts
    injection h with h
    exact h ▸ (parts_append_eq_pair hparts).2
  · cases h

theorem authorize_eq_ok {denom messageSender : String} {action : TokenAction} {u : Unit} :
    authorize sender denom messageSender action = .ok u ↔
      issuerOf denom = .ok sender ∧ messageSender = sender := by
  rw [authorize, Except.bind_eq_ok]
  constructor
  · rintro ⟨issuer, hissuer, h⟩
    split_ifs at h with h1 h2
    exact ⟨by rw [hissuer, not_not.mp h1], (not_not.mp h2).symm⟩
  · rintro ⟨hissuer, rfl⟩
    exact ⟨messageSender, hissuer, by simp⟩

/-- What is minted is a recorded token, and the sender is its issuer. -/
theorem Effect.recorded {typeUrl : String} {value : Bytes} {coin : Coin} (hs : TokensNamed s)
    (hm : m.ReadFrom typeUrl value) (h : Effect config Bank.host sender m s t)
    (hcoin : m.Mints coin) :
    ∃ token, issuedTokens.load? t coin.denom = .ok (some token) ∧ token.issuer = sender := by
  cases h with
  | @issue m _ _ _ _ _ _ _ checked new fee minted saved =>
    cases hcoin
    have hback := readsBack_issuedToken (IssueToken.numbersAreWords_decode hm.2)
    exact ⟨.ofMessage m, RecordMap.load?_save hback saved, (creator_of_checkNewDenom checked).2⟩
  | mint named authorized issued positive done =>
    cases hcoin with
    | mint named' read =>
      cases named.symm.trans named'
      obtain ⟨token, hload⟩ := RecordMap.Holds.load?_of_has hs issued
      have hname := (RecordMap.Holds.of_load? hs hload).2
      have hissuer := (authorize_eq_ok.mp authorized).1
      rw [hname] at hissuer
      have hframe : Store.SameUnder issuedTokens.root _ t :=
        RecordMap.sameUnder_of_sameOutside ((Bank.mint_writesBalances _).of_runs done) (by decide)
      exact ⟨token, by rw [RecordMap.load?_congr hframe, hload], (issuerOf_denomOf hissuer).symm⟩
  | burn | issueClass | mintNft | burnNft | sendNft => cases hcoin

end TokenLedger.Factory.Coreum
