import TokenLedger.Proofs.Bank.Totals
import TokenLedger.Proofs.Factory.Generic
import TokenLedger.Proofs.Factory.Nfts

/-!
# When a mint succeeds

A mint succeeds exactly if it can have its effect.  The recorded issuer of a token can mint it
unless the denom has a dash besides the one in front of the issuer (`mint_effect_iff`), and the
recorded issuer of a class can mint a new NFT in it unless the id of the class is too long for the
first text of a key (`mintNft_effect_iff`).  Issuing checks neither.  The recorded creator of a
generic denom can mint it, whatever slashes the subdenom has, if the prefix has none, and nobody else
can (`Generic.mint_effect_iff`).
-/

/-! ### Coins -/

namespace TokenLedger.Factory

open Bank

/-- A coin is minted for an account exactly if the account has room for it. -/
theorem exists_mintCoin_runs_iff {s : Store} {recipient d : String} {n : Nat} (hs : WellFormed s)
    (hrecipient : Key.IsShort recipient) :
    (∃ t r, (mintCoin Bank.host recipient ⟨d, n⟩).Runs s r t) ↔
      held s recipient d + n ≤ maxAmount := by
  constructor
  · rintro ⟨t, r, hrun⟩
    have hc : NonNegativeCoins [⟨d, n⟩] :=
      nonNegativeCoins_singleton.mpr (Int.natCast_nonneg n)
    have hroom := (add_runs_iff hs hrecipient hc).mp ⟨t, (mint_runs.mp hrun).2⟩ d
    have htotal : amountOf [⟨d, n⟩] d = n := by simp [amountOf]
    rwa [htotal] at hroom
  · intro hroom
    obtain ⟨t, ht⟩ := exists_mint_runs (hs.balance hrecipient d) hroom
    exact ⟨t, .empty, ht⟩

end TokenLedger.Factory

namespace TokenLedger.Factory.Coreum

open Asset Bank

variable {config : FactoryConfig} {host : Host} {sender d text : String} {s t : Store} {r : Response}
  {token : IssuedToken} {cls : StoredClass} {n : Nat} {held : Int}

/-! ### Effects that are reached -/

theorem mint_runs_iff {m : MintToken} :
    (∃ r, (mint host sender m).Runs s r t) ↔ Effect config host sender (.mint m) s t := by
  constructor
  · rintro ⟨r, hrun⟩
    exact mint_effect hrun
  · intro h
    cases h with
    | mint named authorized issued positive done =>
      exact ⟨_, mint_runs.mpr ⟨_, _, _, named, authorized, issued, positive, done, rfl⟩⟩

theorem issueClass_runs_iff {m : IssueClass} :
    (∃ r, (issueClass sender m).Runs s r t) ↔ Effect config host sender (.issueClass m) s t := by
  constructor
  · rintro ⟨r, hrun⟩
    exact issueClass_effect hrun
  · intro h
    cases h with
    | issueClass issuer free saved =>
      simp only [issueClass, Action.runs_bind, Action.runs_require, Action.runs_read,
        Action.runs_write, Action.runs_log, Action.runs_pure, decide_eq_true_eq, Bool.not_eq_true']
      exact ⟨_, (), _, ⟨issuer, rfl⟩, _, _, ⟨free, rfl⟩, (), _, ⟨rfl, rfl⟩, (), _, saved, (), _,
        rfl, rfl, rfl⟩

theorem mintNft_runs_iff {m : MintNft} :
    (∃ r, (mintNft sender m).Runs s r t) ↔ Effect config host sender (.mintNft m) s t := by
  constructor
  · rintro ⟨r, hrun⟩
    exact mintNft_effect hrun
  · intro h
    cases h with
    | mintNft signed known issuer free saved =>
      simp only [mintNft, Action.runs_bind, Action.runs_require, Action.runs_read,
        Action.runs_write, Action.runs_log, Action.runs_pure, decide_eq_true_eq, Bool.not_eq_true',
        classToMint_eq_ok]
      exact ⟨_, (), _, ⟨signed, rfl⟩, _, _, ⟨known, rfl⟩, (), _, ⟨issuer, rfl⟩, _, _, ⟨free, rfl⟩,
        (), _, ⟨rfl, rfl⟩, (), _, saved, (), _, rfl, rfl, rfl⟩

/-! ### Tokens -/

/-- The issuer can be told from a denom if the dash in front of the issuer is the only one. -/
theorem issuerOf_denomOf_iff {subunit issuer found : String} :
    issuerOf (denomOf subunit issuer) = .ok found ↔
      found = issuer ∧ '-' ∉ subunit.toList ∧ '-' ∉ issuer.toList := by
  constructor
  · intro h
    have htwo : (parts '-' (subunit ++ "-" ++ issuer)).length = 2 := by
      unfold issuerOf denomOf at h
      split at h
      · rename_i hparts
        rw [hparts]
        rfl
      · cases h
    exact ⟨issuerOf_denomOf h, (length_parts_append_eq_two_iff rfl subunit issuer).mp htwo⟩
  · rintro ⟨rfl, hsubunit, hissuer⟩
    unfold issuerOf denomOf
    rw [parts_append rfl, parts_of_notMem hsubunit, parts_of_notMem hissuer]
    rfl

/-- Whoever mints a denom has found the only dash in it. -/
theorem noDash_of_mint {m : MintToken} {subunit issuer : String}
    (h : Effect config host sender (.mint m) s t)
    (hm : m.coin = some ⟨denomOf subunit issuer, text⟩) :
    '-' ∉ subunit.toList ∧ '-' ∉ issuer.toList := by
  cases h with
  | mint named authorized issued positive done =>
    cases named.symm.trans hm
    exact (issuerOf_denomOf_iff.mp (authorize_eq_ok.mp authorized).1).2

/-- The issuer of a token mints some of it, while the balance fits in 128 bits, exactly if neither
the subunit nor the issuer has a dash. -/
theorem mint_effect_iff (hs : TokensNamed s) (hd : issuedTokens.load? s d = .ok (some token))
    (hread : readAmount text "amount" = .ok n) (hpos : n ≠ 0)
    (hheld : balance s token.issuer d = .ok held) (hmax : held + n ≤ maxAmount) :
    (∃ t, Effect config Bank.host token.issuer (.mint ⟨token.issuer, some ⟨d, text⟩, ""⟩) s t) ↔
      '-' ∉ token.subunit.toList ∧ '-' ∉ token.issuer.toList := by
  obtain ⟨-, rfl⟩ := RecordMap.Holds.of_load? hs hd
  constructor
  · rintro ⟨t, h⟩
    exact noDash_of_mint h rfl
  · intro hdashes
    have hissuer := issuerOf_denomOf_iff.mpr ⟨rfl, hdashes⟩
    have hpositive := positiveAmount_eq_ok.mpr ⟨hread, hpos⟩
    obtain ⟨t, ht⟩ := exists_mint_runs hheld hmax
    exact ⟨t, .mint rfl (authorize_eq_ok.mpr ⟨hissuer, rfl⟩) (RecordMap.has_of_load? hd) hpositive
      ht⟩

/-! ### NFTs -/

/-- A class is issued by the sender under any id that is free. -/
theorem exists_issueClass_effect {m : IssueClass} (hissuer : m.issuer = sender)
    (hfree : classes.load? s (classIdOf m.symbol m.issuer) = .ok none) :
    ∃ t, Effect config host sender (.issueClass m) s t := by
  obtain ⟨b, hk⟩ := RecordMap.fullKey_of_load? hfree
  exact ⟨_, .issueClass hissuer (RecordMap.has_of_load?_eq_none hfree)
    (RecordMap.save_eq_ok.mpr ⟨b, hk, rfl⟩)⟩

/-- Whoever mints an NFT has found a key for it. -/
theorem isShort_of_mintNft {m : MintNft} (h : Effect config host sender (.mintNft m) s t) :
    Key.IsShort m.classId := by
  cases h with
  | mintNft signed known issuer free saved =>
    obtain ⟨b, hk, -⟩ := RecordMap.save_eq_ok.mp saved
    exact (RecordMap.exists_fullKey_pair_iff rfl).mp ⟨b, hk⟩

/-- The issuer of a class mints an NFT that is not live exactly if the id of the class is short
enough for a key. -/
theorem mintNft_effect_iff {m : MintNft} (hs : NftsPlaced s)
    (hcls : classes.load? s m.classId = .ok (some cls)) (hsender : m.sender = cls.issuer)
    (hfree : ∀ n, nfts.load? s (m.classId, m.id) ≠ .ok (some n)) :
    (∃ t, Effect config host cls.issuer (.mintNft m) s t) ↔ Key.IsShort m.classId := by
  constructor
  · rintro ⟨t, h⟩
    exact isShort_of_mintNft h
  · intro hshort
    have hkey := (RecordMap.exists_fullKey_pair_iff (m := nfts) (y := m.id) rfl).mpr hshort
    obtain ⟨b, hk⟩ := hkey
    rcases RecordMap.Holds.cases_load? hs hk with ⟨-, hnone⟩ | ⟨n, -, hn, -⟩
    · exact ⟨_, .mintNft hsender hcls rfl (RecordMap.has_of_load?_eq_none hnone)
        (RecordMap.save_eq_ok.mpr ⟨b, hk, rfl⟩)⟩
    · exact absurd hn (hfree n)

end TokenLedger.Factory.Coreum

/-! ### Generic denoms -/

namespace TokenLedger.Factory.Generic

open Bank

variable {config : FactoryConfig} {host : Host} {sender d text : String} {s t : Store}
  {m : MintDenom}

theorem mint_runs_iff :
    (∃ r, (mint config host sender m).Runs s r t) ↔ Effect config host sender (.mint m) s t := by
  constructor
  · rintro ⟨r, hrun⟩
    exact mint_effect hrun
  · intro h
    cases h with
    | mint named authorized created positive done =>
      exact ⟨_, mint_runs.mpr ⟨_, _, _, named, authorized, created, positive, done, rfl⟩⟩

/-- Behind a prefix without slashes the creator is the second part of a denom. -/
theorem authorize_denomOf_iff {creator subdenom messageSender : String} {action : TokenAction}
    (hnoslash : '/' ∉ config.denomPrefix.toList) (hcreator : '/' ∉ creator.toList) :
    authorize config sender (denomOf config creator subdenom) messageSender action = .ok () ↔
      creator = sender ∧ messageSender = sender := by
  constructor
  · intro h
    exact ⟨creator_of_authorize hcreator h, (authorize_eq_ok.mp h).2.2⟩
  · rintro ⟨rfl, hsender⟩
    rw [authorize_eq_ok, parts_denomOf hcreator, parts_of_notMem hnoslash]
    exact ⟨Or.inr rfl, rfl, hsender⟩

/-- A recorded denom is minted and burnt by its recorded creator alone. -/
theorem authorize_iff_of_load? {record : CreatedDenom} {messageSender : String}
    {action : TokenAction} (hnamed : DenomsNamed config s)
    (hnoslash : '/' ∉ config.denomPrefix.toList)
    (hload : createdDenoms.load? s d = .ok (some record)) :
    authorize config sender d messageSender action = .ok () ↔
      record.creator = sender ∧ messageSender = sender := by
  obtain ⟨rfl, hslash⟩ := (RecordMap.Holds.of_load? hnamed hload).2
  exact authorize_denomOf_iff hnoslash hslash

/-- A mint reaches its effect exactly if it is sent by the recorded creator in their own name, the
amount is a positive number, and the recipient has room for it. -/
theorem mint_effect_iff (hs : WellFormed s) (hnamed : DenomsNamed config s)
    (hnoslash : '/' ∉ config.denomPrefix.toList) (hm : m.amount = some ⟨d, text⟩)
    (hrecipient : Key.IsShort (orElse m.mintToAddress m.sender)) :
    (∃ t, Effect config Bank.host sender (.mint m) s t) ↔
      (∃ record, createdDenoms.load? s d = .ok (some record) ∧ record.creator = sender) ∧
        m.sender = sender ∧ ∃ n, Decimal.read? text = some n ∧ 1 ≤ n ∧ n ≤ maxAmount ∧
          held s (orElse m.mintToAddress m.sender) d + n ≤ maxAmount := by
  constructor
  · rintro ⟨t, h⟩
    cases h with
    | @mint _ _ n r _ _ named authorized created positive done =>
      cases named.symm.trans hm
      obtain ⟨record, hload⟩ := RecordMap.Holds.load?_of_has hnamed created
      obtain ⟨hcreator, hsender⟩ := (authorize_iff_of_load? hnamed hnoslash hload).mp authorized
      obtain ⟨hread, hpos⟩ := positiveAmount_eq_ok.mp positive
      obtain ⟨htext, hmax⟩ := readAmount_eq_ok.mp hread
      have hroom := (exists_mintCoin_runs_iff hs hrecipient).mp ⟨t, r, done⟩
      exact ⟨⟨record, hload, hcreator⟩, hsender, n, htext, by omega, hmax, hroom⟩
  · rintro ⟨⟨record, hload, hcreator⟩, hsender, n, htext, hpos, hmax, hroom⟩
    have hauthorized : authorize config sender d m.sender .mint = .ok () :=
      (authorize_iff_of_load? hnamed hnoslash hload).mpr ⟨hcreator, hsender⟩
    have hpositive : positiveAmount text = .ok n :=
      positiveAmount_eq_ok.mpr ⟨readAmount_eq_ok.mpr ⟨htext, hmax⟩, by omega⟩
    obtain ⟨t, r, hrun⟩ := (exists_mintCoin_runs_iff hs hrecipient).mpr hroom
    exact ⟨t, .mint hm hauthorized (RecordMap.has_of_load? hload) hpositive hrun⟩

end TokenLedger.Factory.Generic
