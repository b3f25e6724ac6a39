import TokenLedger.Proofs.Bank.Adjustments
import TokenLedger.Proofs.Chain.Run
import TokenLedger.Proofs.Factory.Faults
import TokenLedger.Proofs.Message

/-!
# What the issue of a denom does

A new denom is paid for, minted if it has an initial amount, and recorded.  That there is none of it
means that nobody has any, so that the initial amount comes to a balance of zero and cannot overflow
it, and that a fee in the new denom itself can only be zero.  Besides the record of the denom, two
balances of the sender are all that changes.
-/

namespace TokenLedger

/-! ### Initial amounts -/

/-- The initial amount of a new token; an empty text stands for zero. -/
def IssueToken.initial? (m : IssueToken) : Option Nat :=
  if m.initialAmount = "" then some 0 else Decimal.read? m.initialAmount

theorem Decimal.value_of_zeros {cs : List Char} (h : ∀ c ∈ cs, c = '0') : value cs = 0 := by
  rw [List.eq_replicate_of_mem h, value, Nat.ofDigitChars_replicate_zero, Nat.mul_zero]

/-- However many zeros stand for zero. -/
theorem IssueToken.initial_of_zeros {m : IssueToken} {n : Nat} (hn : m.initial? = some n)
    (h : ∀ c ∈ m.initialAmount.toList, c = '0') : n = 0 := by
  unfold initial? Decimal.read? at hn
  split_ifs at hn
  · exact (Option.some.inj hn).symm
  · exact (Option.some.inj hn).symm.trans (Decimal.value_of_zeros h)

namespace Factory

open Bank

variable {config : FactoryConfig} {s t u v : Store} {a d : String} {fee : Coin} {n : Nat}
  {record : Set Bytes} {r : Response} {e : Fault}

/-! ### Fees -/

/-- An account has paid a fee. -/
structure Paid (a : String) (fee : Coin) (s t : Store) : Prop where
  short : Key.IsShort a
  nonneg : 0 ≤ fee.amount
  booked : Booked a (fun d => -amountOf [fee] d) s t
  record : Store.SameBut (balances.place (a, fee.denom)) s t

/-- A fee that was charged is the one of the configuration. -/
theorem paid_of_chargeFee {variant : Variant} (hs : WellFormed s)
    (h : (chargeFee Bank.host config variant a).Runs s r t) :
    ∃ fee, Coin.ofText variant config.creationFee = .ok fee ∧ Paid a fee s t := by
  obtain ⟨fee, u, hread, hburn⟩ := Action.runs_bind.mp h
  obtain ⟨hfee, rfl⟩ := Action.runs_ofExcept.mp hread
  have hc := amount_nonneg_of_ofText hfee
  obtain ⟨-, hadjusted⟩ := burnCoin_adjusted hs hc hburn
  obtain ⟨before, hbefore, -⟩ := hadjusted.balance
  exact ⟨fee, hfee, isShort_of_balance hbefore, hc, burnCoin_booked hs hc hburn, hadjusted.record⟩

/-- A fee leaves nothing of a denom of which there was nothing, and takes nothing of it. -/
theorem Paid.nothing_left (h : Paid a fee s t) (hnone : circulating s d = 0) :
    circulating t d = 0 ∧ amountOf [fee] d = 0 := by
  have hleft := h.booked.wellFormed.circulating_nonneg d
  have hcost := amountOf_nonneg (nonNegativeCoins_singleton.mpr h.nonneg) d
  have hcirculating := h.booked.circulating d
  omega

/-! ### New denoms -/

/-- An account has paid a fee for a denom that there was none of, and has all there is of it now.
Besides its two balances only one record may have changed. -/
structure Launched (a d : String) (fee : Coin) (n : Nat) (record : Set Bytes) (s t : Store) :
    Prop where
  fresh : Bank.supply s d = .ok 0
  paid : fee.denom ≠ d → ∃ before, balance s a fee.denom = .ok before ∧
    balance t a fee.denom = .ok (before - fee.amount)
  free : fee.denom = d → fee.amount = 0
  held : balance t a d = .ok n
  supply : Bank.supply t d = .ok n
  frame : Store.SameBut (balances.place (a, fee.denom) ∪ balances.place (a, d) ∪ record) s t

theorem amountOf_singleton_of_ne {coin : Coin} (h : coin.denom ≠ d) : amountOf [coin] d = 0 := by
  simp [amountOf, h.symm]

/-- Minting nothing changes no books. -/
theorem booked_nothing (hs : WellFormed s) (a d : String) :
    Booked a (amountOf [⟨d, (0 : Nat)⟩]) s s := by
  have hzero : amountOf [⟨d, (0 : Nat)⟩] = fun _ => 0 := by
    funext d'
    simp [amountOf]
  rw [hzero]
  exact .refl hs a

/-- Where there is nothing of a denom, nobody has any. -/
theorem held_of_circulating (hs : WellFormed s) (ha : Key.IsShort a)
    (hnone : circulating s d = 0) : held s a d = 0 :=
  held_of_balance ((circulating_eq_zero_iff hs).mp hnone a ha)

theorem launched_of_booked (hs : WellFormed s) (hnone : circulating s d = 0)
    (paid : Paid a fee s u) (minted : Booked a (amountOf [⟨d, n⟩]) u v)
    (mintedAt : Store.SameBut (balances.place (a, d)) u v)
    (saved : Store.SameUnder balances.root v t) (savedAt : Store.SameBut record v t) :
    Launched a d fee n record s t := by
  -- the mint starts from nothing, whether or not the fee was in the new denom
  obtain ⟨hleft, hcost⟩ := paid.nothing_left hnone
  have hu := paid.booked.wellFormed
  have ht : WellFormed t := wellFormed_congr saved minted.wellFormed
  have hminted (d' : String) : Bank.held t a d' = Bank.held u a d' + amountOf [⟨d, n⟩] d' := by
    rw [held_congr saved, minted.held, if_pos rfl]
  have hall : amountOf [⟨d, n⟩] d = n := amountOf_singleton ⟨d, n⟩
  constructor
  case fresh => rw [hs.supply d, hnone]
  case paid =>
    intro hne
    refine ⟨Bank.held s a fee.denom, hs.balance paid.short _, ?_⟩
    rw [ht.balance paid.short, hminted, amountOf_singleton_of_ne hne.symm, paid.booked.held,
      if_pos rfl, amountOf_singleton, Int.add_zero, Int.sub_eq_add_neg]
  case free =>
    rintro rfl
    rw [← amountOf_singleton, hcost]
  case held =>
    rw [ht.balance paid.short, hminted, held_of_circulating hu paid.short hleft, hall, Int.zero_add]
  case supply =>
    rw [ht.supply d, circulating_congr saved, minted.circulating, hleft, hall, Int.zero_add]
  case frame => exact (paid.record.union mintedAt).union savedAt

/-! ### The generic factory -/

namespace Generic

/-- A denom was created: its creator has paid the fee, the denom is recorded, and the response tells
its name. -/
structure Created (config : FactoryConfig) (a : String) (m : CreateDenom) (r : Response)
    (s t : Store) : Prop where
  signed : m.sender = a
  launched : ∃ fee, Coin.ofText .generic config.creationFee = .ok fee ∧
    Launched a (denomOf config m.sender m.subdenom) fee 0
      (createdDenoms.place (denomOf config m.sender m.subdenom)) s t
  recorded : createdDenoms.load? t (denomOf config m.sender m.subdenom) =
    .ok (some ⟨m.sender, m.subdenom⟩)
  answered : ∃ data, r.data = some data ∧ (data.length < 2 ^ 64 →
    CreateDenomResponse.codec.decode data = .ok ⟨denomOf config m.sender m.subdenom⟩)

theorem created_of_runs {m : CreateDenom} (hs : WellFormed s)
    (h : (create config Bank.host a m).Runs s r t) : Created config a m r s t := by
  obtain ⟨s', u, paid, data, checked, new, charged, saved, encoded, rfl⟩ := create_inv h
  obtain ⟨hnone, rfl⟩ := (ensureNoSupply_runs hs).mp new
  obtain ⟨fee, hfee, hpaid⟩ := paid_of_chargeFee hs charged
  have hsaved : Store.SameUnder balances.root u t := RecordMap.sameUnder_save saved (by decide)
  constructor
  case signed => exact (creator_of_checkNewDenom checked).2
  case launched =>
    have hnothing := booked_nothing hpaid.booked.wellFormed a (denomOf config m.sender m.subdenom)
    exact ⟨fee, hfee, launched_of_booked hs hnone hpaid hnothing .rfl hsaved
      (RecordMap.sameBut_save saved)⟩
  case recorded => exact RecordMap.load?_save (readsBack_createdDenom _) saved
  case answered =>
    refine ⟨data, rfl, fun hlength => ?_⟩
    exact Wire.Codec.decode_of_encode (MessageType.createDenomResponse.readsBack_row
      (⟨denomOf config m.sender m.subdenom⟩ : CreateDenomResponse) trivial) encoded hlength

end Generic

/-! ### The Coreum factory -/

namespace Coreum

/-- A token was issued: its issuer has paid the fee and has the initial amount, and the token is
recorded as the message describes it. -/
structure Issued (config : FactoryConfig) (a : String) (m : IssueToken) (s t : Store) : Prop where
  signed : m.issuer = a
  launched : ∃ fee n, Coin.ofText .coreum config.creationFee = .ok fee ∧ m.initial? = some n ∧
    ((∀ c ∈ m.initialAmount.toList, c = '0') → n = 0) ∧
    Launched a (Asset.denomOf m.subunit m.issuer) fee n
      (Asset.issuedTokens.place (Asset.denomOf m.subunit m.issuer)) s t
  recorded : Asset.issuedTokens.load? t (Asset.denomOf m.subunit m.issuer) =
    .ok (some
      { issuer := m.issuer
        symbol := m.symbol
        subunit := m.subunit
        precision := Number.ofInt m.precision
        initialAmount := m.initialAmount
        description := m.description
        features := m.features.map Number.ofInt
        burnRate := m.burnRate
        sendCommissionRate := m.sendCommissionRate
        uri := m.uri
        uriHash := m.uriHash })

/-- The initial amount is what has been minted, which may be nothing. -/
theorem booked_of_mintInitial {m : IssueToken} {events : List Event} (hs : WellFormed s)
    (h : (mintInitial Bank.host d m).Runs s events t) :
    ∃ n, m.initial? = some n ∧ Booked m.issuer (amountOf [⟨d, n⟩]) s t ∧
      Store.SameBut (balances.place (m.issuer, d)) s t := by
  unfold IssueToken.initial?
  rcases mintInitial_inv h with ⟨hnothing, rfl⟩ | ⟨n, minted, hread, hgiven, hmint⟩
  · refine ⟨0, ?_, booked_nothing hs m.issuer d, .rfl⟩
    split_ifs with hempty
    · rfl
    · exact (readAmount_eq_ok.mp (hnothing.resolve_left hempty)).1
  · rw [if_neg hgiven]
    have hc : (0 : Int) ≤ n := Int.natCast_nonneg n
    exact ⟨n, (readAmount_eq_ok.mp hread).1, mintCoin_booked hs hc hmint,
      (mintCoin_adjusted hs hc hmint).2.record⟩

theorem issued_of_runs {m : IssueToken} (hs : WellFormed s) (hm : m.NumbersAreWords)
    (h : (issue config Bank.host a m).Runs s r t) : Issued config a m s t := by
  cases issue_effect h with
  | @issue _ _ s' u v _ _ _ checked new charged minted saved =>
  obtain ⟨-, rfl⟩ := creator_of_checkNewDenom checked
  obtain ⟨hnone, rfl⟩ := (ensureNoSupply_runs hs).mp new
  obtain ⟨fee, hfee, hpaid⟩ := paid_of_chargeFee hs charged
  obtain ⟨n, hn, hminted, hrecord⟩ := booked_of_mintInitial hpaid.booked.wellFormed minted
  have hsaved : Store.SameUnder balances.root v t := RecordMap.sameUnder_save saved (by decide)
  constructor
  case signed => rfl
  case launched =>
    exact ⟨fee, n, hfee, hn, IssueToken.initial_of_zeros hn, launched_of_booked hs hnone hpaid
      hminted hrecord hsaved (RecordMap.sameBut_save saved)⟩
  case recorded => exact RecordMap.load?_save (Asset.readsBack_issuedToken hm) saved

/-! ### No overflow -/

/-- Adding a coin to nothing does not overflow. -/
theorem contained_of_mintCoin {coin : Coin} (hs : WellFormed s)
    (hnone : circulating s coin.denom = 0) (hmax : coin.amount ≤ maxAmount)
    (h : (mintCoin Bank.host a coin).Fails s e) : e.isOverflow = false := by
  rcases Action.fails_bind.mp h with hadd | ⟨_, _, -, hpure⟩
  · rcases Action.fails_bind.mp hadd with hcoin | ⟨_, _, -, hrest⟩
    · rcases addCoin_error_cases (Action.fails_write.mp hcoin) with
        ⟨before, hbefore, hover, -⟩ | hdecode
      · -- the balance was zero, so that the new one is the coin itself
        have hzero := held_of_circulating hs (isShort_of_balance hbefore) hnone
        rw [held_of_balance hbefore] at hzero
        omega
      · exact (Fault.isPlain_of_isDecode hdecode).contained
    · exact absurd hrest Action.not_fails_pure
  · exact absurd hpure Action.not_fails_pure

theorem contained_of_mintInitial {m : IssueToken} (hs : WellFormed s) (hnone : circulating s d = 0)
    (h : (mintInitial Bank.host d m).Fails s e) : e.isOverflow = false := by
  unfold mintInitial at h
  split_ifs at h
  · exact absurd h Action.not_fails_pure
  · rcases Action.fails_bind.mp h with hread | ⟨n, _, hread, hrest⟩
    · exact (isPlain_of_readAmount (Action.fails_ofExcept.mp hread)).contained
    · obtain ⟨hn, rfl⟩ := Action.runs_ofExcept.mp hread
      split_ifs at hrest
      · exact absurd hrest Action.not_fails_pure
      · rcases Action.fails_bind.mp hrest with hmint | ⟨_, _, -, hpure⟩
        · exact contained_of_mintCoin hs hnone (Int.ofNat_le.mpr (readAmount_eq_ok.mp hn).2) hmint
        · exact absurd hpure Action.not_fails_pure

/-- Every step of an issue but the mint contains amounts on any store, and the mint does on a store
with nothing of the denom, which the check in front of the fee has seen to. -/
theorem contained_of_issue {m : IssueToken} (hs : WellFormed s)
    (h : (issue config Bank.host a m).Fails s e) : e.isOverflow = false := by
  simp only [issue, Action.fails_bind, Action.fails_ofExcept, Action.runs_ofExcept,
    Action.fails_write] at h
  rcases h with hchecked | ⟨_, _, ⟨-, rfl⟩, hsubunit | ⟨_, _, ⟨-, rfl⟩, hsymbol | ⟨_, _, ⟨-, rfl⟩,
    hnew | ⟨_, _, new, hfee | ⟨_, u, charged, hmint | ⟨_, _, -, hsave | ⟨_, _, -,
    hlog | ⟨_, _, -, hanswer⟩⟩⟩⟩⟩⟩⟩⟩
  · exact (isPlain_of_checkNewDenom hchecked).contained
  · exact (isPlain_of_checkAssetName hsubunit).contained
  · exact (isPlain_of_checkAssetName hsymbol).contained
  · exact (ensureNoSupply_failsPlainly _ _ _ hnew).contained
  · exact chargeFee_containsAmounts _ _ _ _ _ hfee
  · obtain ⟨hnone, rfl⟩ := (ensureNoSupply_runs hs).mp new
    obtain ⟨fee, -, hpaid⟩ := paid_of_chargeFee hs charged
    exact contained_of_mintInitial hpaid.booked.wellFormed (hpaid.nothing_left hnone).1 hmint
  · exact (Fault.isPlain_of_isDecode (RecordMap.isDecode_of_save hsave)).contained
  · exact absurd hlog Action.not_fails_log
  · exact absurd hanswer Action.not_fails_pure

end Coreum

end Factory

namespace Chain

open Bank Factory

variable {config : FactoryConfig} {calls : List Call}

/-! ### Transactions -/

/-- **Issuance has an exact effect.**  After any calls without negative amounts: a denom that is
created and a token that is issued cost their sender the fee and nothing else, there was nothing of
the new denom and there is its initial amount now, all of it the sender's, and the record of the
denom is the message's.  Nothing else changes in the store.  A creation is answered with the name of
the denom, and an issue never fails with an overflow. -/
theorem issuance_exact (c : Chain) (hcalls : ∀ call ∈ calls, call.NonNegative) (a : String)
    (value : Bytes) :
    (c.stargate.core = .factory .generic config →
      ∀ m r, CreateDenom.codec.decode value = .ok m →
        (c.executeTx a (.stargate CreateDenom.typeUrl value) (c.run calls)).result = .ok r →
        Generic.Created config a m r (c.run calls)
          (c.executeTx a (.stargate CreateDenom.typeUrl value) (c.run calls)).store) ∧
    (c.stargate.core = .factory .coreum config →
      ∀ m, IssueToken.codec.decode value = .ok m →
        (∀ r, (c.executeTx a (.stargate IssueToken.typeUrl value) (c.run calls)).result = .ok r →
          Coreum.Issued config a m (c.run calls)
            (c.executeTx a (.stargate IssueToken.typeUrl value) (c.run calls)).store) ∧
        ∀ before added d,
          (c.executeTx a (.stargate IssueToken.typeUrl value) (c.run calls)).result ≠
            .error (.invalid (.overflow before added d))) := by
  have hs : WellFormed (c.run calls) := run_wellFormed hcalls
  constructor
  · intro hcore m r decoded h
    have hread : (Generic.Message.create m).ReadFrom CreateDenom.typeUrl value := ⟨rfl, decoded⟩
    exact Generic.created_of_runs hs (generic_runs_of_ok hcore hread h)
  · intro hcore m decoded
    have hread : (Coreum.Message.issue m).ReadFrom IssueToken.typeUrl value := ⟨rfl, decoded⟩
    constructor
    · intro r h
      exact Coreum.issued_of_runs hs (IssueToken.numbersAreWords_decode decoded)
        (coreum_runs_of_ok hcore hread h)
    · intro before added d h
      rw [executeTx_coreum hcore hread] at h
      cases Coreum.contained_of_issue hs h

/-- An account that can pay for a new denom. -/
def smallPurse : List Call := [.initBalance "a" [⟨"uosmo", 10000000⟩]]

/-- A denom is created without any of it, and a token is issued with seven units. -/
theorem issuance_exact_small :
    (∃ r, Generic.Created (.standard .generic) "a" smallDenom r ((small .generic).run smallPurse)
      ((small .generic).executeTx "a" (.stargate CreateDenom.typeUrl smallCreate)
        ((small .generic).run smallPurse)).store) ∧
    Coreum.Issued (.standard .coreum) "a" smallIssued ((small .coreum).run smallAccounts)
      ((small .coreum).run smallToken) ∧
    balance ((small .coreum).run smallToken) "a" "tok-a" = .ok 7 := by
  constructor
  · have hcalls : ∀ call ∈ smallPurse, call.NonNegative := by
      simp [smallPurse, Call.NonNegative, NonNegativeCoins]
    obtain ⟨hcreates, -⟩ := issuance_exact (small .generic) hcalls "a" smallCreate
    obtain ⟨r, hr⟩ := Except.exists_ok_of_toOption (x := ((small .generic).executeTx "a"
      (.stargate CreateDenom.typeUrl smallCreate) ((small .generic).run smallPurse)).result)
      (by decide +kernel)
    exact ⟨r, hcreates rfl smallDenom r rfl hr⟩
  · obtain ⟨-, hissues⟩ := issuance_exact (small .coreum) smallAccounts_nonNegative "a" smallIssue
    obtain ⟨r, hr⟩ := Except.exists_ok_of_toOption (x := ((small .coreum).executeTx "a"
      (.stargate IssueToken.typeUrl smallIssue) ((small .coreum).run smallAccounts)).result)
      (by decide +kernel)
    obtain ⟨hissued, -⟩ := hissues rfl smallIssued rfl
    have h := hissued r hr
    obtain ⟨fee, n, -, hn, -, hlaunched⟩ := h.launched
    obtain rfl : n = 7 := Option.some.inj (hn.symm.trans rfl)
    exact ⟨h, hlaunched.held⟩

end Chain

end TokenLedger
