import TokenLedger.Proofs.Bank.Adjustments
import TokenLedger.Proofs.Chain.Run
import TokenLedger.Proofs.Json.Numerals

/-!
# Events tell the truth

The event of a mint or a burn is put together from the message, apart from the order that is given
to the bank.  Still it names the account whose balance has changed, the denom and the amount as the
bank has booked them, in both factories.  The amount is printed anew, so that leading zeros of the
message are gone.
-/

namespace TokenLedger

/-- The last event of a response is of a type and has some attributes. -/
def Response.Tells (r : Response) (type : String) (told : List (String × String)) : Prop :=
  ∃ e, r.events.getLast? = some e ∧ e.type = type ∧
    ∀ pair ∈ told, e.attributes.lookup pair.1 = some pair.2

theorem Decimal.head?_repr_ne_zero {n : Nat} (h : n ≠ 0) : n.repr.toList.head? ≠ some '0' := by
  rw [Nat.repr_eq_ofList_toDigits, String.toList_ofList]
  exact head?_toDigits_ne_zero h

namespace Factory

open Bank

variable {config : FactoryConfig} {s t : Store} {a : String} {coin : WireCoin} {r : Response}

/-! ### Mints -/

/-- A payload asks to mint a coin for a recipient, which is empty where nobody is named. -/
inductive MintPayload : Variant → String → Bytes → WireCoin → String → Prop
  | denom {value : Bytes} {m : MintDenom} {coin : WireCoin}
      (decoded : MintDenom.codec.decode value = .ok m) (named : m.amount = some coin) :
      MintPayload .generic MintDenom.typeUrl value coin m.mintToAddress
  | token {value : Bytes} {m : MintToken} {coin : WireCoin}
      (decoded : MintToken.codec.decode value = .ok m) (named : m.coin = some coin) :
      MintPayload .coreum MintToken.typeUrl value coin m.recipient

/-- A coin was minted for an account: the balance of the account is the one record that has changed,
and the response tells who has got how much. -/
structure MintTold (recipient : String) (coin : WireCoin) (n : Nat) (r : Response) (s t : Store) :
    Prop where
  read : Decimal.read? coin.amount = some n
  positive : 1 ≤ n
  adjusted : Adjusted recipient coin.denom n s t
  told : r.Tells "tf_mint" [("recipient", recipient), ("denom", coin.denom), ("amount", n.repr)]
  canonical : n.repr.toList.head? ≠ some '0'

theorem mintTold_of_mintCoin {recipient : String} {n : Nat} (hs : WellFormed s)
    (positive : positiveAmount coin.amount = .ok n)
    (done : (mintCoin Bank.host recipient ⟨coin.denom, n⟩).Runs s r t) {answer : Response}
    (told : answer.Tells "tf_mint"
      [("recipient", recipient), ("denom", coin.denom), ("amount", n.repr)]) :
    MintTold recipient coin n answer s t := by
  obtain ⟨hread, hpos⟩ := positiveAmount_eq_ok.mp positive
  obtain ⟨-, hadjusted⟩ := mintCoin_adjusted hs (Int.natCast_nonneg n) done
  exact ⟨(readAmount_eq_ok.mp hread).1, Nat.pos_of_ne_zero hpos, hadjusted, told,
    Decimal.head?_repr_ne_zero hpos⟩

theorem Generic.mint_told {m : MintDenom} (hs : WellFormed s) (named : m.amount = some coin)
    (h : (Generic.mint config Bank.host a m).Runs s r t) :
    ∃ n, MintTold (orElse m.mintToAddress a) coin n r s t := by
  obtain ⟨coin', n, minted, named', authorized, -, positive, done, rfl⟩ := Generic.mint_runs.mp h
  obtain rfl := Option.some.inj (named.symm.trans named')
  -- the event names the sender of the message, who is the sender of the transaction
  obtain ⟨-, -, rfl⟩ := Generic.authorize_eq_ok.mp authorized
  exact ⟨n, mintTold_of_mintCoin hs positive done ⟨_, rfl, rfl, by simp [List.lookup_cons]⟩⟩

theorem Coreum.mint_told {m : MintToken} (hs : WellFormed s) (named : m.coin = some coin)
    (h : (Coreum.mint Bank.host a m).Runs s r t) :
    ∃ n, MintTold (orElse m.recipient a) coin n r s t := by
  obtain ⟨coin', n, minted, named', authorized, -, positive, done, rfl⟩ := Coreum.mint_runs.mp h
  obtain rfl := Option.some.inj (named.symm.trans named')
  obtain ⟨-, rfl⟩ := Coreum.authorize_eq_ok.mp authorized
  exact ⟨n, mintTold_of_mintCoin hs positive done
    ⟨_, List.getLast?_concat, rfl, by simp [List.lookup_cons]⟩⟩

/-! ### Burns -/

/-- A payload asks to burn a coin, whomever it names to burn it from. -/
inductive BurnPayload : Variant → String → Bytes → WireCoin → Prop
  | denom {value : Bytes} {m : BurnDenom} {coin : WireCoin}
      (decoded : BurnDenom.codec.decode value = .ok m) (named : m.amount = some coin) :
      BurnPayload .generic BurnDenom.typeUrl value coin
  | token {value : Bytes} {m : BurnToken} {coin : WireCoin}
      (decoded : BurnToken.codec.decode value = .ok m) (named : m.coin = some coin) :
      BurnPayload .coreum BurnToken.typeUrl value coin

/-- A coin of an account was burnt: the balance of the account is the one record that has changed,
and the response tells whose coin it was and how much. -/
structure BurnTold (a : String) (coin : WireCoin) (n : Nat) (r : Response) (s t : Store) :
    Prop where
  read : Decimal.read? coin.amount = some n
  positive : 1 ≤ n
  adjusted : Adjusted a coin.denom (-n) s t
  told : r.Tells "tf_burn" [("burn_from_address", a), ("amount", n.repr)]

theorem burnTold_of_burnCoin {n : Nat} (hs : WellFormed s)
    (positive : positiveAmount coin.amount = .ok n)
    (done : (burnCoin Bank.host a ⟨coin.denom, n⟩).Runs s r t) {answer : Response}
    (told : answer.Tells "tf_burn" [("burn_from_address", a), ("amount", n.repr)]) :
    BurnTold a coin n answer s t := by
  obtain ⟨hread, hpos⟩ := positiveAmount_eq_ok.mp positive
  obtain ⟨-, hadjusted⟩ := burnCoin_adjusted hs (Int.natCast_nonneg n) done
  exact ⟨(readAmount_eq_ok.mp hread).1, Nat.pos_of_ne_zero hpos, hadjusted, told⟩

theorem Generic.burn_told {m : BurnDenom} (hs : WellFormed s) (named : m.amount = some coin)
    (h : (Generic.burn config Bank.host a m).Runs s r t) : ∃ n, BurnTold a coin n r s t := by
  obtain ⟨coin', n, burned, named', -, positive, done, rfl⟩ := Generic.burn_inv h
  obtain rfl := Option.some.inj (named.symm.trans named')
  exact ⟨n, burnTold_of_burnCoin hs positive done ⟨_, rfl, rfl, by simp [List.lookup_cons]⟩⟩

theorem Coreum.burn_told {m : BurnToken} (hs : WellFormed s) (named : m.coin = some coin)
    (h : (Coreum.burn Bank.host a m).Runs s r t) : ∃ n, BurnTold a coin n r s t := by
  obtain ⟨coin', n, burned, named', -, -, positive, done, rfl⟩ := Coreum.burn_inv h
  obtain rfl := Option.some.inj (named.symm.trans named')
  exact ⟨n, burnTold_of_burnCoin hs positive done
    ⟨_, List.getLast?_concat, rfl, by simp [List.lookup_cons]⟩⟩

end Factory

namespace Chain

open Bank Factory

variable {c : Chain} {variant : Variant} {config : FactoryConfig} {s : Store}
  {a typeUrl recipient : String} {value : Bytes} {coin : WireCoin} {r : Response}
  {calls : List Call}

/-! ### Transactions -/

theorem exists_mintTold (hcore : c.stargate.core = .factory variant config) (hs : WellFormed s)
    (hpayload : MintPayload variant typeUrl value coin recipient)
    (h : (c.executeTx a (.stargate typeUrl value) s).result = .ok r) :
    ∃ n, MintTold (orElse recipient a) coin n r s
      (c.executeTx a (.stargate typeUrl value) s).store := by
  cases hpayload with
  | @denom _ m _ decoded named =>
    have hread : (Generic.Message.mint m).ReadFrom MintDenom.typeUrl value := ⟨rfl, decoded⟩
    exact Generic.mint_told hs named (generic_runs_of_ok hcore hread h)
  | @token _ m _ decoded named =>
    have hread : (Coreum.Message.mint m).ReadFrom MintToken.typeUrl value := ⟨rfl, decoded⟩
    exact Coreum.mint_told hs named (coreum_runs_of_ok hcore hread h)

theorem exists_burnTold (hcore : c.stargate.core = .factory variant config) (hs : WellFormed s)
    (hpayload : BurnPayload variant typeUrl value coin)
    (h : (c.executeTx a (.stargate typeUrl value) s).result = .ok r) :
    ∃ n, BurnTold a coin n r s (c.executeTx a (.stargate typeUrl value) s).store := by
  cases hpayload with
  | @denom _ m _ decoded named =>
    have hread : (Generic.Message.burn m).ReadFrom BurnDenom.typeUrl value := ⟨rfl, decoded⟩
    exact Generic.burn_told hs named (generic_runs_of_ok hcore hread h)
  | @token _ m _ decoded named =>
    have hread : (Coreum.Message.burn m).ReadFrom BurnToken.typeUrl value := ⟨rfl, decoded⟩
    exact Coreum.burn_told hs named (coreum_runs_of_ok hcore hread h)

/-- **Mint and burn events tell the truth.**  After any calls without negative amounts and with
either factory: a mint of a coin that succeeds raises the balance of the named recipient, or of the
sender where nobody is named, and the supply by the amount of the message, which is at least one; a
burn that succeeds lowers the balance of the sender and the supply by it, whomever the message
names.  Nothing else changes in the store, and the last event names that account and prints that
amount without leading zeros. -/
theorem events_tell_truth (c : Chain) (hcore : c.stargate.core = .factory variant config)
    (hcalls : ∀ call ∈ calls, call.NonNegative)
    (h : (c.executeTx a (.stargate typeUrl value) (c.run calls)).result = .ok r)
    (coin : WireCoin) :
    (∀ recipient, MintPayload variant typeUrl value coin recipient →
      ∃ n, MintTold (orElse recipient a) coin n r (c.run calls)
        (c.executeTx a (.stargate typeUrl value) (c.run calls)).store) ∧
    (BurnPayload variant typeUrl value coin →
      ∃ n, BurnTold a coin n r (c.run calls)
        (c.executeTx a (.stargate typeUrl value) (c.run calls)).store) := by
  have hs : WellFormed (c.run calls) := run_wellFormed hcalls
  exact ⟨fun recipient hpayload => exists_mintTold hcore hs hpayload h,
    fun hpayload => exists_burnTold hcore hs hpayload h⟩

/-- The payload that mints seven units of the small token for another account, written with zeros.
-/
def zerosMint : Bytes :=
  [205, 97, 202, 133, 116, 111, 107, 45, 97, 131, 48, 48, 55, 98]

/-- The payload that burns two units of a denom and names another account. -/
def namingBurn : Bytes :=
  [210, 97, 207, 141, 102, 97, 99, 116, 111, 114, 121, 47, 97, 47, 120, 47, 121, 50, 98]

/-- Two accounts with coins of one denom. -/
def slashedAccounts : List Call :=
  [.initBalance "a" [⟨"factory/a/x/y", 5⟩], .initBalance "b" [⟨"factory/a/x/y", 5⟩]]

/-- Zeros in front of an amount are not told, and whom a burn names does not count. -/
theorem events_tell_truth_zeros :
    (∃ r, MintTold "b" ⟨"tok-a", "007"⟩ 7 r ((small .coreum).run smallToken)
      ((small .coreum).executeTx "a" (.stargate MintToken.typeUrl zerosMint)
        ((small .coreum).run smallToken)).store) ∧
    BurnDenom.codec.decode namingBurn = .ok ⟨"a", some ⟨"factory/a/x/y", "2"⟩, "b"⟩ ∧
    ∃ r, BurnTold "a" ⟨"factory/a/x/y", "2"⟩ 2 r ((small .generic).run slashedAccounts)
      ((small .generic).executeTx "a" (.stargate BurnDenom.typeUrl namingBurn)
        ((small .generic).run slashedAccounts)).store := by
  have hburn : BurnDenom.codec.decode namingBurn =
      .ok ⟨"a", some ⟨"factory/a/x/y", "2"⟩, "b"⟩ := rfl
  refine ⟨?_, hburn, ?_⟩
  · obtain ⟨r, hr⟩ := Except.exists_ok_of_toOption (x := ((small .coreum).executeTx "a"
      (.stargate MintToken.typeUrl zerosMint) ((small .coreum).run smallToken)).result)
      (by decide +kernel)
    obtain ⟨hminted, -⟩ := events_tell_truth (small .coreum) rfl smallToken_nonNegative hr
      ⟨"tok-a", "007"⟩
    obtain ⟨n, h⟩ := hminted "b" (.token (m := ⟨"a", some ⟨"tok-a", "007"⟩, "b"⟩) rfl rfl)
    obtain rfl : n = 7 := Option.some.inj (h.read.symm.trans rfl)
    exact ⟨r, h⟩
  · have hcalls : ∀ call ∈ slashedAccounts, call.NonNegative := by
      simp [slashedAccounts, Call.NonNegative, NonNegativeCoins]
    obtain ⟨r, hr⟩ := Except.exists_ok_of_toOption (x := ((small .generic).executeTx "a"
      (.stargate BurnDenom.typeUrl namingBurn) ((small .generic).run slashedAccounts)).result)
      (by decide +kernel)
    obtain ⟨-, hburned⟩ := events_tell_truth (small .generic) rfl hcalls hr
      ⟨"factory/a/x/y", "2"⟩
    obtain ⟨n, h⟩ := hburned (.denom hburn rfl)
    obtain rfl : n = 2 := Option.some.inj (h.read.symm.trans rfl)
    exact ⟨r, h⟩

end Chain

end TokenLedger
