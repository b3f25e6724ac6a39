import TokenLedger.Proofs.Chain.Identifiers
import TokenLedger.Proofs.Chain.Inflation
import TokenLedger.Proofs.Factory.Minting

/-!
# The creator alone mints a generic denom

The factory lets through whoever is named in a denom, if the denom is recorded, and never reads who
is recorded as its creator.  But whoever is recorded has created the denom in one of the calls, and
stays recorded (`issuer?_iff_issuedIn`), and the denom names nobody else.
-/

namespace TokenLedger.Chain

open Bank Factory

variable {c : Chain} {variant : Variant} {config : FactoryConfig} {id : Identifier}
  {s : Store} {a d text typeUrl : String} {value : Bytes} {calls : List Call} {m : MintDenom}

/-! ### Issuances in a run -/

/-- One of some calls is a transaction of an account that succeeds and issues an identifier. -/
def IssuedIn (c : Chain) (config : FactoryConfig) (variant : Variant) (calls : List Call)
    (a : String) (id : Identifier) : Prop :=
  ∃ before typeUrl value after, calls = before ++ .tx a (.stargate typeUrl value) :: after ∧
    Issues config variant typeUrl value id ∧
    ∃ r, (c.executeTx a (.stargate typeUrl value) (c.run before)).result = .ok r

theorem IssuedIn.append (h : c.IssuedIn config variant calls a id) (more : List Call) :
    c.IssuedIn config variant (calls ++ more) a id := by
  obtain ⟨before, typeUrl, value, after, rfl, hissues⟩ := h
  exact ⟨before, typeUrl, value, after ++ more, by simp, hissues⟩

/-- A call leaves the issuer of an identifier as it is, or it is a transaction that issues the
identifier. -/
theorem call_issuer?_eq_or_issues (hcore : c.stargate.core = .factory variant config)
    (s : Store) (call : Call) (id : Identifier) :
    issuer? (c.call s call) variant id = issuer? s variant id ∨
      ∃ a typeUrl value, call = .tx a (.stargate typeUrl value) ∧
        Issues config variant typeUrl value id ∧
        ∃ r, (c.executeTx a (.stargate typeUrl value) s).result = .ok r := by
  rcases call_stargate_cases c s call with hout | ⟨a, typeUrl, value, r, rfl, hrun⟩
  · exact Or.inl (issuer?_of_sameOutside hout id)
  · have hresult : (c.executeTx a (.stargate typeUrl value) s).result = .ok r := by
      rw [executeTx_stargate]
      exact hrun.1
    rw [hcore] at hrun
    exact (issuer?_eq_or_issues hrun id).imp_right
      fun hissues => ⟨a, typeUrl, value, rfl, hissues, r, hresult⟩

/-- Whoever is recorded as an issuer has issued the identifier in one of the calls. -/
theorem issuedIn_of_issuer? (hcore : c.stargate.core = .factory variant config)
    (h : issuer? (c.run calls) variant id = .ok (some a)) :
    c.IssuedIn config variant calls a id := by
  -- the last call has either changed the issuer or left the one that the calls before it recorded
  induction calls using List.reverseRecOn with
  | nil =>
    have hnobody : IssuersSpelt config variant ∅ .empty := issuersSpelt_empty
    exact absurd (hnobody id a h).1 (Set.notMem_empty a)
  | append_singleton calls call ih =>
    rw [run_append] at h
    rcases call_issuer?_eq_or_issues hcore (c.run calls) call id with
      hsame | ⟨b, typeUrl, value, rfl, hissues, r, hresult⟩
    · exact (ih (hsame ▸ h)).append [call]
    · have hissuer := issuer?_of_issues hcore hissues hresult
      obtain rfl : b = a := Option.some.inj (Except.ok.inj (hissuer.symm.trans h))
      exact ⟨calls, typeUrl, value, [], rfl, hissues, r, hresult⟩

theorem sentFrom_univ (call : Call) : call.SentFrom Set.univ := by
  cases call <;> exact trivial

/-- The creator that is recorded of a denom is the account that has created it in one of the
calls. -/
theorem issuer?_iff_issuedIn (hcore : c.stargate.core = .factory .generic config) :
    issuer? (c.run calls) .generic id = .ok (some a) ↔ c.IssuedIn config .generic calls a id := by
  constructor
  · exact issuedIn_of_issuer? hcore
  · rintro ⟨before, typeUrl, value, after, rfl, hissues, r, hresult⟩
    have hapart : (Set.univ : Set String).Pairwise (Apart .generic) := fun _ _ _ _ _ => trivial
    have hspelt : IssuersSpelt config .generic Set.univ
        (c.call (c.run before) (.tx a (.stargate typeUrl value))) :=
      call_issuersSpelt hcore trivial (run_issuersSpelt hcore fun call _ => sentFrom_univ call)
    rw [run_append]
    show issuer? (c.runFrom (c.call (c.run before) _) after) .generic id = _
    exact runFrom_issuer? hcore hapart (fun call _ => sentFrom_univ call) hspelt
      (issuer?_of_issues hcore hissues hresult)

/-! ### Mints -/

/-- A mint succeeds exactly if it reaches its effect. -/
theorem mintDenom_ok_iff (hcore : c.stargate.core = .factory .generic config)
    (decoded : MintDenom.codec.decode value = .ok m) :
    (∃ r, (c.executeTx a (.stargate MintDenom.typeUrl value) s).result = .ok r) ↔
      ∃ t, Generic.Effect config Bank.host a (.mint m) s t := by
  have hread : (Generic.Message.mint m).ReadFrom MintDenom.typeUrl value := ⟨rfl, decoded⟩
  rw [executeTx_generic hcore hread]
  constructor
  · rintro ⟨r, hr⟩
    exact ⟨_, Generic.mint_effect ⟨hr, rfl⟩⟩
  · rintro ⟨t, h⟩
    obtain ⟨r, hrun⟩ := Generic.mint_runs_iff.mpr h
    exact ⟨r, hrun.1⟩

/-- **Exactly the creator mints a generic denom.**  Behind a prefix without slashes and after any calls
without negative amounts, the recorded creator of a denom is the account that has created it in one
of the calls; and a mint of the denom succeeds if and only if it is sent by that account in its own
name, the amount is a positive number of 128 bits, and the balance of the recipient stays within 128
bits. -/
theorem creator_mints (c : Chain) (hcore : c.stargate.core = .factory .generic config)
    (hnoslash : '/' ∉ config.denomPrefix.toList) (hcalls : ∀ call ∈ calls, call.NonNegative)
    (a d : String) :
    ((∃ record, Generic.createdDenoms.load? (c.run calls) d = .ok (some record) ∧
        record.creator = a) ↔ c.IssuedIn config .generic calls a (.denom d)) ∧
    ∀ value m text, MintDenom.codec.decode value = .ok m → m.amount = some ⟨d, text⟩ →
      Key.IsShort (orElse m.mintToAddress m.sender) →
      ((∃ r, (c.executeTx a (.stargate MintDenom.typeUrl value) (c.run calls)).result = .ok r) ↔
        c.IssuedIn config .generic calls a (.denom d) ∧ m.sender = a ∧
          ∃ n held, Decimal.read? text = some n ∧ 1 ≤ n ∧ n ≤ maxAmount ∧
            balance (c.run calls) (orElse m.mintToAddress m.sender) d = .ok held ∧
            held + n ≤ maxAmount) := by
  have hs : WellFormed (c.run calls) := run_wellFormed hcalls
  have hnamed : Generic.DenomsNamed config (c.run calls) := run_recordsNamed hcore calls
  have hcreated : (∃ record, Generic.createdDenoms.load? (c.run calls) d = .ok (some record) ∧
      record.creator = a) ↔ c.IssuedIn config .generic calls a (.denom d) := by
    rw [← issuer?_generic_iff, issuer?_iff_issuedIn hcore]
  refine ⟨hcreated, fun value m text decoded hm hrecipient => ?_⟩
  rw [mintDenom_ok_iff hcore decoded, Generic.mint_effect_iff hs hnamed hnoslash hm hrecipient,
    hcreated]
  simp only [hs.balance hrecipient d, Except.ok.injEq, exists_and_left, exists_eq_left']

/-- The payload that creates a subdenom with a slash. -/
def slashedCreate : Bytes := [197, 97, 131, 120, 47, 121]

/-- The payload that mints five units of it for another account. -/
def slashedMint : Bytes :=
  [210, 97, 207, 141, 102, 97, 99, 116, 111, 114, 121, 47, 97, 47, 120, 47, 121, 53, 98]

/-- The calls that create it. -/
def slashedDenom : List Call :=
  [.initBalance "a" [⟨"uosmo", 10000000⟩], .tx "a" (.stargate CreateDenom.typeUrl slashedCreate)]

/-- The creator of a denom with a slash in the subdenom mints it. -/
theorem creator_mints_slashed :
    '/' ∉ (FactoryConfig.standard .generic).denomPrefix.toList ∧
      (∀ call ∈ slashedDenom, call.NonNegative) ∧
      MintDenom.codec.decode slashedMint = .ok ⟨"a", some ⟨"factory/a/x/y", "5"⟩, "b"⟩ ∧
      Key.IsShort (orElse "b" "a") ∧
      (small .generic).IssuedIn (.standard .generic) .generic slashedDenom "a"
        (.denom "factory/a/x/y") ∧
      ∃ r, ((small .generic).executeTx "a" (.stargate MintDenom.typeUrl slashedMint)
        ((small .generic).run slashedDenom)).result = .ok r := by
  have hcore : (small .generic).stargate.core = .factory .generic (.standard .generic) := rfl
  have hnoslash : '/' ∉ (FactoryConfig.standard .generic).denomPrefix.toList := by decide
  have hcalls : ∀ call ∈ slashedDenom, call.NonNegative := by
    simp [slashedDenom, Call.NonNegative, Message.NonNegative, NonNegativeCoins]
  have hdecoded : MintDenom.codec.decode slashedMint =
      .ok ⟨"a", some ⟨"factory/a/x/y", "5"⟩, "b"⟩ := rfl
  have hshort : Key.IsShort (orElse "b" "a") := by decide
  have hissues : Issues (.standard .generic) .generic CreateDenom.typeUrl slashedCreate
      (.denom "factory/a/x/y") := .createDenom (m := ⟨"a", "x/y"⟩) rfl
  obtain ⟨r, hr⟩ := Except.exists_ok_of_toOption (x := ((small .generic).executeTx "a"
    (.stargate CreateDenom.typeUrl slashedCreate)
    ((small .generic).run [.initBalance "a" [⟨"uosmo", 10000000⟩]])).result) (by decide +kernel)
  have hissued : (small .generic).IssuedIn (.standard .generic) .generic slashedDenom "a"
      (.denom "factory/a/x/y") := ⟨_, _, _, [], rfl, hissues, r, hr⟩
  have hnone : balance ((small .generic).run slashedDenom) "b" "factory/a/x/y" = .ok 0 :=
    Except.eq_ok_of_toOption (by decide +kernel)
  obtain ⟨-, hmints⟩ := creator_mints (small .generic) hcore hnoslash hcalls "a" "factory/a/x/y"
  refine ⟨hnoslash, hcalls, hdecoded, hshort, hissued, ?_⟩
  rw [hmints slashedMint _ "5" hdecoded rfl hshort]
  exact ⟨hissued, rfl, 5, 0, rfl, by decide, by decide, hnone, by decide⟩

end TokenLedger.Chain
