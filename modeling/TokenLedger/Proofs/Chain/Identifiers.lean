import Mathlib.Data.Set.Pairwise.Basic
import TokenLedger.Proofs.Chain.Classes
import TokenLedger.Proofs.Factory.Identifiers

/-!
# Identifiers in the runs of a chain

Whoever is recorded as an issuer has sent a transaction, and the identifier spells the address.  So
among accounts that are apart nobody issues what another one has issued: the recorded issuer of an
identifier never changes, although a denom without supply may be issued anew, and nobody finds a
class of theirs taken by somebody else.
-/

namespace TokenLedger.Chain

open Bank Factory

variable {c : Chain} {variant : Variant} {config : FactoryConfig} {accounts : Set String}
  {s t : Store} {id : Identifier} {a b typeUrl : String} {value : Bytes} {calls : List Call}

/-- A transaction is sent from one of some accounts. -/
def Call.SentFrom (accounts : Set String) : Call → Prop
  | .tx sender _ => sender ∈ accounts
  | .sudoTx _ | .initBalance _ _ => True

/-- A transaction of an account that succeeds on a store and issues an identifier. -/
def IssuedBy (c : Chain) (config : FactoryConfig) (variant : Variant) (s : Store) (a : String)
    (id : Identifier) : Prop :=
  ∃ typeUrl value r, Issues config variant typeUrl value id ∧
    (c.executeTx a (.stargate typeUrl value) s).result = .ok r

/-- Every recorded issuer is one of the accounts and spelt by what it has issued. -/
def IssuersSpelt (config : FactoryConfig) (variant : Variant) (accounts : Set String) (s : Store) :
    Prop :=
  ∀ id a, issuer? s variant id = .ok (some a) → a ∈ accounts ∧ Spells config variant id a

/-! ### One call -/

/-- A call leaves the issuer of an identifier as it is, or it makes one of the accounts the issuer
of an identifier that spells it. -/
theorem call_issuer?_cases (hcore : c.stargate.core = .factory variant config) {call : Call}
    (hcall : call.SentFrom accounts) (s : Store) (id : Identifier) :
    issuer? (c.call s call) variant id = issuer? s variant id ∨
      ∃ a ∈ accounts, issuer? (c.call s call) variant id = .ok (some a) ∧
        Spells config variant id a := by
  rcases call_stargate_cases c s call with hout | ⟨sender, typeUrl, value, r, rfl, hrun⟩
  · exact Or.inl (issuer?_of_sameOutside hout id)
  · rw [hcore] at hrun
    exact (issuer?_cases hrun id).imp_right fun h => ⟨sender, hcall, h⟩

theorem call_issuersSpelt (hcore : c.stargate.core = .factory variant config) {call : Call}
    (hcall : call.SentFrom accounts) (hs : IssuersSpelt config variant accounts s) :
    IssuersSpelt config variant accounts (c.call s call) := by
  intro id a ha
  rcases call_issuer?_cases hcore hcall s id with hsame | ⟨b, hb, hissuer, hspells⟩
  · rw [hsame] at ha
    exact hs id a ha
  · rw [hissuer] at ha
    obtain rfl := Option.some.inj (Except.ok.inj ha)
    exact ⟨hb, hspells⟩

/-- Among accounts that are apart the issuer of an identifier stays the issuer. -/
theorem call_issuer? (hcore : c.stargate.core = .factory variant config)
    (hapart : accounts.Pairwise (Apart variant)) {call : Call} (hcall : call.SentFrom accounts)
    (hs : IssuersSpelt config variant accounts s) (ha : issuer? s variant id = .ok (some a)) :
    issuer? (c.call s call) variant id = .ok (some a) := by
  rcases call_issuer?_cases hcore hcall s id with hsame | ⟨b, hb, hissuer, hspells⟩
  · rw [hsame, ha]
  · obtain ⟨hmem, hspells'⟩ := hs id a ha
    obtain rfl : a = b := hspells'.eq hspells (hapart hmem hb)
    exact hissuer

/-! ### Runs -/

theorem issuersSpelt_empty : IssuersSpelt config variant accounts .empty := by
  intro id a ha
  cases variant <;> cases id <;> cases ha

theorem run_issuersSpelt (hcore : c.stargate.core = .factory variant config)
    (hcalls : ∀ call ∈ calls, call.SentFrom accounts) :
    IssuersSpelt config variant accounts (c.run calls) :=
  run_keeps issuersSpelt_empty fun call hcall _ hu =>
    call_issuersSpelt hcore (hcalls call hcall) hu

theorem runFrom_issuer? (hcore : c.stargate.core = .factory variant config)
    (hapart : accounts.Pairwise (Apart variant)) (hcalls : ∀ call ∈ calls, call.SentFrom accounts)
    (hs : IssuersSpelt config variant accounts s) (ha : issuer? s variant id = .ok (some a)) :
    issuer? (c.runFrom s calls) variant id = .ok (some a) := by
  have hboth : IssuersSpelt config variant accounts (c.runFrom s calls) ∧
      issuer? (c.runFrom s calls) variant id = .ok (some a) := by
    refine runFrom_keeps (P := fun s => IssuersSpelt config variant accounts s ∧
      issuer? s variant id = .ok (some a)) ⟨hs, ha⟩ fun call hcall u ⟨hu, hau⟩ => ?_
    exact ⟨call_issuersSpelt hcore (hcalls call hcall) hu,
      call_issuer? hcore hapart (hcalls call hcall) hu hau⟩
  exact hboth.2

/-! ### Issuances -/

theorem spells_of_issuedBy (hcore : c.stargate.core = .factory variant config)
    (h : c.IssuedBy config variant s a id) : Spells config variant id a := by
  obtain ⟨typeUrl, value, r, hissues, hresult⟩ := h
  have hrun := execute_runs_of_ok hresult
  rw [execute_stargate, hcore] at hrun
  exact (issued_of_issues hissues hrun).1

/-- Whoever issues an identifier is its issuer from then on. -/
theorem issuer?_of_issues (hcore : c.stargate.core = .factory variant config) {r : Response}
    (hissues : Issues config variant typeUrl value id)
    (hresult : (c.executeTx a (.stargate typeUrl value) s).result = .ok r) :
    issuer? (c.call s (.tx a (.stargate typeUrl value))) variant id = .ok (some a) := by
  have hrun := execute_runs_of_ok hresult
  rw [execute_stargate, hcore] at hrun
  exact (issued_of_issues hissues hrun).2

/-- A class that is refused as existing was issued by the same account. -/
theorem issuer?_of_classExists {id refused : String}
    (hcore : c.stargate.core = .factory variant config)
    (hapart : accounts.Pairwise (Apart variant)) (hcalls : ∀ call ∈ calls, call.SentFrom accounts)
    (ha : a ∈ accounts) (hissues : Issues config variant typeUrl value (.nftClass id))
    (h : (c.executeTx a (.stargate typeUrl value) (c.run calls)).result =
      .error (.invalid (.classExists refused))) :
    issuer? (c.run calls) variant (.nftClass id) = .ok (some a) := by
  generalize hid : Identifier.nftClass id = identifier at hissues
  cases hissues with
  | createDenom => cases hid
  | issueToken => cases hid
  | @issueClass _ m decoded =>
    obtain rfl := Identifier.nftClass.inj hid
    have hread : (Coreum.Message.issueClass m).ReadFrom IssueClass.typeUrl value := ⟨rfl, decoded⟩
    rw [executeTx_coreum hcore hread] at h
    have hfails : (Coreum.issueClass a m).Fails (c.run calls) (.invalid (.classExists refused)) := h
    obtain ⟨rfl, hhas⟩ := Coreum.has_of_classExists hfails
    obtain ⟨cls, hcls⟩ := RecordMap.Holds.load?_of_has (run_classesNamed hcore calls) hhas
    have hissuer : issuer? (c.run calls) .coreum (.nftClass (Asset.classIdOf m.symbol m.issuer)) =
        .ok (some cls.issuer) := by
      simp only [issuer?, hcls]
      rfl
    obtain ⟨hmem, hspells⟩ := run_issuersSpelt hcore hcalls _ _ hissuer
    rw [hissuer, hspells.eq .nftClass (hapart hmem ha)]

/-- **Identifiers of different issuers are different**, among accounts that are apart.  No two
accounts issue the same identifier; whatever the accounts send, the recorded issuer of an identifier
stays its issuer; and an account finds its class taken only by itself. -/
theorem identifiers_apart (c : Chain) (hcore : c.stargate.core = .factory variant config)
    (hapart : accounts.Pairwise (Apart variant)) :
    (∀ a ∈ accounts, ∀ b ∈ accounts, ∀ s t id,
      c.IssuedBy config variant s a id → c.IssuedBy config variant t b id → a = b) ∧
    (∀ calls more, (∀ call ∈ calls ++ more, call.SentFrom accounts) → ∀ id a,
      issuer? (c.run calls) variant id = .ok (some a) →
        issuer? (c.run (calls ++ more)) variant id = .ok (some a)) ∧
    ∀ calls, (∀ call ∈ calls, call.SentFrom accounts) → ∀ a ∈ accounts,
      ∀ typeUrl value id refused, Issues config variant typeUrl value (.nftClass id) →
        (c.executeTx a (.stargate typeUrl value) (c.run calls)).result =
          .error (.invalid (.classExists refused)) →
        issuer? (c.run calls) variant (.nftClass id) = .ok (some a) := by
  refine ⟨?_, ?_, ?_⟩
  · intro a ha b hb s t id hissued hissued'
    exact (spells_of_issuedBy hcore hissued).eq (spells_of_issuedBy hcore hissued') (hapart ha hb)
  · intro calls more hcalls id a hissuer
    obtain ⟨hfirst, hmore⟩ := List.forall_mem_append.mp hcalls
    rw [run_append]
    exact runFrom_issuer? hcore hapart hmore (run_issuersSpelt hcore hfirst) hissuer
  · intro calls hcalls a ha typeUrl value id refused hissues hrefused
    exact issuer?_of_classExists hcore hapart hcalls ha hissues hrefused

theorem apart_small : ({"a", "b"} : Set String).Pairwise (Apart .coreum) := by
  have hlength {a b front : String} (h : a = front ++ "-" ++ b) : b.length < a.length := by
    rw [h, String.length_append, String.length_append]
    have hdash : "-".length = 1 := rfl
    omega
  have hnot {a b : String} (h : a.length = b.length) : ¬ EndsIn a b := by
    rintro ⟨front, hends⟩
    have hlt := hlength hends
    omega
  rintro a (rfl | rfl) b (rfl | rfl) hne
  · exact absurd rfl hne
  · exact ⟨hnot rfl, hnot rfl⟩
  · exact ⟨hnot rfl, hnot rfl⟩
  · exact absurd rfl hne

/-- A class stays with its issuer when another account uses its symbol. -/
theorem identifiers_apart_art :
    ({"a", "b"} : Set String).Pairwise (Apart .coreum) ∧
      issuer? ((small .coreum).run (smallGallery ++
        [.tx "b" (.stargate IssueClass.typeUrl otherClass)])) .coreum (.nftClass "art-a") =
          .ok (some "a") := by
  obtain ⟨-, hstays, -⟩ := identifiers_apart (small .coreum) rfl apart_small
  have hissues : Issues (.standard .coreum) .coreum IssueClass.typeUrl smallClass
      (.nftClass "art-a") := .issueClass (m := ⟨"a", "ART", "", "", "", "", none, [], ""⟩) rfl
  obtain ⟨r, hr⟩ : ∃ r, ((small .coreum).executeTx "a"
      (.stargate IssueClass.typeUrl smallClass) .empty).result = .ok r := ⟨_, rfl⟩
  have hissuer : issuer? ((small .coreum).run smallGallery) .coreum (.nftClass "art-a") =
      .ok (some "a") := issuer?_of_issues rfl hissues hr
  refine ⟨apart_small, hstays smallGallery _ ?_ _ _ hissuer⟩
  simp [smallGallery, Call.SentFrom]

/-! ### Accounts that are not apart -/

/-- Two accounts that can pay for a new token; one ends in a dash and the other. -/
def dashedAccounts : List Call :=
  [.initBalance "a" [⟨"ucore", 10000000⟩], .initBalance "b-a" [⟨"ucore", 10000000⟩]]

/-- The payload that issues the subunit `tok-b` of one account. -/
def dashedSubunit : Bytes :=
  [211, 97, 131, 84, 79, 75, 133, 116, 111, 107, 45, 98, 128, 128, 128, 192, 128, 128, 128, 128]

/-- The payload that issues the subunit `tok` of the other one. -/
def dashedIssuer : Bytes :=
  [212, 131, 98, 45, 97, 131, 84, 79, 75, 131, 116, 111, 107, 128, 128, 128, 192, 128, 128, 128,
    128]

/-- Both accounts issue one denom, and the second one takes it from the first. -/
theorem identifiers_collide :
    (small .coreum).IssuedBy (.standard .coreum) .coreum ((small .coreum).run dashedAccounts) "a"
      (.denom "tok-b-a") ∧
    (small .coreum).IssuedBy (.standard .coreum) .coreum ((small .coreum).run (dashedAccounts ++
      [.tx "a" (.stargate IssueToken.typeUrl dashedSubunit)])) "b-a" (.denom "tok-b-a") ∧
    issuer? ((small .coreum).run (dashedAccounts ++
      [.tx "a" (.stargate IssueToken.typeUrl dashedSubunit)])) .coreum (.denom "tok-b-a") =
        .ok (some "a") ∧
    issuer? ((small .coreum).run (dashedAccounts ++
      [.tx "a" (.stargate IssueToken.typeUrl dashedSubunit),
        .tx "b-a" (.stargate IssueToken.typeUrl dashedIssuer)])) .coreum (.denom "tok-b-a") =
        .ok (some "b-a") := by
  have hfirst : Issues (.standard .coreum) .coreum IssueToken.typeUrl dashedSubunit
      (.denom "tok-b-a") :=
    .issueToken (m := ⟨"a", "TOK", "tok-b", 0, "", "", [], "", "", "", ""⟩) rfl
  have hsecond : Issues (.standard .coreum) .coreum IssueToken.typeUrl dashedIssuer
      (.denom "tok-b-a") :=
    .issueToken (m := ⟨"b-a", "TOK", "tok", 0, "", "", [], "", "", "", ""⟩) rfl
  obtain ⟨r, hr⟩ := Except.exists_ok_of_toOption (x := ((small .coreum).executeTx "a"
    (.stargate IssueToken.typeUrl dashedSubunit) ((small .coreum).run dashedAccounts)).result)
    (by decide +kernel)
  obtain ⟨r', hr'⟩ := Except.exists_ok_of_toOption (x := ((small .coreum).executeTx "b-a"
    (.stargate IssueToken.typeUrl dashedIssuer) ((small .coreum).run (dashedAccounts ++
      [.tx "a" (.stargate IssueToken.typeUrl dashedSubunit)]))).result) (by decide +kernel)
  exact ⟨⟨_, _, r, hfirst, hr⟩, ⟨_, _, r', hsecond, hr'⟩, issuer?_of_issues rfl hfirst hr,
    issuer?_of_issues rfl hsecond hr'⟩

end TokenLedger.Chain
