import TokenLedger.Chain.Module
import TokenLedger.Proofs.Factory.Generic
import TokenLedger.Proofs.Factory.Nfts

/-!
# Identifiers and who issued them

A denom or a class id is put together from a text that the sender chooses and the sender's address.
Behind a slash the address can be told, since no creator has a slash in it.  Behind a dash it can be
told only among addresses none of which ends in a dash and another one (`Apart`): both may have
dashes.  A message changes the recorded issuer of an identifier only to its sender, and only if the
identifier spells the sender (`issuer?_cases`).
-/

namespace TokenLedger.Factory

variable {variant : Variant} {config : FactoryConfig} {sender typeUrl a b : String} {value : Bytes}
  {s t : Store} {r : Response}

/-- What is issued: a denom or a class. -/
inductive Identifier
  | denom (d : String)
  | nftClass (id : String)
deriving DecidableEq, Repr

/-! ### Addresses in identifiers -/

/-- A text ends in a dash and another text. -/
def EndsIn (a b : String) : Prop := ∃ front, a = front ++ "-" ++ b

theorem eq_or_endsIn_of_append {w : List Char} (h : '-' :: a.toList = w ++ '-' :: b.toList) :
    a = b ∨ EndsIn a b := by
  rcases List.cons_eq_append_iff.mp h with ⟨-, hsame⟩ | ⟨front, -, hbehind⟩
  · exact Or.inl (String.toList_injective (List.cons.inj hsame).2.symm)
  · refine Or.inr ⟨String.ofList front, String.toList_injective ?_⟩
    simp [hbehind]

/-- What stands behind a dash of one text is the same twice, or one ends in the other. -/
theorem eq_or_endsIn {x y : String} (h : x ++ "-" ++ a = y ++ "-" ++ b) :
    a = b ∨ EndsIn a b ∨ EndsIn b a := by
  have hchars : x.toList ++ '-' :: a.toList = y.toList ++ '-' :: b.toList := by
    simpa using congrArg String.toList h
  rcases List.append_eq_append_iff.mp hchars with ⟨w, -, ha⟩ | ⟨w, -, hb⟩
  · rcases eq_or_endsIn_of_append ha with heq | hends
    · exact Or.inl heq
    · exact Or.inr (Or.inl hends)
  · rcases eq_or_endsIn_of_append hb with heq | hends
    · exact Or.inl heq.symm
    · exact Or.inr (Or.inr hends)

/-- Two accounts whose identifiers cannot be the same. -/
def Apart : Variant → String → String → Prop
  | .generic, _, _ => True
  | .coreum, a, b => ¬ EndsIn a b ∧ ¬ EndsIn b a

/-- An identifier is one that an account can issue. -/
inductive Spells (config : FactoryConfig) : Variant → Identifier → String → Prop
  | createdDenom {creator subdenom : String} (slash : '/' ∉ creator.toList) :
      Spells config .generic (.denom (Generic.denomOf config creator subdenom)) creator
  | issuedToken {subunit issuer : String} :
      Spells config .coreum (.denom (Asset.denomOf subunit issuer)) issuer
  | nftClass {symbol issuer : String} :
      Spells config .coreum (.nftClass (Asset.classIdOf symbol issuer)) issuer

/-- The text in front of an address tells the address, among accounts that are apart. -/
theorem Spells.eq {id : Identifier} (ha : Spells config variant id a)
    (hb : Spells config variant id b) (hapart : a ≠ b → Apart variant a b) : a = b := by
  by_contra hne
  have apart_dash {x y : String} (h : x ++ "-" ++ a = y ++ "-" ++ b)
      (hapart : Apart .coreum a b) : False := by
    obtain ⟨hab, hba⟩ := hapart
    rcases eq_or_endsIn h with heq | hends | hends
    · exact hne heq
    · exact hab hends
    · exact hba hends
  cases ha with
  | createdDenom hslash =>
    generalize hid : Identifier.denom _ = id at hb
    cases hb with
    | createdDenom hslash' =>
      have hparts := congrArg (parts '/') (Identifier.denom.inj hid)
      rw [Generic.parts_denomOf hslash, Generic.parts_denomOf hslash'] at hparts
      exact hne (List.cons.inj (List.append_cancel_left hparts)).1
  | issuedToken =>
    generalize hid : Identifier.denom _ = id at hb
    cases hb with
    | issuedToken => exact apart_dash (Identifier.denom.inj hid) (hapart hne)
    | nftClass => cases hid
  | nftClass =>
    generalize hid : Identifier.nftClass _ = id at hb
    cases hb with
    | issuedToken => cases hid
    | nftClass => exact apart_dash (Identifier.nftClass.inj hid) (hapart hne)

/-! ### Issuances -/

/-- A message issues an identifier if it succeeds. -/
inductive Issues (config : FactoryConfig) : Variant → String → Bytes → Identifier → Prop
  | createDenom {value : Bytes} {m : CreateDenom} (decoded : CreateDenom.codec.decode value = .ok m) :
      Issues config .generic CreateDenom.typeUrl value
        (.denom (Generic.denomOf config m.sender m.subdenom))
  | issueToken {value : Bytes} {m : IssueToken} (decoded : IssueToken.codec.decode value = .ok m) :
      Issues config .coreum IssueToken.typeUrl value (.denom (Asset.denomOf m.subunit m.issuer))
  | issueClass {value : Bytes} {m : IssueClass} (decoded : IssueClass.codec.decode value = .ok m) :
      Issues config .coreum IssueClass.typeUrl value
        (.nftClass (Asset.classIdOf m.symbol m.issuer))

/-- A class is refused as existing only to the issuer in its id, and if there is one. -/
theorem Coreum.has_of_classExists {m : IssueClass} {id : String}
    (h : (Coreum.issueClass sender m).Fails s (.invalid (.classExists id))) :
    m.issuer = sender ∧ Asset.classes.has s (Asset.classIdOf m.symbol m.issuer) = .ok true := by
  simp only [Coreum.issueClass, Action.fails_bind, Action.fails_require, Action.fails_read,
    Action.fails_write, Action.not_fails_log, Action.not_fails_pure, Action.runs_require,
    Action.runs_read, and_false, exists_false, or_false] at h
  rcases h with ⟨-, hother⟩ | ⟨_, _, ⟨issuer, rfl⟩, hother | ⟨taken, _, ⟨found, rfl⟩, h⟩⟩
  · cases hother
  · cases hother
  · rcases h with ⟨htaken, -⟩ | ⟨_, _, ⟨-, rfl⟩, hother⟩
    · obtain rfl : taken = true := by simpa using htaken
      exact ⟨of_decide_eq_true issuer, found⟩
    · cases hother

/-! ### Recorded issuers -/

/-- The account that a store records as the issuer or the creator, if there is one. -/
def issuer? (s : Store) : Variant → Identifier → Except Fault (Option String)
  | .generic, .denom d => (Option.map (·.creator)) <$> Generic.createdDenoms.load? s d
  | .generic, .nftClass _ => .ok none
  | .coreum, .denom d => (Option.map (·.issuer)) <$> Asset.issuedTokens.load? s d
  | .coreum, .nftClass id => (Option.map (·.issuer)) <$> Asset.classes.load? s id

theorem issuer?_generic_iff {d : String} :
    issuer? s .generic (.denom d) = .ok (some a) ↔
      ∃ record, Generic.createdDenoms.load? s d = .ok (some record) ∧ record.creator = a := by
  constructor
  · intro h
    obtain ⟨o, hload, ho⟩ := Except.map_eq_ok.mp h
    obtain ⟨record, rfl, hcreator⟩ := Option.map_eq_some_iff.mp ho
    exact ⟨record, hload, hcreator⟩
  · rintro ⟨record, hload, rfl⟩
    simp only [issuer?, hload]
    rfl

theorem exists_token_of_issuer? {d : String} (h : issuer? s .coreum (.denom d) = .ok (some a)) :
    ∃ token, Asset.issuedTokens.load? s d = .ok (some token) ∧ token.issuer = a := by
  obtain ⟨o, hload, ho⟩ := Except.map_eq_ok.mp h
  obtain ⟨token, rfl, hissuer⟩ := Option.map_eq_some_iff.mp ho
  exact ⟨token, hload, hissuer⟩

theorem exists_class_of_issuer? {id : String}
    (h : issuer? s .coreum (.nftClass id) = .ok (some a)) :
    ∃ cls, Asset.classes.load? s id = .ok (some cls) ∧ cls.issuer = a := by
  obtain ⟨o, hload, ho⟩ := Except.map_eq_ok.mp h
  obtain ⟨cls, rfl, hissuer⟩ := Option.map_eq_some_iff.mp ho
  exact ⟨cls, hload, hissuer⟩

/-- What happens to balances alone changes no issuer. -/
theorem issuer?_of_sameOutside (h : Store.SameOutside Bank.balances.root s t) (id : Identifier) :
    issuer? t variant id = issuer? s variant id := by
  cases variant with
  | generic =>
    cases id with
    | denom d =>
      have hload := RecordMap.load?_congr (m := Generic.createdDenoms)
        (RecordMap.sameUnder_of_sameOutside h (by decide)) d
      simp only [issuer?, hload]
    | nftClass id => rfl
  | coreum =>
    cases id with
    | denom d =>
      have hload := RecordMap.load?_congr (m := Asset.issuedTokens)
        (RecordMap.sameUnder_of_sameOutside h (by decide)) d
      simp only [issuer?, hload]
    | nftClass id =>
      have hload := RecordMap.load?_congr (m := Asset.classes)
        (RecordMap.sameUnder_of_sameOutside h (by decide)) id
      simp only [issuer?, hload]

/-! ### Issuers that change -/

theorem Generic.issuer?_eq_or_issues {m : Generic.Message} (hm : m.ReadFrom typeUrl value)
    (h : Generic.Effect config Bank.host sender m s t) (id : Identifier) :
    issuer? t .generic id = issuer? s .generic id ∨ Issues config .generic typeUrl value id := by
  cases h with
  | @create m _ _ u _ _ checked new fee saved =>
    obtain ⟨rfl, decoded⟩ := hm
    cases ensureNoSupply_store new
    have hfee := (chargeFee_writesBalances config .generic sender).of_runs fee
    cases id with
    | nftClass => exact Or.inl rfl
    | denom d =>
      by_cases hd : d = Generic.denomOf config m.sender m.subdenom
      · exact Or.inr (hd ▸ .createDenom decoded)
      · refine Or.inl ?_
        rw [← issuer?_of_sameOutside hfee]
        simp only [issuer?, RecordMap.load?_save_of_ne hd saved]
  | mint named authorized created positive done =>
    exact Or.inl (issuer?_of_sameOutside ((Bank.mint_writesBalances _).of_runs done) id)
  | burn named authorized positive done =>
    exact Or.inl
      (issuer?_of_sameOutside ((Bank.execute_writesBalances sender (.burn _)).of_runs done) id)

theorem Coreum.issuer?_eq_or_issues {m : Coreum.Message} (hm : m.ReadFrom typeUrl value)
    (h : Coreum.Effect config Bank.host sender m s t) (id : Identifier) :
    issuer? t .coreum id = issuer? s .coreum id ∨ Issues config .coreum typeUrl value id := by
  cases id with
  | denom d =>
    by_cases hmap : m.mapName? = some Asset.issuedTokens.name
    · obtain ⟨m, rfl⟩ := Coreum.eq_issue_of_mapName? hmap
      obtain ⟨rfl, decoded⟩ := hm
      cases h with
      | issue checked new fee minted saved =>
        cases ensureNoSupply_store new
        have hout := ((chargeFee_writesBalances config .coreum sender).of_runs fee).trans
          ((Coreum.mintInitial_writesBalances _ m).of_runs minted)
        by_cases hd : d = Asset.denomOf m.subunit m.issuer
        · exact Or.inr (hd ▸ .issueToken decoded)
        · refine Or.inl ?_
          rw [← issuer?_of_sameOutside hout]
          simp only [issuer?, RecordMap.load?_save_of_ne hd saved]
    · have hload := RecordMap.load?_congr (h.sameUnder (by decide) hmap) d
      exact Or.inl (by simp only [issuer?, hload])
  | nftClass id =>
    rcases h.class_cases with hsame | ⟨m', rfl, rfl, -, saved⟩
    · exact Or.inl (by simp only [issuer?, RecordMap.load?_congr hsame])
    · obtain ⟨rfl, decoded⟩ := hm
      by_cases hid : id = Asset.classIdOf m'.symbol m'.issuer
      · exact Or.inr (hid ▸ .issueClass decoded)
      · exact Or.inl (by simp only [issuer?, RecordMap.load?_save_of_ne hid saved])

/-- A message leaves the issuer of an identifier as it is, or it issues the identifier. -/
theorem issuer?_eq_or_issues
    (h : ((StargateModule.factory variant config).execute Bank.host sender typeUrl value).Runs
      s r t) (id : Identifier) :
    issuer? t variant id = issuer? s variant id ∨ Issues config variant typeUrl value id := by
  cases variant with
  | generic =>
    obtain ⟨m, hm, heffect⟩ := Generic.execute_effect h
    exact Generic.issuer?_eq_or_issues (Generic.readFrom_of_ofWire hm) heffect id
  | coreum =>
    obtain ⟨m, hm, heffect⟩ := Coreum.execute_effect h
    exact Coreum.issuer?_eq_or_issues (Coreum.readFrom_of_ofWire hm) heffect id

/-! ### What an issuance leaves -/

/-- What is issued spells the sender, who is recorded as its issuer. -/
theorem issued_of_issues {id : Identifier} (hid : Issues config variant typeUrl value id)
    (h : ((StargateModule.factory variant config).execute Bank.host sender typeUrl value).Runs
      s r t) :
    Spells config variant id sender ∧ issuer? t variant id = .ok (some sender) := by
  cases hid with
  | @createDenom _ m decoded =>
    have hread : (Generic.Message.create m).ReadFrom CreateDenom.typeUrl value := ⟨rfl, decoded⟩
    cases Generic.effect_of_readFrom hread h with
    | create checked new fee saved =>
      obtain ⟨hslash, rfl⟩ := creator_of_checkNewDenom checked
      refine ⟨.createdDenom hslash, ?_⟩
      simp only [issuer?, RecordMap.load?_save (Generic.readsBack_createdDenom _) saved]
      rfl
  | @issueToken _ m decoded =>
    have hread : (Coreum.Message.issue m).ReadFrom IssueToken.typeUrl value := ⟨rfl, decoded⟩
    have hback := Asset.readsBack_issuedToken (IssueToken.numbersAreWords_decode decoded)
    cases Coreum.effect_of_readFrom hread h with
    | issue checked new fee minted saved =>
      obtain ⟨-, rfl⟩ := creator_of_checkNewDenom checked
      refine ⟨.issuedToken, ?_⟩
      simp only [issuer?, RecordMap.load?_save hback saved]
      rfl
  | @issueClass _ m decoded =>
    have hread : (Coreum.Message.issueClass m).ReadFrom IssueClass.typeUrl value := ⟨rfl, decoded⟩
    cases Coreum.effect_of_readFrom hread h with
    | issueClass issuer free saved =>
      obtain rfl := issuer
      refine ⟨.nftClass, ?_⟩
      simp only [issuer?, RecordMap.load?_save (Asset.readsBack_class _) saved]
      rfl

/-- A message leaves the issuer of an identifier as it is, or it makes the sender the issuer of an
identifier that spells the sender. -/
theorem issuer?_cases
    (h : ((StargateModule.factory variant config).execute Bank.host sender typeUrl value).Runs
      s r t) (id : Identifier) :
    issuer? t variant id = issuer? s variant id ∨
      (issuer? t variant id = .ok (some sender) ∧ Spells config variant id sender) :=
  (issuer?_eq_or_issues h id).imp_right fun hissues => (issued_of_issues hissues h).symm

end TokenLedger.Factory
