import TokenLedger.Proofs.Chain.Identifiers
import TokenLedger.Proofs.Chain.Inflation
import TokenLedger.Proofs.Chain.Ownership
import TokenLedger.Proofs.Factory.Minting
import TokenLedger.Proofs.Message

/-!
# Minting what was issued

In every run the recorded issuer of a token or a class can mint it, as long as its name can be used:
the denom is read back into two parts, and the id of the class stands in the key of an NFT.  Issuing
lets through names of which minting makes no use, dashes in a subunit and symbols of any length.
-/

namespace TokenLedger.Chain

open Asset Bank Factory Factory.Coreum

variable {c : Chain} {config : FactoryConfig} {s : Store} {a typeUrl : String} {value : Bytes}

/-! ### Transactions that succeed -/

/-- A transaction succeeds exactly if the factory can handle its message. -/
theorem exists_ok_iff_handle (hcore : c.stargate.core = .factory .coreum config)
    {m : Factory.Coreum.Message} (hread : m.ReadFrom typeUrl value) :
    (∃ r, (c.executeTx a (.stargate typeUrl value) s).result = .ok r) ↔
      ∃ t r, (handle config Bank.host a m).Runs s r t := by
  rw [executeTx_coreum hcore hread]
  constructor
  · rintro ⟨r, hr⟩
    exact ⟨_, r, hr, rfl⟩
  · rintro ⟨t, r, hrun⟩
    exact ⟨r, hrun.1⟩

theorem mintToken_ok_iff (hcore : c.stargate.core = .factory .coreum config) {m : MintToken}
    (decoded : MintToken.codec.decode value = .ok m) :
    (∃ r, (c.executeTx a (.stargate MintToken.typeUrl value) s).result = .ok r) ↔
      ∃ t, Effect config Bank.host a (.mint m) s t := by
  rw [exists_ok_iff_handle hcore (m := .mint m) ⟨rfl, decoded⟩]
  exact exists_congr fun t => mint_runs_iff

theorem mintNft_ok_iff (hcore : c.stargate.core = .factory .coreum config) {m : MintNft}
    (decoded : MintNft.codec.decode value = .ok m) :
    (∃ r, (c.executeTx a (.stargate MintNft.typeUrl value) s).result = .ok r) ↔
      ∃ t, Effect config Bank.host a (.mintNft m) s t := by
  rw [exists_ok_iff_handle hcore (m := .mintNft m) ⟨rfl, decoded⟩]
  exact exists_congr fun t => mintNft_runs_iff

theorem issueClass_ok_iff (hcore : c.stargate.core = .factory .coreum config) {m : IssueClass}
    (decoded : IssueClass.codec.decode value = .ok m) :
    (∃ r, (c.executeTx a (.stargate IssueClass.typeUrl value) s).result = .ok r) ↔
      ∃ t, Effect config Bank.host a (.issueClass m) s t := by
  rw [exists_ok_iff_handle hcore (m := .issueClass m) ⟨rfl, decoded⟩]
  exact exists_congr fun t => issueClass_runs_iff

/-- **Whatever was issued is minted by its issuer**, exactly if its name can be used.  After any
calls, a mint of a token by its recorded issuer that keeps the balance within 128 bits succeeds if
and only if neither the subunit nor the issuer has a dash; a mint of an NFT that is not live by the
recorded issuer of the class succeeds if and only if the id of the class is short enough for a
key. -/
theorem issuer_mints (c : Chain) (hcore : c.stargate.core = .factory .coreum config)
    (calls : List Call) :
    (∀ d token text n held value, issuedTokens.load? (c.run calls) d = .ok (some token) →
      Decimal.read? text = some n → 1 ≤ n → n ≤ maxAmount →
      balance (c.run calls) token.issuer d = .ok held → held + n ≤ maxAmount →
      MintToken.codec.decode value = .ok ⟨token.issuer, some ⟨d, text⟩, ""⟩ →
      ((∃ r, (c.executeTx token.issuer (.stargate MintToken.typeUrl value)
          (c.run calls)).result = .ok r) ↔
        '-' ∉ token.subunit.toList ∧ '-' ∉ token.issuer.toList)) ∧
    ∀ cls m value, classes.load? (c.run calls) m.classId = .ok (some cls) →
      m.sender = cls.issuer → (∀ n, nfts.load? (c.run calls) (m.classId, m.id) ≠ .ok (some n)) →
      MintNft.codec.decode value = .ok m →
      ((∃ r, (c.executeTx cls.issuer (.stargate MintNft.typeUrl value)
          (c.run calls)).result = .ok r) ↔ Key.IsShort m.classId) := by
  constructor
  · intro d token text n held value hd htext hpos hle hheld hmax decoded
    have hread : readAmount text "amount" = .ok n := readAmount_eq_ok.mpr ⟨htext, hle⟩
    rw [mintToken_ok_iff hcore decoded]
    exact mint_effect_iff (run_recordsNamed hcore calls) hd hread (by omega) hheld hmax
  · intro cls m value hcls hsender hfree decoded
    rw [mintNft_ok_iff hcore decoded]
    exact mintNft_effect_iff (run_nftsPlaced hcore calls) hcls hsender hfree

/-- The payload that mints five units of the small token. -/
def smallTokenMint : Bytes := [202, 97, 199, 133, 116, 111, 107, 45, 97, 53, 128]

theorem exists_smallToken :
    ∃ token, issuedTokens.load? ((small .coreum).run smallToken) "tok-a" = .ok (some token) ∧
      token.issuer = "a" ∧ '-' ∉ token.subunit.toList ∧ '-' ∉ token.issuer.toList := by
  have hcore : (small .coreum).stargate.core = .factory .coreum (.standard .coreum) := rfl
  have hissues : Issues (.standard .coreum) .coreum IssueToken.typeUrl smallIssue
      (.denom "tok-a") :=
    .issueToken (m := ⟨"a", "TOK", "tok", 0, "7", "", [], "", "", "", ""⟩) rfl
  obtain ⟨r, hr⟩ := Except.exists_ok_of_toOption (x := ((small .coreum).executeTx "a"
    (.stargate IssueToken.typeUrl smallIssue) ((small .coreum).run smallAccounts)).result)
    (by decide +kernel)
  obtain ⟨token, hload, ha⟩ := exists_token_of_issuer? (issuer?_of_issues hcore hissues hr)
  have hnamed : TokensNamed ((small .coreum).run smallToken) := run_recordsNamed hcore smallToken
  have hname := (RecordMap.Holds.of_load? hnamed hload).2
  have htwo : (parts '-' "tok-a").length = 2 := by decide
  rw [hname] at htwo
  exact ⟨token, hload, ha, (length_parts_append_eq_two_iff rfl _ _).mp htwo⟩

/-- The issuer of the small token has some of it and mints more; the issuer of the small class mints
the first NFT in it. -/
theorem issuer_mints_small :
    (balance ((small .coreum).run smallToken) "a" "tok-a" = .ok 7 ∧
      MintToken.codec.decode smallTokenMint = .ok ⟨"a", some ⟨"tok-a", "5"⟩, ""⟩ ∧
      ∃ r, ((small .coreum).executeTx "a" (.stargate MintToken.typeUrl smallTokenMint)
        ((small .coreum).run smallToken)).result = .ok r) ∧
    nfts.load? ((small .coreum).run smallGallery) ("art-a", "1") = .ok none ∧
      MintNft.codec.decode smallMint = .ok ⟨"a", "art-a", "1", "", "", none, "b"⟩ ∧
      ∃ r, ((small .coreum).executeTx "a" (.stargate MintNft.typeUrl smallMint)
        ((small .coreum).run smallGallery)).result = .ok r := by
  have hcore : (small .coreum).stargate.core = .factory .coreum (.standard .coreum) := rfl
  constructor
  · obtain ⟨hmints, -⟩ := issuer_mints (small .coreum) hcore smallToken
    obtain ⟨token, hload, ha, hdashes⟩ := exists_smallToken
    have hseven : balance ((small .coreum).run smallToken) "a" "tok-a" = .ok 7 :=
      Except.eq_ok_of_toOption (by decide +kernel)
    have hdecoded : MintToken.codec.decode smallTokenMint =
        .ok ⟨"a", some ⟨"tok-a", "5"⟩, ""⟩ := rfl
    have hfive : 5 ≤ maxAmount := by decide +kernel
    have htwelve : (7 : Int) + (5 : Nat) ≤ maxAmount := by decide +kernel
    refine ⟨hseven, hdecoded, ?_⟩
    rw [← ha] at hseven hdecoded ⊢
    exact (hmints "tok-a" token "5" 5 7 smallTokenMint hload rfl (by omega) hfive hseven htwelve
      hdecoded).mpr hdashes
  · obtain ⟨-, hmints⟩ := issuer_mints (small .coreum) hcore smallGallery
    have hissues : Issues (.standard .coreum) .coreum IssueClass.typeUrl smallClass
        (.nftClass "art-a") := .issueClass (m := ⟨"a", "ART", "", "", "", "", none, [], ""⟩) rfl
    obtain ⟨r, hr⟩ := Except.exists_ok_of_toOption (x := ((small .coreum).executeTx "a"
      (.stargate IssueClass.typeUrl smallClass) .empty).result) (by decide +kernel)
    have hissuer : issuer? ((small .coreum).run smallGallery) .coreum (.nftClass "art-a") =
        .ok (some "a") := issuer?_of_issues hcore hissues hr
    obtain ⟨cls, hload, ha⟩ := exists_class_of_issuer? hissuer
    have hnone : nfts.load? ((small .coreum).run smallGallery) ("art-a", "1") = .ok none :=
      Except.eq_ok_of_toOption (by decide +kernel)
    have hfree : ∀ n, nfts.load? ((small .coreum).run smallGallery) ("art-a", "1") ≠
        .ok (some n) := by
      intro n hn
      rw [hnone] at hn
      cases hn
    have hdecoded : MintNft.codec.decode smallMint =
        .ok ⟨"a", "art-a", "1", "", "", none, "b"⟩ := rfl
    have hshort : Key.IsShort "art-a" := by decide
    have hmint := (hmints cls ⟨"a", "art-a", "1", "", "", none, "b"⟩ smallMint hload ha.symm hfree
      hdecoded).mpr hshort
    rw [ha] at hmint
    exact ⟨hnone, hdecoded, hmint⟩

/-! ### Names that cannot be used -/

/-- The payload that issues the subunit `tok-en`. -/
def dashedToken : Bytes :=
  [212, 97, 131, 84, 79, 75, 134, 116, 111, 107, 45, 101, 110, 128, 128, 128, 192, 128, 128, 128,
    128]

/-- The payload that mints five units of it. -/
def dashedMint : Bytes := [205, 97, 202, 136, 116, 111, 107, 45, 101, 110, 45, 97, 53, 128]

/-- The calls that issue it. -/
def dashedIssue : List Call := smallAccounts ++ [.tx "a" (.stargate IssueToken.typeUrl dashedToken)]

/-- A text of so many letters. -/
def letters (n : Nat) : String := String.ofList (List.replicate n 'x')

/-- The payload that issues a class under a symbol. -/
def classPayload (symbol : String) : Bytes :=
  (Rlp.Item.list [.bytes (Utf8.encode "a"), .bytes (Utf8.encode symbol), .bytes [], .bytes [],
    .bytes [], .bytes [], .list [], .list [], .bytes []]).encode

/-- The payload that mints an NFT in a class. -/
def nftPayload (classId : String) : Bytes :=
  (Rlp.Item.list [.bytes (Utf8.encode "a"), .bytes (Utf8.encode classId), .bytes (Utf8.encode "1"),
    .bytes [], .bytes [], .list [], .bytes []]).encode

theorem lowercase_letters (n : Nat) : Text.lowercase (letters n) = letters n := by
  have honto (k : Nat) (before : List Char) : Text.lowerOnto (List.replicate k 'x') before
      (List.replicate n 'x') = List.replicate (k + n) 'x' := by
    induction n generalizing k before with
    | zero => exact List.reverse_replicate
    | succ n ih =>
      rw [List.replicate_succ, Text.lowerOnto]
      show Text.lowerOnto ('x' :: List.replicate k 'x') _ _ = _
      rw [← List.replicate_succ, ih]
      congr 1
      omega
  unfold Text.lowercase letters
  rw [String.toList_ofList, ← List.replicate_zero, honto, Nat.zero_add]

theorem length_encode_letters (n : Nat) : (Utf8.encode (letters n)).length = n := by
  unfold Utf8.encode letters
  rw [String.toList_ofList]
  induction n with
  | zero => rfl
  | succ n ih =>
    rw [List.replicate_succ, List.flatMap_cons, List.length_append, ih]
    show 1 + n = n + 1
    omega

theorem length_encode_classIdOf_letters (n : Nat) :
    (Utf8.encode (classIdOf (letters n) "a")).length = n + 2 := by
  unfold classIdOf
  rw [lowercase_letters, Utf8.encode_append, Utf8.encode_append, List.length_append,
    List.length_append, length_encode_letters]
  rfl

/-- One long text among a few short items does not make a list too long for a header. -/
theorem length_encode_long_lt {x y : Bytes} {rest : List Rlp.Item}
    (hx : (Rlp.encodeBytes x).length ≤ 9) (hy : y.length < 2 ^ 32)
    (hrest : (Rlp.encodeAll rest).length ≤ 9) :
    (Rlp.Item.list (.bytes x :: .bytes y :: rest)).encode.length < 2 ^ 64 := by
  have hlong := Rlp.length_encodeBytes_le (Nat.lt_trans hy (by omega))
  refine Rlp.length_encode_list_lt ?_
  simp only [Rlp.encodeAll, Rlp.Item.encode, List.length_append]
  omega

theorem decode_classPayload {symbol : String} (h : (Utf8.encode symbol).length < 2 ^ 32) :
    IssueClass.codec.decode (classPayload symbol) =
      .ok ⟨"a", symbol, "", "", "", "", none, [], ""⟩ := by
  have hback := MessageType.readsBack_row .issueClass ⟨"a", symbol, "", "", "", "", none, [], ""⟩
    fun _ hn => absurd hn List.not_mem_nil
  exact Wire.Codec.decode_of_encode hback rfl (length_encode_long_lt (by decide) h (by decide))

theorem decode_nftPayload {classId : String} (h : (Utf8.encode classId).length < 2 ^ 32) :
    MintNft.codec.decode (nftPayload classId) = .ok ⟨"a", classId, "1", "", "", none, ""⟩ := by
  have hback := MessageType.readsBack_row .mintNft ⟨"a", classId, "1", "", "", none, ""⟩ trivial
  exact Wire.Codec.decode_of_encode hback rfl (length_encode_long_lt (by decide) h (by decide))

/-- The calls that issue a class under a symbol of too many letters. -/
def longIssue : List Call := [.tx "a" (.stargate IssueClass.typeUrl (classPayload (letters 65536)))]

/-- Its id. -/
def longId : String := classIdOf (letters 65536) "a"

theorem length_longId : (Utf8.encode longId).length = 65538 := length_encode_classIdOf_letters 65536

theorem not_isShort_longId : ¬ Key.IsShort longId := by
  unfold Key.IsShort Key.maxSegment
  rw [length_longId]
  omega

theorem load?_classes_empty (id : String) : classes.load? .empty id = .ok none := rfl

/-- Any symbol will do for a first class. -/
theorem issuer?_of_classPayload {symbol : String} (h : (Utf8.encode symbol).length < 2 ^ 32) :
    issuer? ((small .coreum).run [.tx "a" (.stargate IssueClass.typeUrl (classPayload symbol))])
      .coreum (.nftClass (classIdOf symbol "a")) = .ok (some "a") := by
  have hclass := decode_classPayload h
  have hcore : (small .coreum).stargate.core = .factory .coreum (.standard .coreum) := rfl
  obtain ⟨r, hr⟩ := (issueClass_ok_iff hcore (s := .empty) hclass).mpr
    (exists_issueClass_effect rfl (load?_classes_empty _))
  have hissues : Issues (.standard .coreum) .coreum IssueClass.typeUrl (classPayload symbol)
      (.nftClass (classIdOf symbol "a")) :=
    .issueClass (m := ⟨"a", symbol, "", "", "", "", none, [], ""⟩) hclass
  exact issuer?_of_issues hcore hissues hr

/-- **Not everything that was issued can be minted.**  An account has issued a subunit with a dash,
or a class under a long symbol, and is refused when it mints. -/
theorem issued_not_minted :
    ((∃ token, issuedTokens.load? ((small .coreum).run dashedIssue) "tok-en-a" =
        .ok (some token) ∧ token.issuer = "a") ∧
      balance ((small .coreum).run dashedIssue) "a" "tok-en-a" = .ok 0 ∧
      MintToken.codec.decode dashedMint = .ok ⟨"a", some ⟨"tok-en-a", "5"⟩, ""⟩ ∧
      ¬ ∃ r, ((small .coreum).executeTx "a" (.stargate MintToken.typeUrl dashedMint)
        ((small .coreum).run dashedIssue)).result = .ok r) ∧
    (∃ cls, classes.load? ((small .coreum).run longIssue) longId = .ok (some cls) ∧
        cls.issuer = "a") ∧
      (∀ n, nfts.load? ((small .coreum).run longIssue) (longId, "1") ≠ .ok (some n)) ∧
      MintNft.codec.decode (nftPayload longId) = .ok ⟨"a", longId, "1", "", "", none, ""⟩ ∧
      ¬ ∃ r, ((small .coreum).executeTx "a" (.stargate MintNft.typeUrl (nftPayload longId))
        ((small .coreum).run longIssue)).result = .ok r := by
  constructor
  · have hissues : Issues (.standard .coreum) .coreum IssueToken.typeUrl dashedToken
        (.denom "tok-en-a") :=
      .issueToken (m := ⟨"a", "TOK", "tok-en", 0, "", "", [], "", "", "", ""⟩) rfl
    obtain ⟨r, hr⟩ := Except.exists_ok_of_toOption (x := ((small .coreum).executeTx "a"
      (.stargate IssueToken.typeUrl dashedToken) ((small .coreum).run smallAccounts)).result)
      (by decide +kernel)
    have hnone : balance ((small .coreum).run dashedIssue) "a" "tok-en-a" = .ok 0 :=
      Except.eq_ok_of_toOption (by decide +kernel)
    refine ⟨exists_token_of_issuer? (issuer?_of_issues rfl hissues hr), hnone, rfl, ?_⟩
    rw [mintToken_ok_iff rfl (m := ⟨"a", some ⟨"tok-en-a", "5"⟩, ""⟩) rfl]
    rintro ⟨t, h⟩
    have hcoin : some (⟨"tok-en-a", "5"⟩ : WireCoin) = some ⟨denomOf "tok-en" "a", "5"⟩ := rfl
    have hdash : '-' ∈ "tok-en".toList := by decide
    exact (noDash_of_mint h hcoin).1 hdash
  · have hletters : (Utf8.encode (letters 65536)).length < 2 ^ 32 := by
      rw [length_encode_letters]
      omega
    have hid : (Utf8.encode longId).length < 2 ^ 32 := by
      rw [length_longId]
      omega
    have hissuer : issuer? ((small .coreum).run longIssue) .coreum (.nftClass longId) =
        .ok (some "a") := issuer?_of_classPayload hletters
    refine ⟨exists_class_of_issuer? hissuer, fun n hn => ?_, decode_nftPayload hid, ?_⟩
    · exact not_isShort_longId
        ((RecordMap.exists_fullKey_pair_iff rfl).mp (RecordMap.fullKey_of_load? hn))
    · have hcore : (small .coreum).stargate.core = .factory .coreum (.standard .coreum) := rfl
      rw [mintNft_ok_iff hcore (decode_nftPayload hid)]
      rintro ⟨t, h⟩
      have hshort := isShort_of_mintNft h
      exact not_isShort_longId hshort

end TokenLedger.Chain
