import TokenLedger.Proofs.Chain.Classes
import TokenLedger.Proofs.Chain.Queries

/-!
# Who owns an NFT

The owner of an NFT changes in a transaction only by a mint of the class's issuer, a send by the
owner (by the issuer in a soulbound class) or a burn by the owner (or by the issuer where the class
allows it).  The recorded owner is the one that the query for the owner reports.
-/

namespace TokenLedger.Chain

open Asset Bank Factory.Coreum

variable {c : Chain} {config : FactoryConfig} {s t : Store} {sender classId id : String}
  {message : Message}

/-! ### The query for the owner -/

theorem answer_ownerOf (nativeDenom classId id : String) (s : Store) :
    (Asset.Query.ownerOf classId id).answer nativeDenom s =
      match nfts.load? s (classId, id) with
      | .ok (some n) => .ok (Json.obj [("owner", .str n.owner)]).toBytes
      | .ok none => .error (.notFound (.nft classId id))
      | .error e => .error e := by
  show Json.toBytes <$> (loadNft s classId id >>= fun n =>
    Except.ok (Json.obj [("owner", .str n.owner)])) = _
  unfold loadNft
  cases nfts.load? s (classId, id) with
  | error e => rfl
  | ok n => cases n <;> rfl

/-- The query for the owner of an NFT reports an owner, or fails where there is none. -/
def Reports (c : Chain) (s : Store) (classId id : String) (owner : Option String) : Prop :=
  ∀ data, OwnerRequest.codec.decode data = .ok ⟨classId, id⟩ →
    match owner with
    | some o => (c.query s (.stargate OwnerRequest.path data)).result =
        .ok (Json.obj [("owner", .str o)]).toBytes
    | none => ∃ e, (c.query s (.stargate OwnerRequest.path data)).result = .error e

theorem reports_ownerOf (hcore : c.stargate.core = .factory .coreum config) (s : Store)
    (classId id : String) : c.Reports s classId id (ownerOf s classId id) := by
  intro data hdata
  have hpath : Bridge.Request.ofWire? OwnerRequest.path data = none :=
    ofWire?_inquiry (.owner ⟨classId, id⟩) data
  have hquery : (c.query s (.stargate OwnerRequest.path data)).result =
      (Asset.Query.ownerOf classId id).answer config.feeDenom s := by
    show (c.stargate.query (c.querier s) c.block s OwnerRequest.path data).result = _
    rw [← StargateModule.query_core hpath, hcore]
    exact Inquiry.query_path (r := .owner ⟨classId, id⟩) config s hdata
  rw [hquery, answer_ownerOf]
  unfold ownerOf
  cases nfts.load? s (classId, id) with
  | error e => exact ⟨e, rfl⟩
  | ok n =>
    cases n with
    | none => exact ⟨_, rfl⟩
    | some n => exact rfl

/-! ### The rules -/

/-- A message of a sender may change the owner of an NFT from one to another.  Which kind of message
it is follows from whether there is an owner before it and after it. -/
inductive OwnerChange (sender : String) (s : Store) (classId id : String) :
    Message → Option String → Option String → Prop
  | minted {value : Bytes} {m : MintNft} {cls : StoredClass}
      (decoded : MintNft.codec.decode value = .ok m)
      (ofClass : m.classId = classId) (ofId : m.id = id)
      (known : classes.load? s classId = .ok (some cls)) (issuer : cls.issuer = sender) :
      OwnerChange sender s classId id (.stargate MintNft.typeUrl value) none
        (some (if m.recipient = "" then sender else m.recipient))
  | sent {value : Bytes} {m : SendNft} {cls : StoredClass} {owner : String}
      (decoded : SendNft.codec.decode value = .ok m)
      (ofClass : m.classId = classId) (ofId : m.id = id)
      (known : classes.load? s classId = .ok (some cls)) (receiver : m.receiver ≠ "")
      (allowed : (.soulbound ∉ cls.features ∧ sender = owner ∧ m.sender = sender) ∨
        (.soulbound ∈ cls.features ∧ sender = cls.issuer)) :
      OwnerChange sender s classId id (.stargate SendNft.typeUrl value) (some owner)
        (some m.receiver)
  | burned {value : Bytes} {m : BurnNft} {cls : StoredClass} {owner : String}
      (decoded : BurnNft.codec.decode value = .ok m)
      (ofClass : m.classId = classId) (ofId : m.id = id)
      (known : classes.load? s classId = .ok (some cls)) (signed : m.sender = sender)
      (allowed : sender = owner ∨ (sender = cls.issuer ∧ .burning ∈ cls.features)) :
      OwnerChange sender s classId id (.stargate BurnNft.typeUrl value) (some owner) none

theorem ownerOf_of_load? {n : Option StoredNft} (h : nfts.load? s (classId, id) = .ok n) :
    ownerOf s classId id = n.map (·.owner) := by
  unfold ownerOf
  rw [h]
  cases n <;> rfl

theorem ownerOf_congr (h : nfts.load? t (classId, id) = nfts.load? s (classId, id)) :
    ownerOf t classId id = ownerOf s classId id := by
  unfold ownerOf
  rw [h]

/-- The effect of a message that changes an owner is one of the rules. -/
theorem ownerChange_of_effect {m : Factory.Coreum.Message} {typeUrl : String} {value : Bytes}
    (hm : m.ReadFrom typeUrl value) (h : Effect config Bank.host sender m s t)
    (hne : ownerOf s classId id ≠ ownerOf t classId id) :
    OwnerChange sender s classId id (.stargate typeUrl value) (ownerOf s classId id)
      (ownerOf t classId id) := by
  rcases h.nft_cases (classId, id) with hsame |
    ⟨m', cls, rfl, hkey, known, issuer, signed, hnone, hsome⟩ |
    ⟨m', cls, n, rfl, hkey, known, signed, allowed, hsome, hnone⟩ |
    ⟨m', cls, n, rfl, hkey, known, checked, receiver, hsome, hsome'⟩
  · exact absurd (ownerOf_congr hsame).symm hne
  · obtain ⟨rfl, decoded⟩ := hm
    injection hkey with hclass hid
    rw [ownerOf_of_load? hnone, ownerOf_of_load? hsome]
    exact .minted decoded hclass.symm hid.symm (hclass ▸ known) issuer
  · obtain ⟨rfl, decoded⟩ := hm
    injection hkey with hclass hid
    rw [ownerOf_of_load? hnone, ownerOf_of_load? hsome]
    exact .burned decoded hclass.symm hid.symm (hclass ▸ known) signed
      (allowed.imp Eq.symm fun ⟨hfeature, hissuer⟩ => ⟨hissuer.symm, hfeature⟩)
  · obtain ⟨rfl, decoded⟩ := hm
    injection hkey with hclass hid
    rw [ownerOf_of_load? hsome, ownerOf_of_load? hsome']
    exact .sent decoded hclass.symm hid.symm (hclass ▸ known) receiver
      (checkSender_eq_ok.mp checked)

/-- After any calls of a chain with a Coreum factory, the owners recorded before and after a
transaction are the ones reported, and where they differ one of the rules has been followed. -/
theorem owner_change (c : Chain) (hcore : c.stargate.core = .factory .coreum config)
    (calls : List Call) (sender : String) (message : Message) (classId id : String) :
    c.Reports (c.run calls) classId id (ownerOf (c.run calls) classId id) ∧
      c.Reports (c.executeTx sender message (c.run calls)).store classId id
        (ownerOf (c.executeTx sender message (c.run calls)).store classId id) ∧
      (ownerOf (c.run calls) classId id ≠
          ownerOf (c.executeTx sender message (c.run calls)).store classId id →
        OwnerChange sender (c.run calls) classId id message (ownerOf (c.run calls) classId id)
          (ownerOf (c.executeTx sender message (c.run calls)).store classId id)) := by
  refine ⟨reports_ownerOf hcore _ _ _, reports_ownerOf hcore _ _ _, fun hne => ?_⟩
  rcases call_coreum_cases hcore (c.run calls) (.tx sender message) with
    hout | ⟨sender', typeUrl, value, m, htx, hm, heffect⟩
  · have hnfts : Store.SameUnder nfts.root (c.run calls) (c.call (c.run calls) _) :=
      RecordMap.sameUnder_of_sameOutside hout (by decide)
    exact absurd (ownerOf_congr (RecordMap.load?_congr hnfts _)).symm hne
  · injection htx with hsender hmessage
    subst hsender hmessage
    exact ownerChange_of_effect hm heffect hne

/-- The payload that mints an NFT of the small gallery for another account. -/
def smallMint : Bytes := [204, 97, 133, 97, 114, 116, 45, 97, 49, 128, 128, 192, 98]

/-- The issuer of a class mints an NFT of it. -/
theorem owner_change_mint :
    OwnerChange "a" ((small .coreum).run smallGallery) "art-a" "1"
      (.stargate MintNft.typeUrl smallMint) none (some "b") := by
  have hbefore : ownerOf ((small .coreum).run smallGallery) "art-a" "1" = none := by
    decide +kernel
  have hafter : ownerOf ((small .coreum).executeTx "a" (.stargate MintNft.typeUrl smallMint)
      ((small .coreum).run smallGallery)).store "art-a" "1" = some "b" := by
    decide +kernel
  obtain ⟨-, -, hchange⟩ := owner_change (small .coreum) rfl smallGallery "a"
    (.stargate MintNft.typeUrl smallMint) "art-a" "1"
  rw [hbefore, hafter] at hchange
  exact hchange (by decide)

end TokenLedger.Chain
