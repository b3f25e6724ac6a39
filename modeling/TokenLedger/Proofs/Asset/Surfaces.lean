import TokenLedger.Chain.Module
import TokenLedger.Proofs.Json.Shape
import TokenLedger.Proofs.Message

/-!
# The two query surfaces

A question about assets reaches a factory as a wire request on one of seven paths, or the custom
module as a JSON object.  Each surface reads its requests and writes its answers of its own accord;
they share how the records are read and how an asset is shown.  Path by path the factory answers a
request as the custom module answers the question in it (`query_path`), and the custom module reads
that question in whatever asks the same, so that the two agree whatever the store holds.
-/

namespace TokenLedger

open Wire

theorem Noted.result_bind {α β : Type} (x : Noted α) (f : α → Noted β) :
    (x >>= f).result = x.result >>= fun a => (f a).result := by
  show (Noted.bind x f).result = _
  unfold Noted.bind
  cases x.result <;> rfl

theorem Noted.result_bind_of_ok {α β : Type} {x : Noted α} {f : α → Noted β} {a : α}
    (h : x.result = .ok a) : (x >>= f).result = (f a).result := by
  rw [Noted.result_bind, h]
  rfl

theorem Noted.result_ofExcept_bind {α β : Type} {x : Except Fault α} {f : α → Noted β} {a : α}
    (h : x = .ok a) : (Noted.ofExcept x >>= f).result = (f a).result :=
  Noted.result_bind_of_ok h

namespace Asset

/-! ### Reading custom queries -/

/-- A question is read in three steps. -/
theorem readCustom_steps {request : Json} {q : Query} :
    (readCustom request).result = .ok q ↔
      ∃ c body variant arguments, readCategory request = .ok (c, body) ∧
        readVariant c body = .ok (variant, arguments) ∧
          readArguments c variant arguments = .ok (some q) := by
  constructor
  · intro h
    unfold readCustom at h
    rw [Noted.result_bind] at h
    obtain ⟨⟨c, body⟩, hcategory, h⟩ := Except.bind_eq_ok.mp h
    dsimp only at h
    rw [Noted.result_bind] at h
    obtain ⟨⟨variant, arguments⟩, hvariant, h⟩ := Except.bind_eq_ok.mp h
    dsimp only at h
    rw [Noted.result_bind_of_ok rfl, Noted.result_bind] at h
    obtain ⟨found, harguments, h⟩ := Except.bind_eq_ok.mp h
    cases found with
    | none => cases h
    | some found =>
      obtain rfl := Except.ok.inj h
      exact ⟨c, body, variant, arguments, hcategory, hvariant, harguments⟩
  · rintro ⟨c, body, variant, arguments, hcategory, hvariant, harguments⟩
    unfold readCustom
    rw [Noted.result_ofExcept_bind hcategory]
    dsimp only
    rw [Noted.result_ofExcept_bind hvariant]
    dsimp only
    rw [Noted.result_bind_of_ok rfl, Noted.result_ofExcept_bind harguments]
    rfl

/-! ### Wire requests -/

/-- A request on one of the seven query paths. -/
inductive Inquiry
  | token (m : TokenRequest)
  | tokens (m : TokensRequest)
  | nftClass (m : ClassRequest)
  | nftClasses (m : ClassesRequest)
  | nft (m : NftRequest)
  | nfts (m : NftsRequest)
  | owner (m : OwnerRequest)
deriving DecidableEq, Repr

namespace Inquiry

/-- The type of the message. -/
def type : Inquiry → MessageType
  | token _ => .token
  | tokens _ => .tokens
  | nftClass _ => .nftClass
  | nftClasses _ => .nftClasses
  | nft _ => .nft
  | nfts _ => .nfts
  | owner _ => .owner

/-- The message. -/
def message : (r : Inquiry) → r.type.Message
  | token m => m
  | tokens m => m
  | nftClass m => m
  | nftClasses m => m
  | nft m => m
  | nfts m => m
  | owner m => m

/-- The query path. -/
def path : Inquiry → String
  | token _ => TokenRequest.path
  | tokens _ => TokensRequest.path
  | nftClass _ => ClassRequest.path
  | nftClasses _ => ClassesRequest.path
  | nft _ => NftRequest.path
  | nfts _ => NftsRequest.path
  | owner _ => OwnerRequest.path

/-- The bytes that are sent to the path. -/
def encode (r : Inquiry) : Except Fault Bytes := r.type.codec.encode r.message

/-- The offset and the limit of a page, where there is one, are natural numbers. -/
def InRange (r : Inquiry) : Prop := r.type.InRange r.message

/-- What is asked. -/
def question : Inquiry → Query
  | token m => .token m.denom
  | tokens m => .tokens m.issuer
  | nftClass m => .nftClass m.id
  | nftClasses m => .nftClasses m.issuer
  | nft m => .nft m.classId m.id
  | nfts m => .nfts (filterOf m.classId) (filterOf m.owner)
  | owner m => .ownerOf m.classId m.id

variable {r : Inquiry} {raw : Bytes}

theorem inRange_of_encode (h : r.encode = .ok raw) : r.InRange := by
  obtain ⟨items, -, hitems⟩ := Codec.encode_eq_ok h
  have hfit : r.type.NumbersFit r.message := by cases r <;> trivial
  exact MessageType.inRange_of_write hitems hfit

theorem encode_of_inRange (h : r.InRange) : ∃ raw, r.encode = .ok raw := by
  obtain ⟨raw, hraw, -⟩ := Codec.decode_encode (r.type.readsBack_row r.message h)
  exact ⟨raw, hraw⟩

theorem decode_encode (h : r.encode = .ok raw) (hlength : raw.length < 2 ^ 64) :
    r.type.codec.decode raw = .ok r.message := by
  have hrow := r.type.readsBack_row r.message (inRange_of_encode h)
  exact Codec.decode_of_encode hrow h hlength

/-! ### Custom queries -/

/-- The category in which the custom module answers the question. -/
def category : Inquiry → Category
  | token _ | tokens _ => .assetFt
  | nftClass _ | nftClasses _ => .assetNft
  | nft _ | nfts _ | owner _ => .nft

/-- The variant in the category. -/
def variant : Inquiry → String
  | token _ => "token"
  | tokens _ => "tokens"
  | nftClass _ => "class"
  | nftClasses _ => "classes"
  | nft _ => "nft"
  | nfts _ => "nfts"
  | owner _ => "owner"

/-- A member is a text. -/
def HasText (members : List (String × Json)) (name s : String) : Prop :=
  Json.find? name members = some (.str s)

/-- A member is a filter; for the empty one it is missing or null. -/
def HasFilter (members : List (String × Json)) (name s : String) : Prop :=
  if s = "" then Json.find? name members = none ∨ Json.find? name members = some .null
  else HasText members name s

/-- Arguments that ask the same; members without a meaning may stand among them. -/
def AskedBy (arguments : List (String × Json)) : Inquiry → Prop
  | token m => HasText arguments "denom" m.denom
  | tokens m => HasText arguments "issuer" m.issuer
  | nftClass m => HasText arguments "id" m.id
  | nftClasses m => HasText arguments "issuer" m.issuer
  | nft m => HasText arguments "class_id" m.classId ∧ HasText arguments "id" m.id
  | nfts m => HasFilter arguments "class_id" m.classId ∧ HasFilter arguments "owner" m.owner
  | owner m => HasText arguments "class_id" m.classId ∧ HasText arguments "id" m.id

/-- The custom query with the given arguments. -/
def custom (r : Inquiry) (arguments : List (String × Json)) : Json :=
  .obj [(r.category.name, .obj [(r.variant, .obj arguments)])]

variable {arguments : List (String × Json)} {name s classId id owner : String}

theorem textArgument_eq_valid {j : Json} :
    textArgument name j = .valid s ↔
      ∃ members, j.members? = some members ∧ HasText members name s := by
  unfold textArgument HasText
  simp only [Shape.object_eq_valid, Shape.member_text_eq_valid]

theorem nftArguments_eq_valid {j : Json} :
    nftArguments j = .valid (classId, id) ↔
      ∃ members, j.members? = some members ∧
        HasText members "class_id" classId ∧ HasText members "id" id := by
  unfold nftArguments HasText
  simp [Shape.object_eq_valid, Shape.member_text_eq_valid, Checked.seq_eq_valid,
    Checked.map_eq_valid]

theorem optionalMember_of_hasFilter (h : HasFilter arguments name s) :
    Shape.optionalMember name .text arguments = .valid (filterOf s) := by
  rw [Shape.optionalMember_text_eq_valid]
  unfold filterOf
  unfold HasFilter at h
  split_ifs at h ⊢ with hs
  · rcases h with hmissing | hnull
    · exact Or.inl ⟨hmissing, rfl⟩
    · exact Or.inr hnull
  · exact Or.inr h

theorem textArgument_of_hasText (h : HasText arguments name s) :
    textArgument name (.obj arguments) = .valid s := textArgument_eq_valid.mpr ⟨_, rfl, h⟩

theorem nftArguments_of_hasText (hclass : HasText arguments "class_id" classId)
    (hid : HasText arguments "id" id) : nftArguments (.obj arguments) = .valid (classId, id) :=
  nftArguments_eq_valid.mpr ⟨_, rfl, hclass, hid⟩

theorem nftsArguments_of_hasFilter (hclass : HasFilter arguments "class_id" classId)
    (howner : HasFilter arguments "owner" owner) :
    nftsArguments (.obj arguments) = .valid (filterOf classId, filterOf owner) := by
  show Prod.mk <$> Shape.optionalMember "class_id" .text arguments <*>
    Shape.optionalMember "owner" .text arguments = _
  rw [optionalMember_of_hasFilter hclass, optionalMember_of_hasFilter howner]
  rfl

/-- Arguments that ask the same are read as what is asked. -/
theorem readArguments_of_askedBy (h : r.AskedBy arguments) :
    readArguments r.category r.variant (.obj arguments) = .ok (some r.question) := by
  cases r with
  | token m =>
    show _ <$> (textArgument "denom" (.obj arguments)).orFault "asset_ft.token" = _
    rw [textArgument_of_hasText h]
    rfl
  | tokens m =>
    show _ <$> (textArgument "issuer" (.obj arguments)).orFault "asset_ft.tokens" = _
    rw [textArgument_of_hasText h]
    rfl
  | nftClass m =>
    show _ <$> (textArgument "id" (.obj arguments)).orFault "asset_nft.class" = _
    rw [textArgument_of_hasText h]
    rfl
  | nftClasses m =>
    show _ <$> (textArgument "issuer" (.obj arguments)).orFault "asset_nft.classes" = _
    rw [textArgument_of_hasText h]
    rfl
  | nft m =>
    show _ <$> (nftArguments (.obj arguments)).orFault "nft.nft" = _
    rw [nftArguments_of_hasText h.1 h.2]
    rfl
  | nfts m =>
    show _ <$> (nftsArguments (.obj arguments)).orFault "nft.nfts" = _
    rw [nftsArguments_of_hasFilter h.1 h.2]
    rfl
  | owner m =>
    show _ <$> (nftArguments (.obj arguments)).orFault "nft.owner" = _
    rw [nftArguments_of_hasText h.1 h.2]
    rfl

/-- A custom query is read as what is asked. -/
theorem readCustom_of_askedBy (h : r.AskedBy arguments) :
    (readCustom (r.custom arguments)).result = .ok r.question := by
  have hcategory : readCategory (r.custom arguments) =
      .ok (r.category, [(r.variant, .obj arguments)]) := by
    cases r <;> rfl
  have hvariant : readVariant r.category [(r.variant, .obj arguments)] =
      .ok (r.variant, .obj arguments) := by
    cases r <;> rfl
  exact readCustom_steps.mpr ⟨_, _, _, _, hcategory, hvariant, readArguments_of_askedBy h⟩

/-! ### Agreement -/

variable (config : FactoryConfig) (querier : Querier) (block : Block) (s : Store)

/-- A request is answered by reading what it names and writing down what is read. -/
theorem answered {μ α : Type} {decoded : Except Fault μ} {m : μ} (h : decoded = .ok m)
    (read : μ → Except Fault α) (answer : μ → α → Json) :
    (decoded >>= fun m => read m >>= fun a => .ok (answer m a).toBytes) =
      Json.toBytes <$> (read m >>= fun a => .ok (answer m a)) := by
  rw [h]
  show (read m >>= fun a => Except.ok (answer m a).toBytes) = _
  cases read m <;> rfl

/-- On the path of a request, the factory answers as the custom module answers what is asked.  The
switch comes to one branch a path; both sides read the records alike and show what they read. -/
theorem query_path (h : r.type.codec.decode raw = .ok r.message) :
    Factory.Coreum.query config s r.path raw = r.question.answer config.feeDenom s := by
  cases r with
  | token m =>
    have hdecode : TokenRequest.codec.decode raw = .ok m := h
    have hanswer := answered hdecode (fun m => showToken config.feeDenom s m.denom)
      fun _ token => .obj [("token", token)]
    exact hanswer
  | tokens m =>
    have hdecode : TokensRequest.codec.decode raw = .ok m := h
    have hanswer := answered hdecode (fun m => showTokens s (filterOf m.issuer))
      fun _ tokens => .obj [("tokens", .arr tokens), ("pagination", emptyPage)]
    exact hanswer
  | nftClass m =>
    have hdecode : ClassRequest.codec.decode raw = .ok m := h
    have hanswer := answered hdecode (fun m => loadClass s m.id)
      fun m cls => .obj [("class", cls.view m.id)]
    exact hanswer
  | nftClasses m =>
    have hdecode : ClassesRequest.codec.decode raw = .ok m := h
    have hanswer := answered hdecode (fun m => listClasses s (filterOf m.issuer))
      fun _ listed =>
        .obj [("classes", .arr (listed.map fun e => e.2.view e.1)), ("pagination", emptyPage)]
    exact hanswer
  | nft m =>
    have hdecode : NftRequest.codec.decode raw = .ok m := h
    have hanswer := answered hdecode (fun m => loadNft s m.classId m.id)
      fun _ nft => .obj [("nft", nft.view)]
    exact hanswer
  | nfts m =>
    have hdecode : NftsRequest.codec.decode raw = .ok m := h
    have hanswer := answered hdecode
      (fun m => listNfts s (filterOf m.classId) (filterOf m.owner))
      fun _ listed =>
        .obj [("nfts", .arr (listed.map StoredNft.view)), ("pagination", emptyPage)]
    exact hanswer
  | owner m =>
    have hdecode : OwnerRequest.codec.decode raw = .ok m := h
    have hanswer := answered hdecode (fun m => loadNft s m.classId m.id)
      fun _ nft => .obj [("owner", .str nft.owner)]
    exact hanswer

theorem query_factory (h : r.encode = .ok raw) (hlength : raw.length < 2 ^ 64) :
    ((StargateModule.factory .coreum config).query querier block s r.path raw).result =
      r.question.answer config.feeDenom s :=
  query_path config s (decode_encode h hlength)

theorem query_customModule (h : r.AskedBy arguments) :
    ((CustomModule.forFactory config).query s (r.custom arguments)).result =
      r.question.answer config.feeDenom s := by
  show (answerCustom config.feeDenom s (r.custom arguments)).result = _
  unfold answerCustom
  rw [Noted.result_bind_of_ok (readCustom_of_askedBy h)]
  rfl

/-- **The two surfaces agree.**  A request in range has bytes.  Whatever bytes it has, the factory
answers them as the custom module answers a custom query that asks the same: with equal bytes or
with equal faults, from every store. -/
theorem surfaces_agree (r : Inquiry) (h : r.AskedBy arguments) :
    (r.InRange → ∃ raw, r.encode = .ok raw) ∧
      ∀ raw, r.encode = .ok raw → raw.length < 2 ^ 64 →
        ((StargateModule.factory .coreum config).query querier block s r.path raw).result =
          ((CustomModule.forFactory config).query s (r.custom arguments)).result := by
  refine ⟨encode_of_inRange, fun raw hraw hlength => ?_⟩
  rw [query_factory config querier block s hraw hlength, query_customModule config s h]

/-- Asks for the NFTs of an account, whatever their class. -/
def ofAccount : Inquiry := .nfts ⟨"", "b", some ⟨[], 0, 0, false, false⟩⟩

/-- An NFT of that account. -/
def painting : StoredNft := ⟨"art-a", "1", "b", "", none⟩

/-- A store that holds the NFT and nothing else. -/
def studio : Store := (Asset.nfts.save Store.empty ("art-a", "1") painting).toOption.getD Store.empty

/-- The one NFT is listed alike, with a null in the place of the empty filter. -/
theorem surfaces_agree_painting :
    ofAccount.encode = .ok [200, 128, 98, 197, 128, 128, 128, 128, 128] ∧
      listNfts studio none (some "b") = .ok [painting] ∧
      ((StargateModule.factory .coreum (.standard .coreum)).query
        (fun _ => .ok (.systemError "")) .standard studio ofAccount.path
        [200, 128, 98, 197, 128, 128, 128, 128, 128]).result =
        ((CustomModule.forFactory (.standard .coreum)).query studio
          (ofAccount.custom [("owner", .str "b"), ("class_id", .null)])).result ∧
      ((CustomModule.forFactory (.standard .coreum)).query studio
        (ofAccount.custom [("owner", .str "b"), ("class_id", .null)])).result =
        .ok (Json.obj [("nfts", .arr [.obj [("class_id", .str "art-a"), ("id", .str "1"),
          ("uri", .null), ("uri_hash", .null), ("data", .null)]]),
          ("pagination", .obj [("next_key", .null), ("total", .num 0)])]).toBytes := by
  have hasked : ofAccount.AskedBy [("owner", .str "b"), ("class_id", .null)] :=
    ⟨Or.inr rfl, rfl⟩
  have hencode : ofAccount.encode = .ok [200, 128, 98, 197, 128, 128, 128, 128, 128] := rfl
  have hlist : listNfts studio none (some "b") = .ok [painting] :=
    Except.eq_ok_of_toOption (by decide +kernel)
  obtain ⟨-, hagree⟩ := surfaces_agree (.standard .coreum) (fun _ => .ok (.systemError ""))
    .standard studio ofAccount hasked
  refine ⟨hencode, hlist, hagree _ hencode (by decide), ?_⟩
  rw [query_customModule (.standard .coreum) studio hasked]
  show Json.toBytes <$> (listNfts studio none (some "b") >>= fun listed =>
    Except.ok (Json.obj [("nfts", .arr (listed.map StoredNft.view)), ("pagination", emptyPage)])) = _
  rw [hlist]
  rfl

end Inquiry

end Asset

end TokenLedger
