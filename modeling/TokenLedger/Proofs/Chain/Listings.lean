import TokenLedger.Proofs.Chain.Ownership
import TokenLedger.Proofs.Chain.Registry
import TokenLedger.Proofs.Store.Order

/-!
# Listings of NFTs and classes

The listings go through all records and keep those whose fields pass the filters, whereas the other
queries look a record up under its key.  Every NFT is recorded under its own class and id
(`NftsPlaced`), so that the two agree.  The order is that of the keys, in which the length of a
class id counts before its characters.
-/

namespace TokenLedger.Chain

open Asset Factory.Coreum

variable {c : Chain} {config : FactoryConfig} {s : Store} {id : String} {cls : StoredClass}

/-- The JSON of what an asset carries, which is the base64 of the bytes without their type. -/
def shownData : Option StoredBlob → Json
  | none => .null
  | some b => .str b.value

/-! ### NFTs -/

/-- What a listing shows for a class and an owner, either of which may be left empty: live NFTs,
each once, in the order of their keys and under its own class and id. -/
structure ListsNfts (s : Store) (classId owner : String)
    (listed : List ((String × String) × StoredNft)) : Prop where
  ascending : listed.Pairwise fun x y => Key.Before x.1 y.1
  mem : ∀ key n, (key, n) ∈ listed ↔ nfts.load? s key = .ok (some n) ∧
    (classId = "" ∨ key.1 = classId) ∧ (owner = "" ∨ n.owner = owner)
  named : ∀ key n, (key, n) ∈ listed → (n.classId, n.id) = key

/-- The store determines what is listed, and in which order. -/
theorem ListsNfts.unique {classId owner : String}
    {listed listed' : List ((String × String) × StoredNft)} (h : ListsNfts s classId owner listed)
    (h' : ListsNfts s classId owner listed') : listed = listed' := by
  have hasymm : Std.Asymm fun x y : (String × String) × StoredNft => Key.Before x.1 y.1 :=
    ⟨fun _ _ => Key.Before.asymm⟩
  refine List.Pairwise.eq_of_mem_iff h.ascending h'.ascending ?_
  rintro ⟨key, n⟩
  rw [h.mem, h'.mem]

/-- The JSON that shows an NFT under a class and an id. -/
def shownNft (key : String × String) (n : StoredNft) : Json :=
  .obj [("class_id", .str key.1), ("id", .str key.2),
    ("uri", if n.uri = "" then .null else .str n.uri), ("uri_hash", .null),
    ("data", shownData n.data)]

/-- The answer that lists NFTs, all on one page. -/
def nftsAnswer (listed : List ((String × String) × StoredNft)) : Bytes :=
  (Json.obj [("nfts", .arr (listed.map fun e => shownNft e.1 e.2)),
    ("pagination", .obj [("next_key", .null), ("total", .num 0)])]).toBytes

/-- An NFT is shown under its own class and id. -/
theorem view_eq_shownNft (n : StoredNft) : n.view = shownNft (n.classId, n.id) n := by
  unfold StoredNft.view shownNft
  cases n.data <;> rfl

/-- Whether a record passes the filters on the class and the owner. -/
def keepsNft (classId owner : String) (e : (String × String) × StoredNft) : Bool :=
  passes (filterOf classId) e.2.classId && passes (filterOf owner) e.2.owner

theorem keepsNft_iff {classId owner : String} {e : (String × String) × StoredNft} :
    keepsNft classId owner e = true ↔
      (classId = "" ∨ e.2.classId = classId) ∧ (owner = "" ∨ e.2.owner = owner) := by
  rw [keepsNft, Bool.and_eq_true, passes_filterOf, passes_filterOf]

/-- Filtered by the fields of the records, a listing has what the keys promise. -/
theorem listsNfts_filter {all : List ((String × String) × StoredNft)} (hs : NftsPlaced s)
    (hall : nfts.entries s .ascending = .ok all) (classId owner : String) :
    ListsNfts s classId owner (all.filter (keepsNft classId owner)) := by
  have hkeep (key : String × String) (n : StoredNft) : keepsNft classId owner (key, n) = true ↔
      (classId = "" ∨ n.classId = classId) ∧ (owner = "" ∨ n.owner = owner) := keepsNft_iff
  have hlists := RecordMap.lists_filter hs hall hkeep
  constructor
  case ascending => exact hlists.ascending.imp (RecordMap.Below.before_of_pair rfl)
  case mem =>
    intro key n
    rw [hlists.mem]
    refine and_congr_right fun hload => ?_
    obtain ⟨-, hclass, -⟩ := RecordMap.Holds.of_load? hs hload
    rw [hclass]
  case named =>
    intro key n hlisted
    obtain ⟨-, hclass, hid, -⟩ := RecordMap.Holds.of_load? hs ((hlists.mem key n).mp hlisted).1
    exact Prod.ext hclass hid

/-- What is listed is shown under the keys, since every NFT is recorded under its own one. -/
theorem map_view_listed {classId owner : String} {listed : List ((String × String) × StoredNft)}
    (h : ListsNfts s classId owner listed) :
    (listed.map (·.2)).map StoredNft.view = listed.map fun e => shownNft e.1 e.2 := by
  rw [List.map_map]
  refine List.map_congr_left fun e he => ?_
  show e.2.view = _
  rw [view_eq_shownNft, h.named e.1 e.2 he]

theorem answers_nfts (hcore : c.stargate.core = .factory .coreum config) (hs : NftsPlaced s)
    {all : List ((String × String) × StoredNft)} (hall : nfts.entries s .ascending = .ok all)
    (classId owner : String) (page : Option PageRequest) :
    c.Answers s .nfts NftsRequest.path ⟨classId, owner, page⟩
      (.ok (nftsAnswer (all.filter (keepsNft classId owner)))) := by
  have hanswer : (Asset.Query.nfts (filterOf classId) (filterOf owner)).answer config.feeDenom s =
      .ok (nftsAnswer (all.filter (keepsNft classId owner))) := by
    have hlist : listNfts s (filterOf classId) (filterOf owner) =
        .ok ((all.filter (keepsNft classId owner)).map (·.2)) := by
      unfold listNfts
      rw [hall]
      show Except.ok _ = _
      rw [List.filter_map]
      rfl
    show Json.toBytes <$> (listNfts s (filterOf classId) (filterOf owner) >>= fun listed =>
      Except.ok (Json.obj [("nfts", .arr (listed.map StoredNft.view)),
        ("pagination", emptyPage)])) = _
    rw [hlist]
    show Except.ok (Json.obj [("nfts", .arr (List.map StoredNft.view (List.map _ _))),
      ("pagination", emptyPage)]).toBytes = _
    rw [map_view_listed (listsNfts_filter hs hall classId owner)]
    rfl
  rw [← hanswer]
  exact answers_inquiry hcore s (.nfts ⟨classId, owner, page⟩)

/-- The query for the owner of a live NFT answers the owner that is recorded. -/
theorem answers_owner (hcore : c.stargate.core = .factory .coreum config) {classId : String}
    {n : StoredNft} (hload : nfts.load? s (classId, id) = .ok (some n)) :
    c.Answers s .owner OwnerRequest.path ⟨classId, id⟩
      (.ok (Json.obj [("owner", .str n.owner)]).toBytes) := by
  have hanswer : (Asset.Query.ownerOf classId id).answer config.feeDenom s =
      .ok (Json.obj [("owner", .str n.owner)]).toBytes := by
    rw [answer_ownerOf, hload]
  rw [← hanswer]
  exact answers_inquiry hcore s (.owner ⟨classId, id⟩)

/-! ### Classes -/

/-- What a listing shows for an issuer, who may be left empty: classes, each once and in the order
of the bytes of their ids. -/
structure ListsClasses (s : Store) (issuer : String) (listed : List (String × StoredClass)) :
    Prop where
  ascending : listed.Pairwise fun x y => Utf8.encode x.1 < Utf8.encode y.1
  mem : ∀ id cls, (id, cls) ∈ listed ↔ classes.load? s id = .ok (some cls) ∧
    (issuer = "" ∨ cls.issuer = issuer)

/-- The JSON that shows a class under an id; features are shown by their numbers. -/
def shownClass (id : String) (cls : StoredClass) : Json :=
  .obj [("id", .str id), ("issuer", .str cls.issuer), ("name", .str cls.name),
    ("symbol", .str cls.symbol), ("description", .str cls.description), ("uri", .str cls.uri),
    ("uri_hash", .str cls.uriHash),
    ("features", .arr (cls.features.map fun f => .num (Number.ofNat f.code))),
    ("data", shownData cls.data), ("royalty_rate", .str "0")]

/-- The answer that lists classes, all on one page. -/
def classesAnswer (listed : List (String × StoredClass)) : Bytes :=
  (Json.obj [("classes", .arr (listed.map fun e => shownClass e.1 e.2)),
    ("pagination", .obj [("next_key", .null), ("total", .num 0)])]).toBytes

theorem view_eq_shownClass (id : String) (cls : StoredClass) : cls.view id = shownClass id cls := by
  unfold StoredClass.view shownClass
  cases cls.data <;> rfl

/-- Whether a record passes the filter on the issuer. -/
def keepsClass (issuer : String) (e : String × StoredClass) : Bool :=
  passes (filterOf issuer) e.2.issuer

/-- The classes of an issuer are listed, and the answer is that list. -/
theorem exists_listsClasses (hcore : c.stargate.core = .factory .coreum config)
    (hs : ClassesNamed s) (issuer : String) :
    ∃ listed, ListsClasses s issuer listed ∧ ∀ page,
      c.Answers s .nftClasses ClassesRequest.path ⟨page, issuer⟩ (.ok (classesAnswer listed)) := by
  obtain ⟨all, hall, -⟩ := RecordMap.Holds.listing hs
  have hkeep (id : String) (cls : StoredClass) : keepsClass issuer (id, cls) = true ↔
      issuer = "" ∨ cls.issuer = issuer := passes_filterOf
  have hlists := RecordMap.lists_filter hs hall hkeep
  refine ⟨_, ⟨hlists.ascending.imp (RecordMap.Below.encode_lt_of_text rfl), hlists.mem⟩, ?_⟩
  intro page
  have hanswer : (Asset.Query.nftClasses issuer).answer config.feeDenom s =
      .ok (classesAnswer (all.filter (keepsClass issuer))) := by
    have hlist : listClasses s (filterOf issuer) = .ok (all.filter (keepsClass issuer)) := by
      unfold listClasses
      rw [hall]
      rfl
    unfold Query.answer Query.answerJson
    dsimp only
    rw [hlist]
    simp only [classesAnswer, ← view_eq_shownClass]
    rfl
  rw [← hanswer]
  exact answers_inquiry hcore s (.nftClasses ⟨page, issuer⟩)

theorem answers_nftClass (hcore : c.stargate.core = .factory .coreum config)
    (hload : classes.load? s id = .ok (some cls)) :
    c.Answers s .nftClass ClassRequest.path ⟨id⟩
      (.ok (Json.obj [("class", shownClass id cls)]).toBytes) := by
  have hanswer : (Asset.Query.nftClass id).answer config.feeDenom s =
      .ok (Json.obj [("class", shownClass id cls)]).toBytes := by
    rw [← view_eq_shownClass]
    show Json.toBytes <$>
      (loadClass s id >>= fun c => Except.ok (Json.obj [("class", c.view id)])) = _
    unfold loadClass
    rw [hload]
    rfl
  rw [← hanswer]
  exact answers_inquiry hcore s (.nftClass ⟨id⟩)

/-! ### Both -/

/-- **Listings are complete, without repetitions and in order.**  After any calls: the query for the
NFTs of a class and an owner, either of which may be left empty, answers exactly the live NFTs with
that class and that owner, each once, in the order of their keys, as a part of the answer without
filters; a live NFT that has an owner is listed for that owner and for no other one, and the query
for its owner answers that owner; and the query for the classes of an issuer, who may be left empty,
answers exactly those classes, each once, in the order of the bytes of their ids and as the query
for the class shows it. -/
theorem listings_complete (c : Chain) (hcore : c.stargate.core = .factory .coreum config)
    (calls : List Call) :
    (∃ listed : String → String → List ((String × String) × StoredNft),
      (∀ classId owner, ListsNfts (c.run calls) classId owner (listed classId owner) ∧
        (listed classId owner).Sublist (listed "" "") ∧
        ∀ page, c.Answers (c.run calls) .nfts NftsRequest.path ⟨classId, owner, page⟩
          (.ok (nftsAnswer (listed classId owner)))) ∧
      ∀ classId id n, nfts.load? (c.run calls) (classId, id) = .ok (some n) → n.owner ≠ "" →
        (∀ owner, owner ≠ "" →
          ((classId, id) ∈ (listed "" owner).map (·.1) ↔ owner = n.owner)) ∧
        c.Answers (c.run calls) .owner OwnerRequest.path ⟨classId, id⟩
          (.ok (Json.obj [("owner", .str n.owner)]).toBytes)) ∧
    ∀ issuer, ∃ listed, ListsClasses (c.run calls) issuer listed ∧
      (∀ page, c.Answers (c.run calls) .nftClasses ClassesRequest.path ⟨page, issuer⟩
        (.ok (classesAnswer listed))) ∧
      ∀ id cls, (id, cls) ∈ listed → c.Answers (c.run calls) .nftClass ClassRequest.path ⟨id⟩
        (.ok (Json.obj [("class", shownClass id cls)]).toBytes) := by
  have hplaced : NftsPlaced (c.run calls) := run_nftsPlaced hcore calls
  obtain ⟨all, hall, -⟩ := RecordMap.Holds.listing hplaced
  have hlists := listsNfts_filter hplaced hall
  refine ⟨⟨fun classId owner => all.filter (keepsNft classId owner), ?_, ?_⟩, fun issuer => ?_⟩
  · intro classId owner
    have hsublist :
        (all.filter (keepsNft classId owner)).Sublist (all.filter (keepsNft "" "")) := by
      have hnone : all.filter (keepsNft "" "") = all := List.filter_eq_self.mpr fun _ _ => rfl
      rw [hnone]
      exact List.filter_sublist
    exact ⟨hlists classId owner, hsublist, answers_nfts hcore hplaced hall classId owner⟩
  · intro classId id n hload hn
    refine ⟨fun owner howner => ?_, answers_owner hcore hload⟩
    constructor
    · intro hmem
      obtain ⟨⟨key, n'⟩, hlisted, rfl⟩ := List.mem_map.mp hmem
      obtain ⟨hload', -, howner'⟩ := ((hlists "" owner).mem _ n').mp hlisted
      obtain rfl := Option.some.inj (Except.ok.inj (hload.symm.trans hload'))
      exact (howner'.resolve_left howner).symm
    · rintro rfl
      have hlisted := ((hlists "" n.owner).mem (classId, id) n).mpr
        ⟨hload, Or.inl rfl, Or.inr rfl⟩
      exact List.mem_map.mpr ⟨_, hlisted, rfl⟩
  · obtain ⟨listed, hlisted, hanswers⟩ :=
      exists_listsClasses hcore (run_classesNamed hcore calls) issuer
    refine ⟨listed, hlisted, hanswers, fun id cls hmem => ?_⟩
    exact answers_nftClass hcore ((hlisted.mem id cls).mp hmem).1

/-- The calls that issue the small class and mint an NFT of it. -/
def smallCollection : List Call := smallGallery ++ [.tx "a" (.stargate MintNft.typeUrl smallMint)]

/-- An NFT is listed for its owner and not for the issuer, who has minted it; the answer to the
owner's listing is spelled out. -/
theorem listings_complete_small :
    ∃ listed : String → List ((String × String) × StoredNft),
      (∀ owner, ListsNfts ((small .coreum).run smallCollection) "" owner (listed owner)) ∧
        ("art-a", "1") ∈ (listed "b").map (·.1) ∧ ("art-a", "1") ∉ (listed "a").map (·.1) ∧
        NftsRequest.codec.encode ⟨"", "b", none⟩ = .ok [195, 128, 98, 192] ∧
        ((small .coreum).query ((small .coreum).run smallCollection)
          (.stargate NftsRequest.path [195, 128, 98, 192])).result =
            .ok (Json.obj [("nfts", .arr [.obj [("class_id", .str "art-a"), ("id", .str "1"),
              ("uri", .null), ("uri_hash", .null), ("data", .null)]]),
              ("pagination", .obj [("next_key", .null), ("total", .num 0)])]).toBytes := by
  have hcore : (small .coreum).stargate.core = .factory .coreum (.standard .coreum) := rfl
  obtain ⟨⟨listed, hlisted, howners⟩, -⟩ := listings_complete (small .coreum) hcore smallCollection
  obtain ⟨hlists, -, hanswers⟩ := hlisted "" "b"
  have hall : nfts.entries ((small .coreum).run smallCollection) .ascending =
      .ok [(("art-a", "1"), ⟨"art-a", "1", "b", "", none⟩)] :=
    Except.eq_ok_of_toOption (by decide +kernel)
  -- there is no other NFT, so that the listing of the owner is this one
  have hone := hlists.unique (listsNfts_filter (run_nftsPlaced hcore smallCollection) hall "" "b")
  have hload := ((hlists.mem ("art-a", "1") ⟨"art-a", "1", "b", "", none⟩).mp
    (hone ▸ List.mem_singleton_self _)).1
  obtain ⟨hiff, -⟩ := howners "art-a" "1" _ hload (by decide)
  have hencode : NftsRequest.codec.encode ⟨"", "b", none⟩ = .ok [195, 128, 98, 192] := rfl
  have hanswer := (hanswers none).answered [195, 128, 98, 192] hencode (by decide)
  rw [hone] at hanswer
  refine ⟨listed "", fun owner => (hlisted "" owner).1, (hiff "b" (by decide)).mpr rfl, ?_,
    hencode, hanswer⟩
  rw [hiff "a" (by decide)]
  decide

end TokenLedger.Chain
