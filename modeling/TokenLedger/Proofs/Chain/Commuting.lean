import TokenLedger.Proofs.Chain.Classes
import TokenLedger.Proofs.Chain.Footprint

/-!
# Messages about different NFTs commute

A mint, a burn or a send of an NFT reads the records of the NFT and of its class, and writes the
first of them alone.  Pairs of a class and an id are kept in different places even where the two
texts, written one after the other, are the same.  So neither of two messages about different NFTs
writes what the other reads.
-/

namespace TokenLedger.Factory.Coreum

open Asset

variable {config : FactoryConfig} {sender : String} {s t : Store} {m : Message}
  {key key' : String × String} {classId id : String}

/-- The class and the id of the NFT that a message mints, burns or sends. -/
def Message.nft? : Message → Option (String × String)
  | .mintNft m => some (m.classId, m.id)
  | .burnNft m => some (m.classId, m.id)
  | .sendNft m => some (m.classId, m.id)
  | .issue _ | .mint _ | .burn _ | .issueClass _ => none

/-- Where an NFT and its class are recorded. -/
def nftKeys (key : String × String) : Set Bytes := classes.place key.1 ∪ nfts.place key

/-- A message about one NFT does not read where another one is recorded. -/
theorem notMem_place_of_ne (hne : key ≠ key') : ∀ k ∈ nftKeys key, k ∉ nfts.place key' := by
  rintro k (hclass | hnft)
  · exact RecordMap.notMem_place_of_name hclass (by decide)
  · exact RecordMap.notMem_place hnft hne

/-! ### What is read -/

section Readings

variable (h : Store.SameOn (nftKeys (classId, id)) s t)
include h

theorem load?_class_of_sameOn : classes.load? t classId = classes.load? s classId :=
  RecordMap.load?_of_sameOn (h.mono Set.subset_union_left)

theorem load?_nft_of_sameOn : nfts.load? t (classId, id) = nfts.load? s (classId, id) :=
  RecordMap.load?_of_sameOn (h.mono Set.subset_union_right)

theorem has_nft_of_sameOn : nfts.has t (classId, id) = nfts.has s (classId, id) :=
  RecordMap.has_of_sameOn (h.mono Set.subset_union_right)

theorem classToMint_of_sameOn : classToMint classId t = classToMint classId s := by
  unfold classToMint
  rw [load?_class_of_sameOn h]

theorem loadLive_of_sameOn : loadLive classId id t = loadLive classId id s := by
  unfold loadLive
  rw [load?_class_of_sameOn h, load?_nft_of_sameOn h]

end Readings

theorem mintNft_reads (m : MintNft) :
    (mintNft sender m).Reads (nftKeys (m.classId, m.id)) := by
  refine Action.reads_bind Action.reads_require fun _ => ?_
  refine Action.reads_bind (Action.reads_read fun _ _ => classToMint_of_sameOn) fun c => ?_
  refine Action.reads_bind Action.reads_require fun _ => ?_
  refine Action.reads_bind (Action.reads_read fun _ _ => has_nft_of_sameOn) fun taken => ?_
  refine Action.reads_bind Action.reads_require fun _ => ?_
  refine Action.reads_bind Action.reads_save fun _ => ?_
  exact Action.reads_bind Action.reads_log fun _ => Action.reads_pure

theorem burnNft_reads (m : BurnNft) :
    (burnNft sender m).Reads (nftKeys (m.classId, m.id)) := by
  refine Action.reads_bind Action.reads_require fun _ => ?_
  refine Action.reads_bind (Action.reads_read fun _ _ => loadLive_of_sameOn) fun live => ?_
  refine Action.reads_bind Action.reads_log fun _ => ?_
  refine Action.reads_bind Action.reads_require fun _ => ?_
  exact Action.reads_bind Action.reads_delete fun _ => Action.reads_pure

theorem sendNft_reads (m : SendNft) :
    (sendNft sender m).Reads (nftKeys (m.classId, m.id)) := by
  refine Action.reads_bind (Action.reads_read fun _ _ => loadLive_of_sameOn) fun live => ?_
  refine Action.reads_bind Action.reads_ofExcept fun _ => ?_
  refine Action.reads_bind Action.reads_require fun _ => ?_
  refine Action.reads_bind Action.reads_save fun _ => ?_
  exact Action.reads_bind Action.reads_log fun _ => Action.reads_pure

theorem handle_reads (hm : m.nft? = some key) :
    (handle config Bank.host sender m).Reads (nftKeys key) := by
  cases m with
  | issue | mint | burn | issueClass => cases hm
  | mintNft m =>
    obtain rfl := Option.some.inj hm
    exact mintNft_reads m
  | burnNft m =>
    obtain rfl := Option.some.inj hm
    exact burnNft_reads m
  | sendNft m =>
    obtain rfl := Option.some.inj hm
    exact sendNft_reads m

theorem execute_reads {typeUrl : String} {value : Bytes} (hread : m.ReadFrom typeUrl value)
    (hm : m.nft? = some key) :
    (execute config Bank.host sender typeUrl value).Reads (nftKeys key) := by
  rw [execute_of_readFrom hread]
  exact handle_reads hm

/-! ### What is written -/

theorem Effect.sameBut (h : Effect config Bank.host sender m s t) (hm : m.nft? = some key) :
    Store.SameBut (nfts.place key) s t := by
  cases h with
  | issue | mint | burn | issueClass => cases hm
  | mintNft signed known issuer free saved =>
    obtain rfl := Option.some.inj hm
    exact RecordMap.sameBut_save saved
  | burnNft signed known live allowed deleted =>
    obtain rfl := Option.some.inj hm
    exact RecordMap.sameBut_delete deleted
  | sendNft known live checked receiver saved =>
    obtain rfl := Option.some.inj hm
    exact RecordMap.sameBut_save saved

end TokenLedger.Factory.Coreum

namespace TokenLedger.Chain

open Asset Factory.Coreum

variable {c : Chain} {config : FactoryConfig} {typeUrl typeUrl' : String} {value value' : Bytes}
  {key key' : String × String} {m m' : Factory.Coreum.Message}

/-- A transaction about an NFT reads the NFT and its class, and writes the NFT. -/
theorem executeTx_footprint (hcore : c.stargate.core = .factory .coreum config)
    (hread : m.ReadFrom typeUrl value) (hm : m.nft? = some key) (sender : String) :
    (c.executeTx sender (.stargate typeUrl value)).Footprint (nftKeys key) (nfts.place key) where
  reads := by
    have hexecute : (c.execute sender (.stargate typeUrl value)).Reads (nftKeys key) := by
      rw [execute_stargate, hcore]
      exact execute_reads hread hm
    exact hexecute.orUndo
  writes s := by
    rcases executeTx_cases c sender (.stargate typeUrl value) s with
      ⟨e, -, hstore⟩ | ⟨r, t, hrun, -, hstore⟩
    · rw [hstore]
      exact .rfl
    · rw [execute_stargate, hcore] at hrun
      rw [hstore]
      exact (effect_of_readFrom hread hrun).sameBut hm
  subset := Set.subset_union_right

/-- **Messages about different NFTs commute.**  Two messages of any senders, each of which mints,
burns or sends an NFT, name different pairs of a class and an id.  On any store each of them answers
the same whether the other one has been run before or not, be it with a response or with a fault,
and both orders leave the same store. -/
theorem nft_messages_commute (c : Chain) (hcore : c.stargate.core = .factory .coreum config)
    (hread : m.ReadFrom typeUrl value) (hread' : m'.ReadFrom typeUrl' value')
    (hm : m.nft? = some key) (hm' : m'.nft? = some key') (hne : key ≠ key') (a b : String)
    (s : Store) :
    let first := c.executeTx a (.stargate typeUrl value)
    let second := c.executeTx b (.stargate typeUrl' value')
    (first (second s).store).result = (first s).result ∧
      (second (first s).store).result = (second s).result ∧
      (second (first s).store).store = (first (second s).store).store :=
  (executeTx_footprint hcore hread hm a).commute (executeTx_footprint hcore hread' hm' b)
    (notMem_place_of_ne hne) (notMem_place_of_ne hne.symm) s

/-- Two accounts issue the classes `art-a` and `art-a1`. -/
def twoGalleries : List Call :=
  smallGallery ++ [.tx "a1" (.stargate IssueClass.typeUrl longerClass)]

/-- The payload that mints the NFT `11` of `art-a`. -/
def elevenMint : Bytes := [206, 97, 133, 97, 114, 116, 45, 97, 130, 49, 49, 128, 128, 192, 128]

/-- The payload that mints the NFT `1` of `art-a1`. -/
def otherMint : Bytes :=
  [207, 130, 97, 49, 134, 97, 114, 116, 45, 97, 49, 49, 128, 128, 192, 128]

/-- Two issuers mint NFTs whose class and id are the same text one after the other. -/
theorem nft_messages_commute_concatenated :
    "art-a" ++ "11" = "art-a1" ++ "1" ∧
    let first := (small .coreum).executeTx "a" (.stargate MintNft.typeUrl elevenMint)
    let second := (small .coreum).executeTx "a1" (.stargate MintNft.typeUrl otherMint)
    let s := (small .coreum).run twoGalleries
    (∃ r, (first s).result = .ok r) ∧ (∃ r, (second s).result = .ok r) ∧
      (first (second s).store).result = (first s).result ∧
      (second (first s).store).result = (second s).result ∧
      (second (first s).store).store = (first (second s).store).store := by
  refine ⟨by decide, Except.exists_ok_of_toOption (by decide +kernel),
    Except.exists_ok_of_toOption (by decide +kernel), ?_⟩
  have hfirst : (Factory.Coreum.Message.mintNft ⟨"a", "art-a", "11", "", "", none, ""⟩).ReadFrom
      MintNft.typeUrl elevenMint := ⟨rfl, rfl⟩
  have hsecond : (Factory.Coreum.Message.mintNft ⟨"a1", "art-a1", "1", "", "", none, ""⟩).ReadFrom
      MintNft.typeUrl otherMint := ⟨rfl, rfl⟩
  exact nft_messages_commute (small .coreum) rfl hfirst hsecond rfl rfl (by decide) "a" "a1"
    ((small .coreum).run twoGalleries)

end TokenLedger.Chain
