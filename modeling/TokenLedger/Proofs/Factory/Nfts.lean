import TokenLedger.Proofs.Factory.Coreum

/-!
# Classes and NFTs under the messages of the Coreum factory

Classes are recorded under the ids that their symbols and issuers spell, and never change again
(`Effect.load?_class`).  NFTs are recorded under their own class and id, in classes that exist.
`Effect.nft_cases` lists what can happen to the NFT under a key.
-/

namespace TokenLedger.Factory.Coreum

open Asset

variable {config : FactoryConfig} {sender : String} {s t : Store} {m : Message} {id : String}
  {key : String × String} {c : StoredClass}

/-! ### Classes -/

/-- Every class is recorded under the id that its symbol and issuer spell. -/
def ClassesNamed (s : Store) : Prop :=
  classes.Holds (fun id c => id = classIdOf c.symbol c.issuer) s

/-- The classes stay as they are, or a new one is recorded for the sender. -/
theorem Effect.class_cases (h : Effect config Bank.host sender m s t) :
    Store.SameUnder classes.root s t ∨
      ∃ m', m = .issueClass m' ∧ m'.issuer = sender ∧
        classes.load? s (classIdOf m'.symbol m'.issuer) = .ok none ∧
        classes.save s (classIdOf m'.symbol m'.issuer) (.ofMessage m') = .ok t := by
  by_cases hmap : m.mapName? = some classes.name
  · obtain ⟨m', rfl⟩ := eq_issueClass_of_mapName? hmap
    cases h with
    | issueClass issuer free saved =>
      exact Or.inr ⟨m', rfl, issuer, RecordMap.load?_of_has_eq_false free, saved⟩
  · exact Or.inl (h.sameUnder (by decide) hmap)

theorem Effect.classesNamed (hs : ClassesNamed s) (h : Effect config Bank.host sender m s t) :
    ClassesNamed t := by
  rcases h.class_cases with hsame | ⟨m', -, -, -, hsave⟩
  · exact RecordMap.Holds.congr hs hsame
  · refine RecordMap.Holds.save hs (readsBack_class _) ?_ hsave
    exact rfl

/-- A class, once recorded, stays as it is. -/
theorem Effect.load?_class (h : Effect config Bank.host sender m s t)
    (hc : classes.load? s id = .ok (some c)) : classes.load? t id = .ok (some c) := by
  rcases h.class_cases with hsame | ⟨m', -, -, hfree, hsave⟩
  · rw [RecordMap.load?_congr hsame, hc]
  · have hne : id ≠ classIdOf m'.symbol m'.issuer := by
      rintro rfl
      rw [hc] at hfree
      cases hfree
    rw [RecordMap.load?_save_of_ne hne hsave, hc]

/-! ### NFTs -/

/-- Every NFT is recorded under its own class and id, and its class is recorded too. -/
def NftsPlaced (s : Store) : Prop :=
  nfts.Holds (fun key n => n.classId = key.1 ∧ n.id = key.2 ∧
    ∃ c, classes.load? s key.1 = .ok (some c)) s

/-- The NFT under a key stays as it is, or it was minted, burnt or sent by the rules. -/
theorem Effect.nft_cases (h : Effect config Bank.host sender m s t) (key : String × String) :
    nfts.load? t key = nfts.load? s key ∨
    (∃ m' c, m = .mintNft m' ∧ key = (m'.classId, m'.id) ∧
      classes.load? s m'.classId = .ok (some c) ∧ c.issuer = sender ∧ m'.sender = sender ∧
      nfts.load? s key = .ok none ∧
      nfts.load? t key = .ok (some (.ofMessage m' (orElse m'.recipient sender)))) ∨
    (∃ m' c n, m = .burnNft m' ∧ key = (m'.classId, m'.id) ∧
      classes.load? s m'.classId = .ok (some c) ∧ m'.sender = sender ∧
      (n.owner = sender ∨ (.burning ∈ c.features ∧ c.issuer = sender)) ∧
      nfts.load? s key = .ok (some n) ∧ nfts.load? t key = .ok none) ∨
    ∃ m' c n, m = .sendNft m' ∧ key = (m'.classId, m'.id) ∧
      classes.load? s m'.classId = .ok (some c) ∧ checkSender sender m' c n = .ok () ∧
      m'.receiver ≠ "" ∧ nfts.load? s key = .ok (some n) ∧
      nfts.load? t key = .ok (some { n with owner := m'.receiver }) := by
  have frame (hmap : m.mapName? ≠ some nfts.name) : nfts.load? t key = nfts.load? s key :=
    RecordMap.load?_congr (h.sameUnder (by decide) hmap) key
  cases h with
  | issue | mint | burn | issueClass =>
    exact Or.inl (frame (by simp only [Message.mapName?]; decide))
  | @mintNft m' c _ _ signed known issuer free saved =>
    by_cases hkey : key = (m'.classId, m'.id)
    · subst hkey
      rw [signed] at saved
      exact Or.inr (Or.inl ⟨m', c, rfl, rfl, known, issuer, signed,
        RecordMap.load?_of_has_eq_false free, RecordMap.load?_save (readsBack_nft _) saved⟩)
    · exact Or.inl (RecordMap.load?_save_of_ne hkey saved)
  | @burnNft m' c n _ _ signed known live allowed deleted =>
    by_cases hkey : key = (m'.classId, m'.id)
    · subst hkey
      exact Or.inr (Or.inr (Or.inl ⟨m', c, n, rfl, rfl, known, signed, allowed, live,
        RecordMap.load?_delete deleted⟩))
    · exact Or.inl (RecordMap.load?_delete_of_ne hkey deleted)
  | @sendNft m' c n _ _ known live checked receiver saved =>
    by_cases hkey : key = (m'.classId, m'.id)
    · subst hkey
      exact Or.inr (Or.inr (Or.inr ⟨m', c, n, rfl, rfl, known, checked, receiver, live,
        RecordMap.load?_save (readsBack_nft _) saved⟩))
    · exact Or.inl (RecordMap.load?_save_of_ne hkey saved)

/-- A property of NFTs that every mint and every send keeps is kept by every message. -/
theorem Effect.nftsHold {P : String × String → StoredNft → Prop} (hs : nfts.Holds P s)
    (h : Effect config Bank.host sender m s t)
    (hmint : ∀ m' c, m = .mintNft m' → classes.load? s m'.classId = .ok (some c) →
      P (m'.classId, m'.id) (.ofMessage m' (orElse m'.recipient m'.sender)))
    (hsend : ∀ key n owner, P key n → P key { n with owner := owner }) : nfts.Holds P t := by
  have frame (hmap : m.mapName? ≠ some nfts.name) : nfts.Holds P t :=
    hs.congr (h.sameUnder (by decide) hmap)
  cases h with
  | issue | mint | burn | issueClass => exact frame (by simp only [Message.mapName?]; decide)
  | mintNft signed known issuer free saved =>
    exact hs.save (readsBack_nft _) (hmint _ _ rfl known) saved
  | burnNft signed known live allowed deleted => exact hs.delete deleted
  | sendNft known live checked receiver saved =>
    exact hs.save (readsBack_nft _) (hsend _ _ _ (hs.of_load? live).2) saved

theorem Effect.nftsPlaced (hs : NftsPlaced s) (h : Effect config Bank.host sender m s t) :
    NftsPlaced t := by
  have hplaced := h.nftsHold hs (fun m' c _ hc => ⟨rfl, rfl, c, hc⟩)
    fun key n owner hn => hn
  exact hplaced.mono fun key n ⟨hclass, hid, c, hc⟩ => ⟨hclass, hid, c, h.load?_class hc⟩

/-! ### Owners -/

/-- The recorded owner of an NFT, if there is one. -/
def ownerOf (s : Store) (classId id : String) : Option String :=
  match nfts.load? s (classId, id) with
  | .ok (some n) => some n.owner
  | _ => none

theorem checkSender_eq_ok {m : SendNft} {n : StoredNft} {u : Unit} :
    checkSender sender m c n = .ok u ↔
      (.soulbound ∉ c.features ∧ sender = n.owner ∧ m.sender = sender) ∨
        (.soulbound ∈ c.features ∧ sender = c.issuer) := by
  unfold checkSender
  by_cases hsoul : .soulbound ∈ c.features
  · rw [if_pos (List.contains_iff_mem.mpr hsoul)]
    split_ifs with hissuer
    · simp [hsoul, Ne.symm hissuer]
    · simp [hsoul, not_not.mp hissuer]
  · rw [if_neg fun h => hsoul (List.contains_iff_mem.mp h)]
    split_ifs with hsender howner
    · simp [hsoul, hsender]
    · simp [hsoul, Ne.symm howner]
    · simp [hsoul, not_not.mp hsender, not_not.mp howner]

end TokenLedger.Factory.Coreum
