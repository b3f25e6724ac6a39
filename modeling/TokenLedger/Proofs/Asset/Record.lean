import TokenLedger.Asset.Record
import TokenLedger.Proofs.Store.RecordMap

/-!
# Records of assets are read back

Every class and every NFT that can be built is read back as it was saved.  An issued token is if its
numbers are words, as they are in a message off the wire (`IssueToken.numbersAreWords_decode`).
-/

namespace TokenLedger

/-! ### Messages off the wire -/

namespace Wire

variable {α β : Type}

theorem Layout.read_cons_eq_ok {head : Field α} {tail : Layout β} {t : String}
    {items : List Rlp.Item} {a : α} {row : β} :
    (Layout.cons head tail).read t items = .ok (a, row) ↔
      head.readOr t items.head? = .ok a ∧ tail.read t items.tail = .ok row := by
  show (head.readOr t items.head? >>= fun a => tail.read t items.tail >>= fun row => .ok (a, row)) =
    .ok (a, row) ↔ _
  simp only [Except.bind_eq_ok, Except.ok.injEq, Prod.mk.injEq]
  constructor
  · rintro ⟨_, ha, _, hrow, rfl, rfl⟩
    exact ⟨ha, hrow⟩
  · rintro ⟨ha, hrow⟩
    exact ⟨a, ha, row, hrow, rfl, rfl⟩

theorem Codec.decode_eq_ok {M : Type} {c : Codec M} {raw : Bytes} {m : M}
    (h : c.decode raw = .ok m) :
    ∃ items, Rlp.decode raw = .ok (.list items) ∧
      c.schema.layout.read c.typeName items = .ok (c.schema.toRow m) := by
  unfold Codec.decode at h
  split at h
  · cases h
  · cases h
  · rename_i items hitems
    obtain ⟨row, hrow, rfl⟩ := Except.map_eq_ok.mp h
    rw [← c.schema.toRow_ofRow row] at hrow
    exact ⟨items, hitems, hrow⟩

/-- A natural number below `2 ^ 32`. -/
def IsWord (n : Int) : Prop := 0 ≤ n ∧ n ≤ 0xffffffff

instance (n : Int) : Decidable (IsWord n) := inferInstanceAs (Decidable (_ ∧ _))

theorem isWord_read {name t : String} {item : Rlp.Item} {n : Int}
    (h : (Field.word name).read t item = .ok n) : IsWord n := by
  obtain ⟨k, -, h⟩ := Except.bind_eq_ok.mp h
  split_ifs at h with hk
  injection h with h
  subst h
  exact ⟨Int.natCast_nonneg k, Int.ofNat_le.mpr (Nat.le_of_not_lt hk)⟩

theorem isWord_readOr {name t : String} {item : Option Rlp.Item} {n : Int}
    (h : (Field.word name).readOr t item = .ok n) : IsWord n := by
  cases item with
  | none =>
    injection h with h
    subst h
    exact (by decide : IsWord 0)
  | some item => exact isWord_read h

theorem mapM_eq_ok_forall {f : α → Except Fault β} {P : β → Prop} (hf : ∀ a b, f a = .ok b → P b) :
    ∀ {as : List α} {bs : List β}, as.mapM f = .ok bs → ∀ b ∈ bs, P b
  | [], bs, h => by
    injection h with h
    subst h
    exact fun b hb => absurd hb List.not_mem_nil
  | a :: as, bs, h => by
    obtain ⟨b, rest, ha, has, rfl⟩ := Except.mapM_cons_eq_ok.mp h
    exact List.forall_mem_cons.mpr ⟨hf a b ha, mapM_eq_ok_forall hf has⟩

theorem isWord_repeated {name t : String} {item : Option Rlp.Item} {ns : List Int}
    (h : (Field.repeated name (Field.word "item")).readOr t item = .ok ns) :
    ∀ n ∈ ns, IsWord n := by
  cases item with
  | none =>
    injection h with h
    subst h
    exact fun n hn => absurd hn List.not_mem_nil
  | some item =>
    obtain ⟨items, -, h⟩ := Except.bind_eq_ok.mp h
    exact mapM_eq_ok_forall (fun _ _ => isWord_read) h

end Wire

/-- A natural number below `2 ^ 32`. -/
def Number.IsWord (x : Number) : Prop := ∃ n : Nat, n ≤ 0xffffffff ∧ x = .ofNat n

theorem Number.IsWord.isSmallInteger {x : Number} (h : x.IsWord) : x.IsSmallInteger := by
  obtain ⟨n, hn, rfl⟩ := h
  exact Number.isSmallInteger_ofNat (hn.trans (by decide))

theorem Number.isWord_ofInt {n : Int} (h : Wire.IsWord n) : (Number.ofInt n).IsWord := by
  obtain ⟨k, rfl⟩ := Int.eq_ofNat_of_zero_le h.1
  exact ⟨k, Int.ofNat_le.mp h.2, rfl⟩

/-- The numbers in a message are words. -/
def IssueToken.NumbersAreWords (m : IssueToken) : Prop :=
  Wire.IsWord m.precision ∧ ∀ n ∈ m.features, Wire.IsWord n

theorem IssueToken.numbersAreWords_decode {raw : Bytes} {m : IssueToken}
    (h : IssueToken.codec.decode raw = .ok m) : m.NumbersAreWords := by
  obtain ⟨items, -, hread⟩ := Wire.Codec.decode_eq_ok h
  simp only [IssueToken.codec, Wire.Layout.read_cons_eq_ok] at hread
  obtain ⟨-, -, -, hprecision, -, -, hfeatures, -⟩ := hread
  exact ⟨Wire.isWord_readOr hprecision, Wire.isWord_repeated hfeatures⟩

namespace Asset

instance : issuedTokens.key.Lawful := inferInstanceAs Key.text.Lawful

instance : classes.key.Lawful := inferInstanceAs Key.text.Lawful

instance : nfts.key.Lawful := inferInstanceAs Key.pair.Lawful

/-! ### Blobs -/

theorem plain_optionJson (b : Option StoredBlob) : (StoredBlob.optionJson b).Plain := by
  cases b with
  | none => trivial
  | some b =>
    refine ⟨?_, trivial, trivial, trivial⟩
    simp only [List.map_cons, List.map_nil]
    decide

theorem shape_optionJson (b : Option StoredBlob) :
    Shape.nullable StoredBlob.shape (StoredBlob.optionJson b) = .valid b := by
  cases b <;> rfl

/-! ### Records -/

theorem readsBack_nft (n : StoredNft) : nfts.ReadsBack n := by
  refine RecordMap.readsBack_of_plain (m := nfts) ?_ ?_
  · refine ⟨?_, trivial, trivial, trivial, trivial, plain_optionJson n.data, trivial⟩
    simp only [List.map_cons, List.map_nil]
    decide
  · show Checked.valid (StoredNft.mk n.classId n.id n.owner n.uri) <*>
      Shape.nullable StoredBlob.shape (StoredBlob.optionJson n.data) = .valid n
    rw [shape_optionJson]
    rfl

theorem shape_feature (f : ClassFeature) : ClassFeature.shape f.toJson = .valid f := by
  cases f <;> rfl

theorem plain_feature (f : ClassFeature) : f.toJson.Plain :=
  Number.isSmallInteger_ofNat (by cases f <;> decide)

theorem readsBack_class (c : StoredClass) : classes.ReadsBack c := by
  have hitems : Json.PlainItems (c.features.map ClassFeature.toJson) :=
    Json.plainItems_map fun f _ => plain_feature f
  have hlist : Checked.forList ClassFeature.shape (c.features.map ClassFeature.toJson) =
      .valid c.features := Checked.forList_map fun f _ => shape_feature f
  refine RecordMap.readsBack_of_plain (m := classes) ?_ ?_
  · refine ⟨?_, trivial, trivial, trivial, trivial, trivial, trivial, plain_optionJson c.data,
      hitems, trivial, trivial⟩
    simp only [List.map_cons, List.map_nil]
    decide
  · show Checked.valid (StoredClass.mk c.issuer c.symbol c.name c.description c.uri c.uriHash) <*>
      Shape.nullable StoredBlob.shape (StoredBlob.optionJson c.data) <*>
      Checked.forList ClassFeature.shape (c.features.map ClassFeature.toJson) <*>
      Checked.valid c.royaltyRate = .valid c
    rw [shape_optionJson, hlist]
    rfl

/-- The numbers of a token are natural numbers below `2 ^ 32`. -/
def IssuedToken.NumbersAreWords (t : IssuedToken) : Prop :=
  t.precision.IsWord ∧ ∀ x ∈ t.features, x.IsWord

theorem numbersAreWords_ofMessage {m : IssueToken} (h : m.NumbersAreWords) :
    (IssuedToken.ofMessage m).NumbersAreWords := by
  obtain ⟨hprecision, hfeatures⟩ := h
  refine ⟨Number.isWord_ofInt hprecision, fun x hx => ?_⟩
  obtain ⟨n, hn, rfl⟩ := List.mem_map.mp hx
  exact Number.isWord_ofInt (hfeatures n hn)

theorem readsBack_of_numbersAreWords {t : IssuedToken} (h : t.NumbersAreWords) :
    issuedTokens.ReadsBack t := by
  obtain ⟨hprecision, hfeatures⟩ := h
  have hitems : Json.PlainItems (t.features.map .num) :=
    Json.plainItems_map fun x hx => (hfeatures x hx).isSmallInteger
  have hlist : Checked.forList Shape.number (t.features.map .num) = .valid t.features :=
    Checked.forList_map fun _ _ => rfl
  refine RecordMap.readsBack_of_plain (m := issuedTokens) ?_ ?_
  · refine ⟨?_, trivial, trivial, trivial, hprecision.isSmallInteger, trivial, trivial, hitems,
      trivial, trivial, trivial, trivial, trivial⟩
    simp only [List.map_cons, List.map_nil]
    decide
  · show Checked.valid (IssuedToken.mk t.issuer t.symbol t.subunit t.precision t.initialAmount
        t.description) <*>
      Checked.forList Shape.number (t.features.map .num) <*> Checked.valid t.burnRate <*>
      Checked.valid t.sendCommissionRate <*> Checked.valid t.uri <*> Checked.valid t.uriHash =
        .valid t
    rw [hlist]
    rfl

theorem readsBack_issuedToken {m : IssueToken} (h : m.NumbersAreWords) :
    issuedTokens.ReadsBack (IssuedToken.ofMessage m) :=
  readsBack_of_numbersAreWords (numbersAreWords_ofMessage h)

end Asset

end TokenLedger
