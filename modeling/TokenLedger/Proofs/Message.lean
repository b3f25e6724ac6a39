import TokenLedger.Message.Catalog
import TokenLedger.Proofs.Wire

/-!
# Messages are read back

Every message of every type has bytes and is what is read from them, as long as its integers are
among those that its fields are meant for.  Absent nested messages stay absent, and present ones
stay present even if all their fields are zero.
-/

namespace TokenLedger

open Wire Wire.Field

/-! ### Integers of messages -/

/-- The offset and the limit are natural numbers. -/
def PageRequest.InRange (p : PageRequest) : Prop := 0 ≤ p.offset ∧ 0 ≤ p.limit

/-- The features are among the five known ones. -/
def IssueClass.FeaturesKnown (m : IssueClass) : Prop := ∀ n ∈ m.features, 0 ≤ n ∧ n ≤ 4

namespace MessageType

/-- The integers of a message are among those that its fields are meant for. -/
def InRange : (t : MessageType) → t.Message → Prop
  | issueToken, m => IssueToken.NumbersAreWords m
  | issueClass, m => IssueClass.FeaturesKnown m
  | allBalances, m => ∀ p ∈ AllBalancesRequest.pagination m, p.InRange
  | tokens, m => ∀ p ∈ TokensRequest.pagination m, p.InRange
  | nftClasses, m => ∀ p ∈ ClassesRequest.pagination m, p.InRange
  | nfts, m => ∀ p ∈ NftsRequest.pagination m, p.InRange
  | _, _ => True

/-- The integers of a message are not too large to be read. -/
def NumbersFit : (t : MessageType) → t.Message → Prop
  | issueToken, m => IssueToken.precision m ≤ 0xffffffff ∧ ∀ n ∈ m.features, n ≤ 0xffffffff
  | issueClass, m => ∀ n ∈ IssueClass.features m, n ≤ 4
  | _, _ => True

end MessageType

/-! ### Nested messages -/

theorem WireCoin.readsBack_row (c : WireCoin) :
    WireCoin.schema.layout.ReadsBack (WireCoin.schema.toRow c) :=
  ⟨readsBack_text c.denom, readsBack_text c.amount, trivial⟩

theorem WireCoin.readsBack_optional {name : String} (o : Option WireCoin) :
    (WireCoin.schema.optional name).ReadsBack o :=
  Schema.readsBack_optional (by decide) fun c _ => c.readsBack_row

theorem Blob.readsBack_row (b : Blob) : Blob.schema.layout.ReadsBack (Blob.schema.toRow b) :=
  ⟨readsBack_text b.typeUrl, readsBack_bytes b.value, trivial⟩

theorem Blob.readsBack_optional {name : String} (o : Option Blob) :
    (Blob.schema.optional name).ReadsBack o :=
  Schema.readsBack_optional (by decide) fun b _ => b.readsBack_row

theorem PageRequest.readsBack_row {p : PageRequest} (h : p.InRange) :
    PageRequest.schema.layout.ReadsBack (PageRequest.schema.toRow p) := by
  obtain ⟨hoffset, hlimit⟩ := h
  exact ⟨readsBack_bytes p.key, readsBack_integer hoffset, readsBack_integer hlimit,
    readsBack_flag p.countTotal, readsBack_flag p.reverse, trivial⟩

theorem PageRequest.readsBack_optional {name : String} {o : Option PageRequest}
    (h : ∀ p ∈ o, p.InRange) : (PageRequest.schema.optional name).ReadsBack o :=
  Schema.readsBack_optional (by decide) fun p hp => PageRequest.readsBack_row (h p hp)

/-- A page request that has items is in range. -/
theorem PageRequest.inRange_of_write {p : PageRequest} {items : List Rlp.Item}
    (h : PageRequest.schema.write p = .ok items) : p.InRange := by
  obtain ⟨-, rest, -, hrest, -⟩ := Layout.write_cons_eq_ok h
  obtain ⟨offset, rest, hoffset, hrest, -⟩ := Layout.write_cons_eq_ok hrest
  obtain ⟨limit, -, hlimit, -⟩ := Layout.write_cons_eq_ok hrest
  exact ⟨nonneg_of_ofInt hoffset, nonneg_of_ofInt hlimit⟩

theorem PageRequest.inRange_of_optional {name : String} {o : Option PageRequest} {item : Rlp.Item}
    (h : (PageRequest.schema.optional name).write o = .ok item) : ∀ p ∈ o, p.InRange := by
  intro p hp
  obtain rfl := Option.mem_def.mp hp
  obtain ⟨items, hitems, -⟩ := Except.map_eq_ok.mp h
  exact PageRequest.inRange_of_write hitems

/-! ### Rows of all types -/

theorem IssueToken.readsBack_row {m : IssueToken} (h : m.NumbersAreWords) :
    IssueToken.codec.schema.layout.ReadsBack (IssueToken.codec.schema.toRow m) := by
  obtain ⟨hprecision, hfeatures⟩ := h
  have hlist : (repeated "features" (word "item")).ReadsBack m.features :=
    readsBack_repeated fun n hn => readsBack_word (hfeatures n hn)
  exact ⟨readsBack_text m.issuer, readsBack_text m.symbol, readsBack_text m.subunit,
    readsBack_word hprecision, readsBack_text m.initialAmount, readsBack_text m.description, hlist,
    readsBack_text m.burnRate, readsBack_text m.sendCommissionRate, readsBack_text m.uri,
    readsBack_text m.uriHash, trivial⟩

theorem IssueClass.readsBack_row {m : IssueClass} (h : m.FeaturesKnown) :
    IssueClass.codec.schema.layout.ReadsBack (IssueClass.codec.schema.toRow m) := by
  have hlist : (repeated "features" (feature "item")).ReadsBack m.features :=
    readsBack_repeated fun n hn => readsBack_feature (h n hn).1 (h n hn).2
  exact ⟨readsBack_text m.issuer, readsBack_text m.symbol, readsBack_text m.name,
    readsBack_text m.description, readsBack_text m.uri, readsBack_text m.uriHash,
    Blob.readsBack_optional m.data, hlist, readsBack_text m.royaltyRate, trivial⟩

theorem MessageType.readsBack_row (t : MessageType) (m : t.Message) (h : t.InRange m) :
    t.codec.schema.layout.ReadsBack (t.codec.schema.toRow m) := by
  cases t with
  | issueToken => exact IssueToken.readsBack_row h
  | issueClass => exact IssueClass.readsBack_row h
  | mintDenom | burnDenom | mintToken =>
    exact ⟨readsBack_text _, WireCoin.readsBack_optional _, readsBack_text _, trivial⟩
  | burnToken => exact ⟨readsBack_text _, WireCoin.readsBack_optional _, trivial⟩
  | mintNft =>
    exact ⟨readsBack_text _, readsBack_text _, readsBack_text _, readsBack_text _,
      readsBack_text _, Blob.readsBack_optional _, readsBack_text _, trivial⟩
  | burnNft => exact ⟨readsBack_text _, readsBack_text _, readsBack_text _, trivial⟩
  | sendNft =>
    exact ⟨readsBack_text _, readsBack_text _, readsBack_text _, readsBack_text _, trivial⟩
  | allBalances => exact ⟨readsBack_text _, PageRequest.readsBack_optional h, trivial⟩
  | tokens | nftClasses =>
    exact ⟨PageRequest.readsBack_optional h, readsBack_text _, trivial⟩
  | nfts =>
    exact ⟨readsBack_text _, readsBack_text _, PageRequest.readsBack_optional h, trivial⟩
  | smartContractState => exact ⟨readsBack_text _, readsBack_bytes _, trivial⟩
  | createDenom | balance | nft | owner =>
    exact ⟨readsBack_text _, readsBack_text _, trivial⟩
  | createDenomResponse | supplyOf | contractInfo | token | nftClass =>
    exact ⟨readsBack_text _, trivial⟩

/-! ### Messages with items -/

/-- The place of the precision in a new token. -/
def IssueToken.precisionPlace : Place (word "precision") IssueToken.codec.schema.layout :=
  .there (.there (.there .here))

/-- The place of the features in a new token. -/
def IssueToken.featuresPlace :
    Place (repeated "features" (word "item")) IssueToken.codec.schema.layout :=
  .there (.there (.there (.there (.there (.there .here)))))

/-- The place of the features in a new class. -/
def IssueClass.featuresPlace :
    Place (repeated "features" (feature "item")) IssueClass.codec.schema.layout :=
  .there (.there (.there (.there (.there (.there (.there .here))))))

theorem nonneg_of_repeated {name : String} {f : Wire.Field Int} {ns : List Int} {item : Rlp.Item}
    (hf : f.write = ofInt) (h : (repeated name f).write ns = .ok item) : ∀ n ∈ ns, 0 ≤ n := by
  obtain ⟨items, hitems, -⟩ := Except.map_eq_ok.mp h
  rw [hf] at hitems
  exact Except.forall_of_mapM_eq_ok (fun _ _ => nonneg_of_ofInt) hitems

namespace MessageType

variable {t : MessageType} {m : t.Message} {fields : List Rlp.Item}

/-- A message that has items is in range if its integers are not too large. -/
theorem inRange_of_write (h : t.codec.schema.write m = .ok fields) (hfit : t.NumbersFit m) :
    t.InRange m := by
  cases t with
  | issueToken =>
    obtain ⟨hprecision, hfeatures⟩ := hfit
    obtain ⟨_, hword, -⟩ := IssueToken.precisionPlace.write_get h
    obtain ⟨_, hlist, -⟩ := IssueToken.featuresPlace.write_get h
    have hnonneg := nonneg_of_repeated rfl hlist
    exact ⟨⟨nonneg_of_ofInt hword, hprecision⟩, fun n hn => ⟨hnonneg n hn, hfeatures n hn⟩⟩
  | issueClass =>
    obtain ⟨_, hlist, -⟩ := IssueClass.featuresPlace.write_get h
    exact fun n hn => ⟨nonneg_of_repeated rfl hlist n hn, hfit n hn⟩
  | allBalances =>
    obtain ⟨-, rest, -, hrest, -⟩ := Layout.write_cons_eq_ok h
    obtain ⟨page, -, hpage, -⟩ := Layout.write_cons_eq_ok hrest
    exact PageRequest.inRange_of_optional hpage
  | tokens | nftClasses =>
    obtain ⟨page, -, hpage, -⟩ := Layout.write_cons_eq_ok h
    exact PageRequest.inRange_of_optional hpage
  | nfts =>
    obtain ⟨-, rest, -, hrest, -⟩ := Layout.write_cons_eq_ok h
    obtain ⟨-, rest, -, hrest, -⟩ := Layout.write_cons_eq_ok hrest
    obtain ⟨page, -, hpage, -⟩ := Layout.write_cons_eq_ok hrest
    exact PageRequest.inRange_of_optional hpage
  | _ => trivial

end MessageType

/-! ### The codecs -/

/-- **Every codec reads back what it writes.**  A header has room for eight bytes of a length, hence
the bound on the bytes, which no byte string that a machine can hold reaches. -/
theorem MessageType.round_trip (t : MessageType) (m : t.Message) (h : t.InRange m) :
    ∃ raw, t.codec.encode m = .ok raw ∧ (raw.length < 2 ^ 64 → t.codec.decode raw = .ok m) :=
  Codec.decode_encode (t.readsBack_row m h)

/-- A request for the first page of the tokens of nobody; every field of its page is zero. -/
def TokensRequest.blank : TokensRequest where
  pagination := some ⟨[], 0, 0, false, false⟩
  issuer := ""

theorem MessageType.round_trip_blank :
    ∃ raw, tokens.codec.encode TokensRequest.blank = .ok raw ∧
      raw = [0xc7, 0xc5, 0x80, 0x80, 0x80, 0x80, 0x80, 0x80] ∧
      tokens.codec.decode raw = .ok TokensRequest.blank := by
  have hrange : tokens.InRange TokensRequest.blank := by
    intro p hp
    obtain rfl := Option.some.inj hp
    exact ⟨le_refl 0, le_refl 0⟩
  obtain ⟨raw, hencode, hdecode⟩ := round_trip tokens TokensRequest.blank hrange
  have hraw : raw = [0xc7, 0xc5, 0x80, 0x80, 0x80, 0x80, 0x80, 0x80] :=
    Except.ok.inj (hencode.symm.trans rfl)
  refine ⟨raw, hencode, hraw, hdecode ?_⟩
  rw [hraw]
  decide

end TokenLedger
