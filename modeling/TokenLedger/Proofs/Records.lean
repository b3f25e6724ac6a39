import TokenLedger.Proofs.Asset.Record
import TokenLedger.Proofs.Bank.Balances
import TokenLedger.Proofs.Factory.Generic
import TokenLedger.Proofs.Text.Base64

/-!
# What is stored survives

Five kinds of records are kept: balances, created denoms, issued tokens, classes and live NFTs.  A
record is written as JSON text in UTF-8 and is the same record when it is read, whatever its texts
are; written again it is the same bytes.  A blob of a message is kept as base64, and its bytes are
found in the record that is read.
-/

namespace TokenLedger

open Asset

/-- A value that is read from its bytes as it was, and has the same bytes when it is written again. -/
structure RecordMap.Survives {K V : Type} (m : RecordMap K V) (v : V) : Prop where
  read : m.readRecord (m.toJson v).toBytes = .ok v
  rewritten : ∀ w, m.readRecord (m.toJson v).toBytes = .ok w →
    (m.toJson w).toBytes = (m.toJson v).toBytes

theorem RecordMap.ReadsBack.survives {K V : Type} {m : RecordMap K V} {v : V} (h : m.ReadsBack v) :
    m.Survives v where
  read := h
  rewritten w hw := by
    have heq : v = w := Except.ok.inj (h.symm.trans hw)
    rw [heq]

/-! ### Blobs -/

/-- A stored blob holds the bytes of a blob, under the same type. -/
structure Asset.StoredBlob.Holds (stored : StoredBlob) (b : Blob) : Prop where
  typeUrl : stored.typeUrl = b.typeUrl
  bytes : Base64.decode stored.value = .ok b.value

theorem Asset.StoredBlob.holds_ofBlob (b : Blob) : (StoredBlob.ofBlob b).Holds b where
  typeUrl := rfl
  bytes := Base64.decode_encode b.value

theorem Asset.StoredBlob.rel_map_ofBlob (o : Option Blob) :
    Option.Rel StoredBlob.Holds (o.map StoredBlob.ofBlob) o := by
  cases o with
  | none => exact .none
  | some b => exact .some (StoredBlob.holds_ofBlob b)

/-! ### All kinds of records -/

/-- Every record that can be stored survives, and a class and an NFT built from a message are read
with the blob of the message. -/
theorem stored_records_survive :
    (∀ n : Nat, Bank.balances.Survives n) ∧
    (∀ d, Factory.Generic.createdDenoms.Survives d) ∧
    (∀ t : IssuedToken, t.NumbersAreWords → issuedTokens.Survives t) ∧
    (∀ c, classes.Survives c) ∧
    (∀ x, nfts.Survives x) ∧
    (∀ m : IssueClass, ∃ c,
      classes.readRecord (classes.toJson (StoredClass.ofMessage m)).toBytes = .ok c ∧
        Option.Rel StoredBlob.Holds c.data m.data) ∧
    ∀ (m : MintNft) (owner : String), ∃ x,
      nfts.readRecord (nfts.toJson (StoredNft.ofMessage m owner)).toBytes = .ok x ∧
        Option.Rel StoredBlob.Holds x.data m.data := by
  refine ⟨fun n => ?balance, fun d => ?denom, fun t ht => ?token, fun c => ?assetClass, fun x => ?nft,
    fun m => ?classBlob, fun m owner => ?nftBlob⟩
  case balance => exact (Bank.readsBack_amount (Int.natCast_nonneg n)).survives
  case denom => exact (Factory.Generic.readsBack_createdDenom d).survives
  case token => exact (readsBack_of_numbersAreWords ht).survives
  case assetClass => exact (readsBack_class c).survives
  case nft => exact (readsBack_nft x).survives
  case classBlob => exact ⟨_, readsBack_class _, StoredBlob.rel_map_ofBlob m.data⟩
  case nftBlob => exact ⟨_, readsBack_nft _, StoredBlob.rel_map_ofBlob m.data⟩

/-- A token with texts that need escapes, texts that need none, empty ones, and the largest word. -/
def Asset.IssuedToken.escaped : IssuedToken where
  issuer := "\"\\/\"\n\u0000\u001f"
  symbol := "\u2028\u007f\u00e9"
  subunit := ""
  precision := .ofNat 0xffffffff
  initialAmount := "1"
  description := "𝄞"
  features := [.ofNat 0, .ofNat 0xffffffff]
  burnRate := ""
  sendCommissionRate := ""
  uri := "\\u0041"
  uriHash := ""

theorem stored_records_survive_escaped :
    IssuedToken.escaped.NumbersAreWords ∧ issuedTokens.Survives IssuedToken.escaped := by
  have hwords : IssuedToken.escaped.NumbersAreWords := by
    refine ⟨⟨0xffffffff, le_rfl, rfl⟩, fun x hx => ?_⟩
    obtain rfl | rfl := List.mem_pair.mp hx
    · exact ⟨0, by decide, rfl⟩
    · exact ⟨0xffffffff, le_rfl, rfl⟩
  exact ⟨hwords, stored_records_survive.2.2.1 _ hwords⟩

end TokenLedger
