import TokenLedger.Proofs.Message
import TokenLedger.Proofs.Wire.Lawful

/-!
# Any bytes may be decoded

Decoding fails with a `DecodeError` that names the message or one of its fields, or it gives a
message that can be encoded and is read back from its own bytes, whatever the bytes were that it was
read from: with fields missing or left over, text that is no UTF-8, booleans other than one.
-/

namespace TokenLedger

open Wire Wire.Field

/-! ### Lawful fields of messages -/

theorem WireCoin.lawful : WireCoin.schema.layout.Forall Field.Lawful :=
  ⟨lawful_text, lawful_text, trivial⟩

theorem WireCoin.lawful_optional {name : String} : (WireCoin.schema.optional name).Lawful :=
  Schema.lawful_optional WireCoin.lawful ⟨plain_text, plain_text, trivial⟩ (by decide) (by decide)

theorem Blob.lawful : Blob.schema.layout.Forall Field.Lawful := ⟨lawful_text, lawful_bytes, trivial⟩

theorem Blob.lawful_optional {name : String} : (Blob.schema.optional name).Lawful :=
  Schema.lawful_optional Blob.lawful ⟨plain_text, plain_bytes, trivial⟩ (by decide) (by decide)

theorem PageRequest.lawful : PageRequest.schema.layout.Forall Field.Lawful :=
  ⟨lawful_bytes, lawful_integer, lawful_integer, lawful_flag, lawful_flag, trivial⟩

theorem PageRequest.lawful_optional {name : String} : (PageRequest.schema.optional name).Lawful :=
  Schema.lawful_optional PageRequest.lawful
    ⟨plain_bytes, plain_integer, plain_integer, plain_flag, plain_flag, trivial⟩
    (by decide) (by decide)

namespace MessageType

/-- All fields of all messages are lawful. -/
theorem lawful (t : MessageType) : t.codec.schema.layout.Forall Field.Lawful := by
  cases t with
  | issueToken =>
    exact ⟨lawful_text, lawful_text, lawful_text, lawful_word, lawful_text, lawful_text,
      lawful_repeated lawful_word plain_word exact_word, lawful_text, lawful_text, lawful_text,
      lawful_text, trivial⟩
  | issueClass =>
    exact ⟨lawful_text, lawful_text, lawful_text, lawful_text, lawful_text, lawful_text,
      Blob.lawful_optional, lawful_repeated lawful_feature plain_feature exact_feature,
      lawful_text, trivial⟩
  | mintDenom | burnDenom | mintToken =>
    exact ⟨lawful_text, WireCoin.lawful_optional, lawful_text, trivial⟩
  | burnToken => exact ⟨lawful_text, WireCoin.lawful_optional, trivial⟩
  | mintNft =>
    exact ⟨lawful_text, lawful_text, lawful_text, lawful_text, lawful_text, Blob.lawful_optional,
      lawful_text, trivial⟩
  | burnNft => exact ⟨lawful_text, lawful_text, lawful_text, trivial⟩
  | sendNft => exact ⟨lawful_text, lawful_text, lawful_text, lawful_text, trivial⟩
  | allBalances => exact ⟨lawful_text, PageRequest.lawful_optional, trivial⟩
  | tokens | nftClasses => exact ⟨PageRequest.lawful_optional, lawful_text, trivial⟩
  | nfts => exact ⟨lawful_text, lawful_text, PageRequest.lawful_optional, trivial⟩
  | smartContractState => exact ⟨lawful_text, lawful_bytes, trivial⟩
  | createDenom | balance | nft | owner => exact ⟨lawful_text, lawful_text, trivial⟩
  | createDenomResponse | supplyOf | contractInfo | token | nftClass =>
    exact ⟨lawful_text, trivial⟩

theorem width_le (t : MessageType) : t.codec.schema.layout.width ≤ 11 := by
  cases t <;> decide

/-! ### Decoding -/

/-- **Decoding is safe on any bytes, and normalises them.**  What is decoded can always be encoded,
and is decoded again from the new bytes; there may be more of these than of the old ones, hence the
bound, which is far beyond the longest byte array of any machine. -/
theorem decode_safe (t : MessageType) (raw : Bytes) :
    (∃ e, t.codec.decode raw = .error e ∧ e.name = "DecodeError" ∧
      ∃ typeName ∈ t.codec.faultNames, e.context = [("typeName", typeName)]) ∨
    ∃ m raw', t.codec.decode raw = .ok m ∧ t.codec.encode m = .ok raw' ∧
      (raw.length < 2 ^ 59 → t.codec.decode raw' = .ok m) := by
  cases hdecode : t.codec.decode raw with
  | error e =>
    obtain ⟨typeName, hname, cause, rfl⟩ := Codec.isFaultOf_decode t.lawful hdecode
    exact .inl ⟨_, rfl, rfl, typeName, hname, rfl⟩
  | ok m =>
    have hback := Codec.readsBack_decode t.lawful hdecode
    obtain ⟨raw', hencode, hagain⟩ := Codec.decode_encode hback
    refine .inr ⟨m, raw', rfl, hencode, fun hraw => hagain ?_⟩
    exact Codec.length_encode_lt t.lawful t.width_le hraw hdecode hencode

end MessageType

end TokenLedger
