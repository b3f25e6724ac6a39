import TokenLedger.Proofs.Message
import TokenLedger.Proofs.Rlp.Canonical

/-!
# Messages end where their bytes end

Missing fields are read as zero values, but never because bytes are missing: the header of a message
says how long it is.  So the bytes of a message are refused when they are cut off anywhere and when
anything follows them, and no message's bytes are the first bytes of another message.
-/

namespace TokenLedger

open Rlp (Item)

namespace Wire.Codec

variable {M M' : Type} {c : Codec M} {c' : Codec M'} {m : M} {m' : M'}
  {raw raw' front more : Bytes}

/-- Bytes are refused with a `DecodeError` that names the message. -/
def Refuses (c : Codec M) (raw : Bytes) : Prop :=
  ∃ e, c.decode raw = .error e ∧ e.name = "DecodeError" ∧ e.context = [("typeName", c.typeName)]

/-- What is no list of items is refused before any field is read. -/
theorem refuses_of_no_list (h : ∀ items, Rlp.decode raw ≠ .ok (.list items)) : c.Refuses raw := by
  unfold Refuses decode
  cases hread : Rlp.decode raw with
  | error e => exact ⟨_, rfl, rfl, rfl⟩
  | ok item =>
    cases item with
    | bytes b => exact ⟨_, rfl, rfl, rfl⟩
    | list items => exact absurd hread (h items)

/-- The first bytes of a message are no list of items, unless they are all of it: the list would be
the message's own one, since it has only one encoding. -/
theorem refuses_of_isPrefix (hraw : c.encode m = .ok raw) (hlength : raw.length < 2 ^ 64)
    (hfront : front <+: raw) (hne : front ≠ raw) : c.Refuses front := by
  obtain ⟨items, rfl, -⟩ := encode_eq_ok hraw
  refine refuses_of_no_list fun items' hread => hne ?_
  obtain rfl := Rlp.eq_encode_of_decode_list hread
  rw [Rlp.eq_of_encode_isPrefix hfront hlength]

theorem refuses_append (hraw : c.encode m = .ok raw) (hlength : raw.length < 2 ^ 64)
    (hmore : more ≠ []) : c.Refuses (raw ++ more) := by
  obtain ⟨items, rfl, -⟩ := encode_eq_ok hraw
  refine refuses_of_no_list fun items' hread => ?_
  rw [Rlp.decode_append hlength, if_neg (mt List.isEmpty_iff.mp hmore)] at hread
  cases hread

/-- The bytes of a message of any type are the first bytes of another one only if they are all of
it. -/
theorem eq_of_isPrefix (hraw : c.encode m = .ok raw) (hraw' : c'.encode m' = .ok raw')
    (h : raw <+: raw') (hlength : raw'.length < 2 ^ 64) : raw = raw' := by
  obtain ⟨items, rfl, -⟩ := encode_eq_ok hraw
  obtain ⟨items', rfl, -⟩ := encode_eq_ok hraw'
  rw [Rlp.eq_of_encode_isPrefix h hlength]

end Wire.Codec

namespace MessageType

variable {t : MessageType} {m : t.Message} {raw : Bytes}

/-- **A message is decoded whole or not at all.**  Whatever can be encoded, its bytes are refused
when they are cut off at any place, down to no bytes at all, and when any bytes follow them; the
bytes of no other message are among their first ones.  A header has room for eight bytes of a
length. -/
theorem cut_or_extended_refused (hraw : t.codec.encode m = .ok raw) (hlength : raw.length < 2 ^ 64) :
    (∀ front, front <+: raw → front ≠ raw → t.codec.Refuses front) ∧
      (∀ more, more ≠ [] → t.codec.Refuses (raw ++ more)) ∧
      ∀ (t' : MessageType) (m' : t'.Message) raw', t'.codec.encode m' = .ok raw' →
        raw' <+: raw → raw' = raw :=
  ⟨fun _ => Wire.Codec.refuses_of_isPrefix hraw hlength,
    fun _ => Wire.Codec.refuses_append hraw hlength,
    fun _ _ _ hraw' hfront => Wire.Codec.eq_of_isPrefix hraw' hraw hfront hlength⟩

/-- The payload without its last field is refused, although that field may be missing, and so are two
payloads one after the other. -/
theorem cut_or_extended_refused_denom :
    createDenom.codec.encode ⟨"a", "b"⟩ = .ok [0xc2, 0x61, 0x62] ∧
      createDenom.codec.decode [0xc1, 0x61] = .ok ⟨"a", ""⟩ ∧
      createDenom.codec.Refuses [0xc2, 0x61] ∧ createDenom.codec.Refuses [] ∧
      createDenom.codec.Refuses [0xc2, 0x61, 0x62, 0xc2, 0x61, 0x62] := by
  have hencode : createDenom.codec.encode ⟨"a", "b"⟩ = .ok [0xc2, 0x61, 0x62] := rfl
  obtain ⟨hcut, hextended, -⟩ := cut_or_extended_refused hencode (by decide)
  refine ⟨hencode, rfl, hcut [0xc2, 0x61] (by decide) (by decide), ?_, ?_⟩
  · exact hcut [] (by decide) (by decide)
  · exact hextended [0xc2, 0x61, 0x62] (by decide)

end MessageType

end TokenLedger
