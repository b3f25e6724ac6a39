import TokenLedger.Proofs.Message.Decoding
import TokenLedger.Proofs.Wire.Editions

/-!
# Old and new editions of the messages

A message is read from the first few of its items with zero for the rest of its fields, and from
its items with more behind them as it was written; the same goes for the coin, the blob or the page
request that is nested in it.  The only messages that are not read in this way are those that cannot
be read at all, for an integer that can be written but is too large to be read.
-/

namespace TokenLedger

open Wire Wire.Field
open Rlp (Item)

/-! ### Nested messages -/

/-- The kinds of messages that are nested in others. -/
inductive Part
  | coin | blob | page
deriving DecidableEq, Repr

namespace Part

/-- The messages of a kind. -/
abbrev Message : Part → Type
  | coin => WireCoin
  | blob => Blob
  | page => PageRequest

/-- The fields of a kind. -/
def schema : (part : Part) → Schema part.Message
  | coin => WireCoin.schema
  | blob => Blob.schema
  | page => PageRequest.schema

variable {part : Part} {m : part.Message} {inner : List Item} {name t : String}

theorem lawful (part : Part) : part.schema.layout.Forall Field.Lawful := by
  cases part with
  | coin => exact WireCoin.lawful
  | blob => exact Blob.lawful
  | page => exact PageRequest.lawful

theorem readsBack_of_write (h : part.schema.write m = .ok inner) :
    part.schema.layout.ReadsBack (part.schema.toRow m) := by
  cases part with
  | coin => exact WireCoin.readsBack_row m
  | blob => exact Blob.readsBack_row m
  | page => exact PageRequest.readsBack_row (PageRequest.inRange_of_write h)

theorem ne_nil_of_write (h : part.schema.write m = .ok inner) : inner ≠ [] := by
  obtain ⟨items, hwrite, hwidth, -⟩ := Layout.read_write (readsBack_of_write h)
  obtain rfl : inner = items := Except.ok.inj (h.symm.trans hwrite)
  have hsome : 0 < part.schema.layout.width := by cases part <;> decide
  exact List.length_pos_iff.mp (by omega)

/-- The first items of a nested message, one at least, are read as one with the other fields
zero. -/
theorem read_take {k : Nat} (h : part.schema.write m = .ok inner) (hk : 1 ≤ k) :
    (part.schema.optional name).read t (.list (inner.take k)) =
      .ok (some (part.schema.keep k m)) := by
  have hne : inner.take k ≠ [] := by
    intro hnil
    rcases List.take_eq_nil_iff.mp hnil with hzero | hempty
    · exact absurd hk (by omega)
    · exact ne_nil_of_write h hempty
  obtain ⟨items, hwrite⟩ := Schema.write_keep part.lawful h k
  exact Schema.optional_read_list hne (Schema.read_take h (readsBack_of_write hwrite))

theorem read_append (h : part.schema.write m = .ok inner) (more : List Item) :
    (part.schema.optional name).read t (.list (inner ++ more)) = .ok (some m) := by
  have hne : inner ++ more ≠ [] := by
    intro hnil
    exact ne_nil_of_write h (List.append_eq_nil_iff.mp hnil).1
  exact Schema.optional_read_list hne (Schema.read_append h (readsBack_of_write h) more)

end Part

/-! ### Messages -/

namespace MessageType

variable {t : MessageType} {m : t.Message} {fields items : List Item} {raw : Bytes}

theorem numbersFit_of_readsBack
    (h : t.codec.schema.layout.ReadsBack (t.codec.schema.toRow m)) : t.NumbersFit m := by
  cases t with
  | issueToken =>
    obtain ⟨item, -, hword⟩ := IssueToken.precisionPlace.readsBack_get h
    obtain ⟨list, -, hlist⟩ := IssueToken.featuresPlace.readsBack_get h
    obtain ⟨items, -, hitems⟩ := Except.bind_eq_ok.mp (hlist "")
    have hwords := mapM_eq_ok_forall (fun _ _ => isWord_read) hitems
    exact ⟨(isWord_read (hword "")).2, fun n hn => (hwords n hn).2⟩
  | issueClass =>
    obtain ⟨list, -, hlist⟩ := IssueClass.featuresPlace.readsBack_get h
    obtain ⟨items, -, hitems⟩ := Except.bind_eq_ok.mp (hlist "")
    exact mapM_eq_ok_forall (fun _ _ hread => (word_of_feature hread).2) hitems
  | _ => trivial

/-- A list of the items that is not too long for a header is decoded to the message exactly if the
integers of the message are not too large. -/
def Reads (t : MessageType) (items : List Item) (m : t.Message) : Prop :=
  (Item.list items).encode.length < 2 ^ 64 →
    (t.codec.decode (Item.list items).encode = .ok m ↔ t.NumbersFit m)

/-- Whether a message that can be written can be read is a matter of its integers only, so that it
remains to read the items as the message if that is possible at all. -/
theorem reads_of_write (h : t.codec.schema.write m = .ok fields)
    (hread : t.codec.schema.layout.ReadsBack (t.codec.schema.toRow m) →
      t.codec.schema.read t.codec.typeName items = .ok m) : t.Reads items m := by
  intro hlength
  constructor
  · intro hdecode
    exact numbersFit_of_readsBack (Codec.readsBack_decode t.lawful hdecode)
  · intro hfit
    rw [Codec.decode_list hlength]
    exact hread (t.readsBack_row m (inRange_of_write h hfit))

/-- How a message with the given items is read by other editions of its type, and with other
editions of the message that is nested in it. -/
structure Interoperates (t : MessageType) (m : t.Message) (fields : List Item) : Prop where
  older : ∀ k, t.Reads (fields.take k) (t.codec.schema.keep k m)
  newer : ∀ more, t.Reads (fields ++ more) m
  nested : ∀ (part : Part) (name : String)
    (p : Place (part.schema.optional name) t.codec.schema.layout) (sub : part.Message),
    p.get (t.codec.schema.toRow m) = some sub →
    ∃ inner, part.schema.write sub = .ok inner ∧ fields[p.index]? = some (.list inner) ∧
      (∀ k, 1 ≤ k → t.Reads (fields.set p.index (.list (inner.take k)))
        (t.codec.schema.put p m (some (part.schema.keep k sub)))) ∧
      ∀ more, t.Reads (fields.set p.index (.list (inner ++ more))) m

/-- Any other edition of a nested message that is read as some message is read so in its place. -/
theorem reads_set {part : Part} {name : String} {sub : part.Message} {item item' : Item}
    (p : Place (part.schema.optional name) t.codec.schema.layout)
    (h : t.codec.schema.write m = .ok fields)
    (hwrite : (part.schema.optional name).write (some sub) = .ok item')
    (hread : (part.schema.optional name).read t.codec.typeName item = .ok (some sub)) :
    t.Reads (fields.set p.index item) (t.codec.schema.put p m (some sub)) := by
  have hput := p.write_set h hwrite
  rw [← t.codec.schema.toRow_put] at hput
  exact reads_of_write hput fun hback => Schema.read_set p h hback hread

theorem nested_interoperates {part : Part} {name : String} {sub : part.Message}
    (h : t.codec.schema.write m = .ok fields)
    (p : Place (part.schema.optional name) t.codec.schema.layout)
    (hp : p.get (t.codec.schema.toRow m) = some sub) :
    ∃ inner, part.schema.write sub = .ok inner ∧ fields[p.index]? = some (.list inner) ∧
      (∀ k, 1 ≤ k → t.Reads (fields.set p.index (.list (inner.take k)))
        (t.codec.schema.put p m (some (part.schema.keep k sub)))) ∧
      ∀ more, t.Reads (fields.set p.index (.list (inner ++ more))) m := by
  obtain ⟨item, hitem, hindex⟩ := p.write_get h
  rw [hp] at hitem
  obtain ⟨inner, hinner, rfl⟩ := Except.map_eq_ok.mp hitem
  refine ⟨inner, hinner, hindex, fun k hk => ?_, fun more => ?_⟩
  · obtain ⟨kept, hkept⟩ := Schema.write_keep part.lawful hinner k
    have hwrite : (part.schema.optional name).write (some (part.schema.keep k sub)) =
        .ok (.list kept) := Except.map_eq_ok.mpr ⟨kept, hkept, rfl⟩
    exact reads_set p h hwrite (Part.read_take hinner hk)
  · have hreads := reads_set p h hitem (Part.read_append hinner more)
    rwa [Schema.put_get hp] at hreads

/-- **Old and new editions interoperate**, for every message that can be encoded. -/
theorem interoperates (hraw : t.codec.encode m = .ok raw) :
    ∃ fields, raw = (Item.list fields).encode ∧ t.Interoperates m fields := by
  obtain ⟨fields, rfl, h⟩ := Codec.encode_eq_ok hraw
  refine ⟨fields, rfl, ?_⟩
  constructor
  case older =>
    intro k
    obtain ⟨kept, hkept⟩ := Schema.write_keep t.lawful h k
    exact reads_of_write hkept fun hback => Schema.read_take h hback
  case newer =>
    intro more
    exact reads_of_write h fun hback => Schema.read_append h hback more
  case nested =>
    intro part name p sub hp
    exact nested_interoperates h p hp

end MessageType

/-- A request for ten NFTs of a class, from a key on. -/
def NftsRequest.tenMore : NftsRequest where
  classId := "c"
  owner := ""
  pagination := some ⟨[1], 0, 10, true, false⟩

/-- Without a page, with a later field, and with a page of the key alone or of one more field. -/
theorem MessageType.interoperates_tenMore :
    nfts.codec.encode NftsRequest.tenMore =
        .ok [0xc8, 0x63, 0x80, 0xc5, 0x01, 0x80, 0x0a, 0x01, 0x80] ∧
      nfts.codec.decode [0xc2, 0x63, 0x80] = .ok ⟨"c", "", none⟩ ∧
      nfts.codec.decode [0xc9, 0x63, 0x80, 0xc5, 0x01, 0x80, 0x0a, 0x01, 0x80, 0x07] =
        .ok NftsRequest.tenMore ∧
      nfts.codec.decode [0xc4, 0x63, 0x80, 0xc1, 0x01] =
        .ok ⟨"c", "", some ⟨[1], 0, 0, false, false⟩⟩ ∧
      nfts.codec.decode [0xc9, 0x63, 0x80, 0xc6, 0x01, 0x80, 0x0a, 0x01, 0x80, 0x07] =
        .ok NftsRequest.tenMore := by
  have hencode : nfts.codec.encode NftsRequest.tenMore =
      .ok [0xc8, 0x63, 0x80, 0xc5, 0x01, 0x80, 0x0a, 0x01, 0x80] := rfl
  let page : List Item := [.bytes [1], .bytes [], .bytes [10], .bytes [1], .bytes []]
  let items : List Item := [.bytes [0x63], .bytes [], .list page]
  obtain ⟨fields, hraw, hfields⟩ := interoperates hencode
  have hlist : Item.list items = Item.list fields := Rlp.eq_of_encode_eq hraw (by decide)
  obtain rfl : items = fields := Item.list.inj hlist
  let place : Place (Part.page.schema.optional "pagination") nfts.codec.schema.layout :=
    .there (.there .here)
  obtain ⟨inner, hinner, -, holder, hnewer⟩ :=
    hfields.nested .page "pagination" place ⟨[1], 0, 10, true, false⟩ rfl
  obtain rfl : page = inner := Except.ok.inj (hinner.symm.trans rfl).symm
  refine ⟨hencode, ?_, ?_, ?_, ?_⟩
  · exact (hfields.older 2 (by decide)).mpr trivial
  · exact (hfields.newer [.bytes [7]] (by decide)).mpr trivial
  · exact (holder 1 (le_refl 1) (by decide)).mpr trivial
  · exact (hnewer [.bytes [7]] (by decide)).mpr trivial

/-- A new token with too large a precision. -/
def IssueToken.overlarge : IssueToken := { IssueToken.empty with precision := 2 ^ 32 }

/-- Too large a precision is written but not read, in an older edition that has it as well. -/
theorem MessageType.overlarge_not_read :
    ∃ fields, issueToken.codec.encode IssueToken.overlarge = .ok (Item.list fields).encode ∧
      issueToken.codec.decode (Item.list (fields.take 4)).encode =
        .error (.decode "MsgIssue" (.field "precision" .tooLarge)) ∧
      issueToken.codec.decode (Item.list (fields ++ [])).encode =
        .error (.decode "MsgIssue" (.field "precision" .tooLarge)) :=
  ⟨[.bytes [], .bytes [], .bytes [], .bytes [1, 0, 0, 0, 0], .bytes [], .bytes [], .list [],
    .bytes [], .bytes [], .bytes [], .bytes []], rfl, rfl, rfl⟩

end TokenLedger
