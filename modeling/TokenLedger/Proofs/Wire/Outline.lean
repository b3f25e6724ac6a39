import TokenLedger.Message.Asset
import TokenLedger.Wire.Outline

/-!
# Outlines read as codecs do

An outline that names the fields of a layout, kind by kind, reads the same items: what a codec reads
is shown by name, and where a codec fails the outline fails with the same fault (`readOutline_eq`).
-/

namespace TokenLedger.Wire

open Rlp (Item)

variable {α M : Type}

/-! ### Outlines of layouts -/

mutual

/-- A slot stands for a field of its kind and name, and shows the field's values as its own. -/
inductive Slot.StandsFor : {α : Type} → Slot → Field α → (α → Value) → Prop
  | text (name : String) : Slot.StandsFor (.text name) (.text name) .text
  | bytes (name : String) : Slot.StandsFor (.bytes name) (.bytes name) .bytes
  | integer (name : String) : Slot.StandsFor (.integer name) (.integer name) .integer
  | word (name : String) : Slot.StandsFor (.word name) (.word name) .word
  | flag (name : String) : Slot.StandsFor (.flag name) (.flag name) .flag
  | texts (name : String) : Slot.StandsFor (.texts name) (.repeated name (.text "item")) .texts
  | words (name : String) : Slot.StandsFor (.words name) (.repeated name (.word "item")) .words
  | message {M : Type} {s : Schema M} {slots : List Slot}
      {shown : s.Row → List (String × Value)} (name : String)
      (members : Outlines slots s.layout shown) :
      Slot.StandsFor (.message name slots) (s.optional name)
        fun m => .message (m.map fun m => shown (s.toRow m))

/-- Slots stand for the fields of a layout, one by one, and show its rows by name. -/
inductive Outlines : {α : Type} → List Slot → Layout α → (α → List (String × Value)) → Prop
  | nil : Outlines [] .nil fun _ => []
  | cons {α β : Type} {slot : Slot} {slots : List Slot} {f : Field α} {l : Layout β}
      {shown : α → Value} {later : β → List (String × Value)}
      (head : slot.StandsFor f shown) (tail : Outlines slots l later) :
      Outlines (slot :: slots) (.cons f l) fun row => (f.name, shown row.1) :: later row.2

end

theorem Slot.StandsFor.name_eq {slot : Slot} {f : Field α} {shown : α → Value}
    (h : slot.StandsFor f shown) : slot.name = f.name := by
  cases h <;> rfl

/-! ### Reading -/

mutual

/-- A slot reads what its field reads; the cases are the kinds of fields. -/
theorem Slot.StandsFor.read_eq {α : Type} {slot : Slot} {f : Field α} {shown : α → Value}
    (h : slot.StandsFor f shown) (t : String) (item : Option Item) :
    slot.read t item = shown <$> f.readOr t item := by
  cases h with
  | text name => rw [Slot.read]
  | bytes name => rw [Slot.read]
  | integer name => rw [Slot.read]
  | word name => rw [Slot.read]
  | flag name => rw [Slot.read]
  | texts name => rw [Slot.read]
  | words name => rw [Slot.read]
  | @message M s slots shown name members =>
    cases item with
    | none =>
      rw [Slot.read]
      rfl
    | some item =>
      rw [Slot.read]
      show _ = _ <$> (itemsOf t name item >>= fun items => if items.isEmpty then .ok none
        else some <$> s.read (subtypeName t name) items)
      cases itemsOf t name item with
      | error e => rfl
      | ok items =>
        show (if items.isEmpty then _ else _) = _ <$> (if items.isEmpty then _ else _)
        cases items.isEmpty with
        | true => rfl
        | false =>
          show (readSlots slots (subtypeName t name) items >>= _) =
            _ <$> (some <$> s.read (subtypeName t name) items)
          rw [members.readSlots_eq, Schema.read]
          cases s.layout.read (subtypeName t name) items with
          | error e => rfl
          | ok row =>
            show _ = Except.ok (Value.message (some (shown (s.toRow (s.ofRow row)))))
            rw [s.toRow_ofRow]
            rfl

/-- Slots read the row of their layout, whatever the items are. -/
theorem Outlines.readSlots_eq {α : Type} {slots : List Slot} {l : Layout α}
    {shown : α → List (String × Value)} (h : Outlines slots l shown) (t : String)
    (items : List Item) : readSlots slots t items = shown <$> l.read t items := by
  cases h with
  | nil =>
    rw [readSlots]
    rfl
  | @cons α β slot slots f l shown later head tail =>
    rw [readSlots, head.read_eq, tail.readSlots_eq, head.name_eq]
    show _ = _ <$> (f.readOr t items.head? >>= fun a => l.read t items.tail >>= fun row =>
      Except.ok (a, row))
    cases f.readOr t items.head? with
    | error e => rfl
    | ok a => cases l.read t items.tail <;> rfl

end

/-- **An outline reads as a codec does.**  If it stands for the fields of the codec, it reads the
same bytes: as the members of the message that the codec reads, or with the codec's fault. -/
theorem readOutline_eq (c : Codec M) {slots : List Slot}
    {shown : c.schema.Row → List (String × Value)} (h : Outlines slots c.schema.layout shown)
    (raw : Bytes) :
    readOutline c.typeName slots raw = (fun m => shown (c.schema.toRow m)) <$> c.decode raw := by
  unfold readOutline Codec.decode
  cases Rlp.decode raw with
  | error e => rfl
  | ok item =>
    cases item with
    | bytes b => rfl
    | list items =>
      show readSlots slots c.typeName items =
        _ <$> (c.schema.ofRow <$> c.schema.layout.read c.typeName items)
      rw [h.readSlots_eq]
      cases c.schema.layout.read c.typeName items with
      | error e => rfl
      | ok row =>
        show _ = Except.ok (shown (c.schema.toRow (c.schema.ofRow row)))
        rw [c.schema.toRow_ofRow]
        rfl

/-- The outline of an order to burn, with the coin in it, reads such orders. -/
example (raw : Bytes) :
    readOutline "MsgBurn" [.text "sender", .message "coin" [.text "denom", .text "amount"]] raw =
      (fun m => [("sender", .text m.sender),
        ("coin", .message (m.coin.map fun coin =>
          [("denom", .text coin.denom), ("amount", .text coin.amount)]))]) <$>
        BurnToken.codec.decode raw := by
  have hcoin : Outlines [.text "denom", .text "amount"] WireCoin.schema.layout _ :=
    .cons (.text "denom") (.cons (.text "amount") .nil)
  exact readOutline_eq BurnToken.codec
    (.cons (.text "sender") (.cons (.message "coin" hcoin) .nil)) raw

end TokenLedger.Wire
