import TokenLedger.Wire.Schema
import TokenLedger.Proofs.Asset.Record
import TokenLedger.Proofs.Rlp

/-!
# Fields are read back

A field reads back a value if it has an item for it and reads that item as the value.  Rows of such
values are read back by their layout, in front of any surplus items, and so are messages, the nested
ones that are present or absent and the outermost one of a codec.
-/

namespace TokenLedger.Wire

open Rlp (Item)

variable {α M : Type} {name : String}

/-- The field has an item for the value and reads it as the value, whatever the message. -/
def Field.ReadsBack (f : Field α) (a : α) : Prop :=
  ∃ item, f.write a = .ok item ∧ ∀ typeName, f.read typeName item = .ok a

/-! ### Integers -/

theorem ofInt_of_nonneg {n : Int} (h : 0 ≤ n) : ofInt n = .ok (.bytes (Bytes.bigEndian n.toNat)) :=
  if_neg (Int.not_lt.mpr h)

theorem nonneg_of_ofInt {n : Int} {item : Item} (h : ofInt n = .ok item) : 0 ≤ n := by
  unfold ofInt at h
  split_ifs at h with hneg
  exact Int.not_lt.mp hneg

theorem natOf_bytes (typeName name : String) (b : Bytes) :
    natOf typeName name (.bytes b) =
      if b.head? = some 0 then .error (fieldFault typeName name .nonCanonical)
      else .ok b.toNat := rfl

theorem natOf_bigEndian (typeName name : String) (n : Nat) :
    natOf typeName name (.bytes (Bytes.bigEndian n)) = .ok n := by
  rw [natOf_bytes, if_neg (Bytes.head?_bigEndian n), Bytes.toNat_bigEndian]

namespace Field

theorem readsBack_integer {n : Int} (h : 0 ≤ n) : (integer name).ReadsBack n := by
  refine ⟨_, ofInt_of_nonneg h, fun typeName => ?_⟩
  show (fun k => Int.ofNat k) <$> natOf typeName name _ = .ok n
  rw [natOf_bigEndian]
  exact congrArg Except.ok (Int.toNat_of_nonneg h)

theorem readsBack_word {n : Int} (h : IsWord n) : (word name).ReadsBack n := by
  obtain ⟨h0, hmax⟩ := h
  refine ⟨_, ofInt_of_nonneg h0, fun typeName => ?_⟩
  show natOf typeName name _ >>= _ = .ok n
  rw [natOf_bigEndian]
  have hword : ¬ 0xffffffff < n.toNat := by omega
  show (if 0xffffffff < n.toNat then Except.error _ else Except.ok (Int.ofNat n.toNat)) = _
  rw [if_neg hword]
  exact congrArg Except.ok (Int.toNat_of_nonneg h0)

theorem readsBack_feature {n : Int} (h0 : 0 ≤ n) (h4 : n ≤ 4) : (feature name).ReadsBack n := by
  have hword : (word name).ReadsBack n := readsBack_word ⟨h0, by omega⟩
  obtain ⟨item, hwrite, hread⟩ := hword
  refine ⟨item, hwrite, fun typeName => ?_⟩
  show (word name).read typeName item >>= _ = .ok n
  rw [hread typeName]
  exact if_pos h4

theorem readsBack_flag (b : Bool) : (flag name).ReadsBack b := by
  refine ⟨_, ofInt_of_nonneg (by cases b <;> decide), fun typeName => ?_⟩
  show (fun n => decide (n ≠ 0)) <$> natOf typeName name _ = .ok b
  rw [natOf_bigEndian]
  cases b <;> rfl

/-! ### Strings and lists -/

theorem readsBack_text (s : String) : (text name).ReadsBack s := by
  refine ⟨_, rfl, fun typeName => ?_⟩
  exact congrArg Except.ok (Utf8.decode_encode s)

theorem readsBack_bytes (b : Bytes) : (bytes name).ReadsBack b := ⟨_, rfl, fun _ => rfl⟩

theorem ReadsBack.mapM {f : Field α} {as : List α} (h : ∀ a ∈ as, f.ReadsBack a) :
    ∃ items, as.mapM f.write = .ok items ∧
      ∀ typeName, items.mapM (f.read typeName) = .ok as := by
  induction as with
  | nil => exact ⟨[], rfl, fun _ => rfl⟩
  | cons a as ih =>
    obtain ⟨ha, has⟩ := List.forall_mem_cons.mp h
    obtain ⟨item, hwrite, hread⟩ := ha
    obtain ⟨items, hwrites, hreads⟩ := ih has
    refine ⟨item :: items, ?_, fun typeName => ?_⟩
    · rw [List.mapM_cons, hwrite, hwrites]
      rfl
    · rw [List.mapM_cons, hread, hreads]
      rfl

theorem readsBack_repeated {f : Field α} {as : List α} (h : ∀ a ∈ as, f.ReadsBack a) :
    (repeated name f).ReadsBack as := by
  obtain ⟨items, hwrite, hread⟩ := ReadsBack.mapM h
  refine ⟨.list items, ?_, fun typeName => hread _⟩
  show Item.list <$> as.mapM f.write = _
  rw [hwrite]
  rfl

end Field

/-! ### Rows -/

namespace Layout

/-- Every value of a row is read back by its field. -/
def ReadsBack : {α : Type} → Layout α → α → Prop
  | _, .nil, _ => True
  | _, .cons head tail, (a, row) => head.ReadsBack a ∧ tail.ReadsBack row

/-- The number of fields. -/
def width : {α : Type} → Layout α → Nat
  | _, .nil => 0
  | _, .cons _ tail => tail.width + 1

theorem write_cons_eq_ok {β : Type} {head : Field α} {tail : Layout β} {a : α} {row : β}
    {items : List Item} (h : (Layout.cons head tail).write (a, row) = .ok items) :
    ∃ item rest, head.write a = .ok item ∧ tail.write row = .ok rest ∧ items = item :: rest := by
  obtain ⟨item, hitem, h⟩ := Except.bind_eq_ok.mp h
  obtain ⟨rest, hrest, h⟩ := Except.bind_eq_ok.mp h
  exact ⟨item, rest, hitem, hrest, (Except.ok.inj h).symm⟩

/-- The items of a row are read as that row, also in front of items of later fields. -/
theorem read_write {l : Layout α} {row : α} (h : l.ReadsBack row) :
    ∃ items, l.write row = .ok items ∧ items.length = l.width ∧
      ∀ typeName more, l.read typeName (items ++ more) = .ok row := by
  induction l with
  | nil => exact ⟨[], rfl, rfl, fun _ _ => rfl⟩
  | cons head tail ih =>
    obtain ⟨a, row⟩ := row
    obtain ⟨⟨item, hwrite, hread⟩, htail⟩ := h
    obtain ⟨items, hwrites, hwidth, hreads⟩ := ih htail
    refine ⟨item :: items, ?_, congrArg Nat.succ hwidth, fun typeName more => ?_⟩
    · show (head.write a >>= fun item => tail.write row >>= fun items => .ok (item :: items)) = _
      rw [hwrite, hwrites]
      rfl
    · exact read_cons_eq_ok.mpr ⟨hread typeName, hreads typeName more⟩

end Layout

/-! ### Places in rows -/

/-- Where a layout has a given field. -/
inductive Place {β : Type} (f : Field β) : {α : Type} → Layout α → Type 1
  | here {α : Type} {tail : Layout α} : Place f (.cons f tail)
  | there {γ α : Type} {head : Field γ} {tail : Layout α} (p : Place f tail) :
      Place f (.cons head tail)

namespace Place

/-- The number of fields in front of the place. -/
def index {β : Type} {f : Field β} : {α : Type} → {l : Layout α} → Place f l → Nat
  | _, _, .here => 0
  | _, _, .there p => p.index + 1

/-- The value of a row at the place. -/
def get {β : Type} {f : Field β} : {α : Type} → {l : Layout α} → Place f l → α → β
  | _, _, .here, (b, _) => b
  | _, _, .there p, (_, row) => p.get row

/-- The row with another value at the place. -/
def set {β : Type} {f : Field β} : {α : Type} → {l : Layout α} → Place f l → α → β → α
  | _, _, .here, (_, row), b => (b, row)
  | _, _, .there p, (a, row), b => (a, p.set row b)

variable {β : Type} {f : Field β} {l : Layout α} {row : α} {b : β} {items : List Item} {item : Item}

theorem set_get (p : Place f l) (row : α) : p.set row (p.get row) = row := by
  induction p with
  | here => rfl
  | there p ih => exact congrArg (Prod.mk row.1) (ih row.2)

/-- The value at the place has the item there. -/
theorem write_get (p : Place f l) (h : l.write row = .ok items) :
    ∃ item, f.write (p.get row) = .ok item ∧ items[p.index]? = some item := by
  induction p generalizing items with
  | here =>
    obtain ⟨item, rest, hitem, -, rfl⟩ := Layout.write_cons_eq_ok h
    exact ⟨item, hitem, rfl⟩
  | there p ih =>
    obtain ⟨-, rest, -, hrest, rfl⟩ := Layout.write_cons_eq_ok h
    exact ih hrest

theorem readsBack_get (p : Place f l) (h : l.ReadsBack row) : f.ReadsBack (p.get row) := by
  induction p with
  | here => exact h.1
  | there p ih => exact ih h.2

/-- A row with another value at the place has another item there. -/
theorem write_set (p : Place f l) (h : l.write row = .ok items) (hb : f.write b = .ok item) :
    l.write (p.set row b) = .ok (items.set p.index item) := by
  induction p generalizing items with
  | @here _ tail =>
    obtain ⟨a, row⟩ := row
    obtain ⟨item', rest, -, hrest, rfl⟩ := Layout.write_cons_eq_ok h
    show (f.write b >>= fun item => tail.write row >>= fun items => .ok (item :: items)) = _
    rw [hb, hrest]
    rfl
  | @there _ _ head tail p ih =>
    obtain ⟨a, row⟩ := row
    obtain ⟨item', rest, ha, hrest, rfl⟩ := Layout.write_cons_eq_ok h
    show (head.write a >>= fun item => tail.write (p.set row b) >>= fun items =>
      .ok (item :: items)) = _
    rw [ha, ih hrest]
    rfl

end Place

/-! ### Messages -/

/-- A nested message is told from an absent one by its items, of which it has one a field. -/
theorem Schema.readsBack_optional {s : Schema M} (hs : 0 < s.layout.width) {o : Option M}
    (h : ∀ m ∈ o, s.layout.ReadsBack (s.toRow m)) : (s.optional name).ReadsBack o := by
  cases o with
  | none => exact ⟨.list [], rfl, fun _ => rfl⟩
  | some m =>
    obtain ⟨items, hwrite, hwidth, hread⟩ := Layout.read_write (h m rfl)
    refine ⟨.list items, ?_, fun typeName => ?_⟩
    · show Item.list <$> s.layout.write (s.toRow m) = _
      rw [hwrite]
      rfl
    · have hne : ¬ items.isEmpty = true := by
        rw [List.isEmpty_iff_length_eq_zero]
        omega
      show (if items.isEmpty = true then .ok none else
        some <$> s.ofRow <$> s.layout.read (subtypeName typeName name) items) = .ok (some m)
      have hrow := hread (subtypeName typeName name) []
      rw [List.append_nil] at hrow
      rw [if_neg hne, hrow]
      exact congrArg (fun m => Except.ok (some m)) (s.ofRow_toRow m)

theorem Codec.encode_eq_ok {c : Codec M} {m : M} {raw : Bytes} (h : c.encode m = .ok raw) :
    ∃ items, raw = (Item.list items).encode ∧ c.schema.write m = .ok items := by
  obtain ⟨items, hitems, hraw⟩ := Except.bind_eq_ok.mp h
  exact ⟨items, (Except.ok.inj hraw).symm, hitems⟩

theorem Codec.decode_list {c : Codec M} {items : List Item}
    (h : (Item.list items).encode.length < 2 ^ 64) :
    c.decode (Item.list items).encode = c.schema.read c.typeName items := by
  unfold Codec.decode
  rw [Rlp.decode_encode h]

/-- A message whose fields are read back has bytes, which are read as the message. -/
theorem Codec.decode_encode {c : Codec M} {m : M}
    (h : c.schema.layout.ReadsBack (c.schema.toRow m)) :
    ∃ raw, c.encode m = .ok raw ∧ (raw.length < 2 ^ 64 → c.decode raw = .ok m) := by
  obtain ⟨items, hwrite, -, hread⟩ := Layout.read_write h
  refine ⟨(Item.list items).encode, ?_, fun hlength => ?_⟩
  · show (c.schema.layout.write (c.schema.toRow m) >>= fun items =>
      .ok (Item.list items).encode) = _
    rw [hwrite]
    rfl
  · have hrow := hread c.typeName []
    rw [List.append_nil] at hrow
    rw [Codec.decode_list hlength, Schema.read, hrow]
    exact congrArg Except.ok (c.schema.ofRow_toRow m)

theorem Codec.decode_of_encode {c : Codec M} {m : M} {raw : Bytes}
    (h : c.schema.layout.ReadsBack (c.schema.toRow m)) (hraw : c.encode m = .ok raw)
    (hlength : raw.length < 2 ^ 64) : c.decode raw = .ok m := by
  obtain ⟨raw', hencode, hdecode⟩ := decode_encode h
  obtain rfl : raw = raw' := Except.ok.inj (hraw.symm.trans hencode)
  exact hdecode hlength

end TokenLedger.Wire
