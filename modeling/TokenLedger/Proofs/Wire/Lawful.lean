import TokenLedger.Proofs.Rlp.Canonical
import TokenLedger.Proofs.Wire

/-!
# What a field makes of any item

A lawful field reads an item, whatever its shape, as a value that it can write and read back, or
fails with a fault of the message or of the field itself.  What it writes is not much longer than
what it was read from.  All kinds of fields are lawful; rows of lawful fields inherit all this.
-/

namespace TokenLedger.Wire

open Rlp (Item encodeAll encodeBytes)

variable {α β M : Type} {name t : String} {item : Item} {items : List Item} {e : Fault}

/-- A fault of a message of the named type itself. -/
def IsFaultOf (typeName : String) (e : Fault) : Prop := ∃ cause, e = .decode typeName cause

/-- Items below this length are still short enough for a header when they are written again. -/
def roomyLength : Nat := 2 ^ 59

/-- What holds of a field whatever item it reads.  What it writes may be longer than what it read,
as a byte of bad text is written in three, behind a header of up to nine; a factor of sixteen has
room for both, and for the fields that a nested message was read without. -/
structure Field.Lawful (f : Field α) : Prop where
  zero_readsBack : f.ReadsBack f.zero
  zero_short : ∃ item, f.write f.zero = .ok item ∧ item.encode.length = 1
  readsBack : ∀ t item a, f.read t item = .ok a → f.ReadsBack a
  grows : ∀ t item a item', item.encode.length < roomyLength → f.read t item = .ok a →
    f.write a = .ok item' → item'.encode.length ≤ 16 * item.encode.length
  faults : ∀ t item e, f.read t item = .error e → IsFaultOf t e ∨ IsFaultOf (subtypeName t f.name) e

/-- All faults of the field are faults of the message. -/
def Field.Plain (f : Field α) : Prop := ∀ t item e, f.read t item = .error e → IsFaultOf t e

/-- The field reads no item but the one that it writes for the value. -/
def Field.Exact (f : Field α) : Prop := ∀ t item a, f.read t item = .ok a → f.write a = .ok item

/-! ### Items -/

theorem one_le_length (item : Item) : 1 ≤ item.encode.length :=
  List.length_pos_iff.mpr (Rlp.encode_ne_nil item)

theorem length_encodeAll_cons (item : Item) (items : List Item) :
    (encodeAll (item :: items)).length = item.encode.length + (encodeAll items).length := by
  rw [encodeAll, List.length_append]

theorem bytesOf_eq_ok {b : Bytes} (h : bytesOf t name item = .ok b) : item = .bytes b := by
  cases item with
  | bytes b' => rw [Except.ok.inj h]
  | list items => cases h

theorem itemsOf_eq_ok (h : itemsOf t name item = .ok items) : item = .list items := by
  cases item with
  | bytes b => cases h
  | list items' => rw [Except.ok.inj h]

theorem natOf_eq_ok {n : Nat} (h : natOf t name item = .ok n) :
    item = .bytes (Bytes.bigEndian n) := by
  obtain ⟨b, hb, hread⟩ := Except.bind_eq_ok.mp h
  split_ifs at hread with hzero
  rw [bytesOf_eq_ok hb, ← Except.ok.inj hread, Bytes.bigEndian_toNat hzero]

theorem isFaultOf_bytesOf (h : bytesOf t name item = .error e) : IsFaultOf t e := by
  cases item with
  | bytes b => cases h
  | list items => exact ⟨_, (Except.error.inj h).symm⟩

theorem isFaultOf_itemsOf (h : itemsOf t name item = .error e) : IsFaultOf t e := by
  cases item with
  | bytes b => exact ⟨_, (Except.error.inj h).symm⟩
  | list items => cases h

theorem isFaultOf_natOf (h : natOf t name item = .error e) : IsFaultOf t e := by
  rcases Except.bind_eq_error.mp h with hbytes | ⟨b, -, hread⟩
  · exact isFaultOf_bytesOf hbytes
  · split_ifs at hread
    exact ⟨_, (Except.error.inj hread).symm⟩

/-! ### Plain and exact fields -/

namespace Field

variable {f : Field α} {a : α}

theorem Exact.grows (h : f.Exact) {item' : Item} (hread : f.read t item = .ok a)
    (hwrite : f.write a = .ok item') : item'.encode.length ≤ 16 * item.encode.length := by
  obtain rfl := Except.ok.inj ((h t item a hread).symm.trans hwrite)
  omega

theorem exact_bytes : (bytes name).Exact := by
  intro t item b h
  rw [bytesOf_eq_ok h]
  rfl

theorem exact_integer : (integer name).Exact := by
  intro t item n h
  obtain ⟨k, hk, rfl⟩ := Except.map_eq_ok.mp h
  rw [natOf_eq_ok hk]
  exact ofInt_of_nonneg (Int.natCast_nonneg k)

theorem exact_word : (word name).Exact := by
  intro t item n h
  obtain ⟨k, hk, hread⟩ := Except.bind_eq_ok.mp h
  split_ifs at hread
  obtain rfl := Except.ok.inj hread
  rw [natOf_eq_ok hk]
  exact ofInt_of_nonneg (Int.natCast_nonneg k)

/-- What is read as a feature is read as a word, and as no greater one than four. -/
theorem word_of_feature {n : Int} (h : (feature name).read t item = .ok n) :
    (word name).read t item = .ok n ∧ n ≤ 4 := by
  obtain ⟨k, hk, hread⟩ := Except.bind_eq_ok.mp h
  split_ifs at hread with hfour
  obtain rfl := Except.ok.inj hread
  exact ⟨hk, hfour⟩

theorem exact_feature : (feature name).Exact :=
  fun t item n h => exact_word t item n (word_of_feature h).1

theorem plain_text : (text name).Plain :=
  fun _ _ _ h => isFaultOf_bytesOf (Except.map_eq_error.mp h)

theorem plain_bytes : (bytes name).Plain := fun _ _ _ h => isFaultOf_bytesOf h

theorem plain_integer : (integer name).Plain :=
  fun _ _ _ h => isFaultOf_natOf (Except.map_eq_error.mp h)

theorem plain_flag : (flag name).Plain :=
  fun _ _ _ h => isFaultOf_natOf (Except.map_eq_error.mp h)

theorem plain_word : (word name).Plain := by
  intro t item e h
  rcases Except.bind_eq_error.mp h with hnat | ⟨n, -, hread⟩
  · exact isFaultOf_natOf hnat
  · split_ifs at hread
    exact ⟨_, (Except.error.inj hread).symm⟩

theorem plain_feature : (feature name).Plain := by
  intro t item e h
  rcases Except.bind_eq_error.mp h with hword | ⟨n, -, hread⟩
  · exact plain_word t item e hword
  · split_ifs at hread
    exact ⟨_, (Except.error.inj hread).symm⟩

/-! ### Lawful fields -/

theorem lawful_text : (text name).Lawful where
  zero_readsBack := readsBack_text ""
  zero_short := ⟨_, rfl, rfl⟩
  readsBack _ _ s _ := readsBack_text s
  grows t item s item' hroom hread hwrite := by
    obtain ⟨b, hb, rfl⟩ := Except.map_eq_ok.mp hread
    obtain rfl := bytesOf_eq_ok hb
    obtain rfl := Except.ok.inj hwrite
    rw [Item.encode] at hroom ⊢
    rw [Item.encode]
    unfold roomyLength at hroom
    have hone : 1 ≤ (encodeBytes b).length := one_le_length (.bytes b)
    have hlength := Rlp.length_le_encodeBytes b
    have hgrown := Utf8.length_encode_decode_le b
    have hroom' : (Utf8.encode (Utf8.decode b)).length < 2 ^ 64 := by omega
    have hwritten := Rlp.length_encodeBytes_le hroom'
    omega
  faults t item e h := .inl (plain_text t item e h)

/-- A field that reads no item but the one it writes has nothing to grow. -/
theorem lawful_of_exact {f : Field α} (hplain : f.Plain) (hexact : f.Exact)
    (hzero : f.ReadsBack f.zero) (hshort : ∃ item, f.write f.zero = .ok item ∧
      item.encode.length = 1) (hback : ∀ t item a, f.read t item = .ok a → f.ReadsBack a) :
    f.Lawful where
  zero_readsBack := hzero
  zero_short := hshort
  readsBack := hback
  grows _ _ _ _ _ hread hwrite := hexact.grows hread hwrite
  faults t item e h := .inl (hplain t item e h)

theorem lawful_bytes : (bytes name).Lawful :=
  lawful_of_exact plain_bytes exact_bytes (readsBack_bytes []) ⟨_, rfl, rfl⟩
    fun _ _ b _ => readsBack_bytes b

theorem lawful_integer : (integer name).Lawful := by
  refine lawful_of_exact plain_integer exact_integer (readsBack_integer (le_refl 0))
    ⟨_, rfl, rfl⟩ fun t item n h => ?_
  obtain ⟨k, -, rfl⟩ := Except.map_eq_ok.mp h
  exact readsBack_integer (Int.natCast_nonneg k)

theorem lawful_word : (word name).Lawful :=
  lawful_of_exact plain_word exact_word (readsBack_word (by decide : IsWord 0)) ⟨_, rfl, rfl⟩
    fun _ _ _ h => readsBack_word (isWord_read h)

theorem lawful_feature : (feature name).Lawful := by
  refine lawful_of_exact plain_feature exact_feature
    (readsBack_feature (le_refl 0) (by decide : (0 : Int) ≤ 4)) ⟨_, rfl, rfl⟩
    fun t item n h => ?_
  obtain ⟨hword, hfour⟩ := word_of_feature h
  exact readsBack_feature (isWord_read hword).1 hfour

theorem lawful_flag : (flag name).Lawful where
  zero_readsBack := readsBack_flag false
  zero_short := ⟨_, rfl, rfl⟩
  readsBack _ _ b _ := readsBack_flag b
  grows t item b item' _ _ hwrite := by
    have hone := one_le_length item
    have hshort : item'.encode.length = 1 := by
      cases b with
      | false | true =>
        obtain rfl := Except.ok.inj hwrite
        rfl
    omega
  faults t item e h := .inl (plain_flag t item e h)

/-! ### Lists -/

theorem Exact.mapM {f : Field α} (hf : f.Exact) {as : List α}
    (h : items.mapM (f.read t) = .ok as) : as.mapM f.write = .ok items := by
  induction items generalizing as with
  | nil =>
    obtain rfl := Except.ok.inj h
    rfl
  | cons item items ih =>
    obtain ⟨a, rest, ha, hrest, rfl⟩ := Except.mapM_cons_eq_ok.mp h
    exact Except.mapM_cons_eq_ok.mpr ⟨item, items, hf t item a ha, ih hrest, rfl⟩

theorem Exact.repeated {f : Field α} (hf : f.Exact) : (repeated name f).Exact := by
  intro t item as h
  obtain ⟨items, hitems, hread⟩ := Except.bind_eq_ok.mp h
  rw [itemsOf_eq_ok hitems]
  exact Except.map_eq_ok.mpr ⟨items, hf.mapM hread, rfl⟩

theorem lawful_repeated {f : Field α} (hf : f.Lawful) (hplain : f.Plain) (hexact : f.Exact) :
    (repeated name f).Lawful where
  zero_readsBack := readsBack_repeated fun _ h => absurd h List.not_mem_nil
  zero_short := ⟨_, rfl, rfl⟩
  readsBack t item as h := by
    obtain ⟨items, -, hread⟩ := Except.bind_eq_ok.mp h
    exact readsBack_repeated (mapM_eq_ok_forall (hf.readsBack _) hread)
  grows _ _ _ _ _ hread hwrite := hexact.repeated.grows hread hwrite
  faults t item e h := by
    rcases Except.bind_eq_error.mp h with hitems | ⟨items, -, hread⟩
    · exact .inl (isFaultOf_itemsOf hitems)
    · obtain ⟨inner, -, hinner⟩ := Except.exists_of_mapM_eq_error hread
      exact .inr (hplain _ inner e hinner)

end Field

/-! ### Rows -/

namespace Layout

/-- A property of all fields. -/
def Forall (P : {α : Type} → Field α → Prop) : {α : Type} → Layout α → Prop
  | _, .nil => True
  | _, .cons head tail => P head ∧ tail.Forall P

/-- The names of the fields. -/
def names : {α : Type} → Layout α → List String
  | _, .nil => []
  | _, .cons head tail => head.name :: tail.names

variable {l : Layout α} {row : α}

/-- What is read of a row can be written and is read back. -/
theorem readsBack_read (hl : l.Forall Field.Lawful) (h : l.read t items = .ok row) :
    l.ReadsBack row := by
  induction l generalizing items with
  | nil => trivial
  | cons head tail ih =>
    obtain ⟨a, row⟩ := row
    obtain ⟨hhead, htail⟩ := hl
    obtain ⟨ha, hrow⟩ := read_cons_eq_ok.mp h
    refine ⟨?_, ih htail hrow⟩
    cases hitem : items.head? with
    | none =>
      rw [hitem] at ha
      obtain rfl := Except.ok.inj ha
      exact hhead.zero_readsBack
    | some item =>
      rw [hitem] at ha
      exact hhead.readsBack t item a ha

/-- A row that is read of some items is written in at most sixteen times their bytes and one byte a
missing field. -/
theorem length_write_le (hl : l.Forall Field.Lawful) {items' : List Item}
    (hroom : (encodeAll items).length < roomyLength) (hread : l.read t items = .ok row)
    (hwrite : l.write row = .ok items') :
    (encodeAll items').length ≤ 16 * (encodeAll items).length + l.width := by
  induction l generalizing items items' with
  | nil =>
    obtain rfl := Except.ok.inj hwrite
    exact Nat.zero_le _
  | cons head tail ih =>
    obtain ⟨a, row⟩ := row
    obtain ⟨hhead, htail⟩ := hl
    obtain ⟨ha, hrow⟩ := read_cons_eq_ok.mp hread
    obtain ⟨item', rest', hitem', hrest', rfl⟩ := write_cons_eq_ok hwrite
    rw [length_encodeAll_cons, width]
    cases items with
    | nil =>
      obtain rfl := Except.ok.inj ha
      obtain ⟨zero, hzero, hshort⟩ := hhead.zero_short
      obtain rfl : item' = zero := Except.ok.inj (hitem'.symm.trans hzero)
      have hrest := ih htail hroom hrow hrest'
      omega
    | cons item items =>
      rw [length_encodeAll_cons] at hroom ⊢
      have hroomHead : item.encode.length < roomyLength := by omega
      have hroomTail : (encodeAll items).length < roomyLength := by omega
      have hgrown := hhead.grows t item a item' hroomHead ha hitem'
      have hrest := ih htail hroomTail hrow hrest'
      omega

/-- A row that cannot be read has a field whose item cannot be read. -/
theorem exists_field_of_error {P : {α : Type} → Field α → Prop} (hl : l.Forall P)
    (h : l.read t items = .error e) :
    ∃ (β : Type) (f : Field β) (item : Item),
      P f ∧ f.name ∈ l.names ∧ f.read t item = .error e := by
  induction l generalizing items with
  | nil => cases h
  | @cons β _ head tail ih =>
    obtain ⟨hhead, htail⟩ := hl
    rcases Except.bind_eq_error.mp h with ha | ⟨a, -, hrest⟩
    · cases hitem : items.head? with
      | none =>
        rw [hitem] at ha
        cases ha
      | some item =>
        rw [hitem] at ha
        exact ⟨β, head, item, hhead, List.mem_cons_self, ha⟩
    · rcases Except.bind_eq_error.mp hrest with hfail | ⟨row, -, hrow⟩
      · obtain ⟨γ, f, item, hf, hname, hread⟩ := ih htail hfail
        exact ⟨γ, f, item, hf, List.mem_cons_of_mem _ hname, hread⟩
      · cases hrow

/-- Reading a row fails with a fault of the message or of one of its fields. -/
theorem faults_read (hl : l.Forall Field.Lawful) (h : l.read t items = .error e) :
    IsFaultOf t e ∨ ∃ name ∈ l.names, IsFaultOf (subtypeName t name) e := by
  obtain ⟨β, f, item, hf, hname, hread⟩ := exists_field_of_error hl h
  rcases hf.faults t item e hread with hfault | hfault
  · exact .inl hfault
  · exact .inr ⟨f.name, hname, hfault⟩

theorem plain_read (hl : l.Forall Field.Plain) (h : l.read t items = .error e) :
    IsFaultOf t e := by
  obtain ⟨β, f, item, hf, -, hread⟩ := exists_field_of_error hl h
  exact hf t item e hread

end Layout

/-! ### Nested messages -/

namespace Schema

variable {s : Schema M} {o : Option M}

/-- A nested message is absent, from the empty list, or what the items of a list are read as. -/
theorem optional_read_eq_ok (h : (s.optional name).read t item = .ok o) :
    (item = .list [] ∧ o = none) ∨
      ∃ items m, item = .list items ∧ items ≠ [] ∧ o = some m ∧
        s.layout.read (subtypeName t name) items = .ok (s.toRow m) := by
  obtain ⟨items, hitems, hread⟩ := Except.bind_eq_ok.mp h
  obtain rfl := itemsOf_eq_ok hitems
  split_ifs at hread with hempty
  · obtain rfl := Except.ok.inj hread
    exact .inl ⟨congrArg Item.list (List.isEmpty_iff.mp hempty), rfl⟩
  · obtain ⟨m, hm, rfl⟩ := Except.map_eq_ok.mp hread
    obtain ⟨row, hrow, rfl⟩ := Except.map_eq_ok.mp hm
    have hne : items ≠ [] := fun hnil => hempty (List.isEmpty_iff.mpr hnil)
    rw [← s.toRow_ofRow row] at hrow
    exact .inr ⟨items, s.ofRow row, rfl, hne, rfl, hrow⟩

/-- A nested message of a few plain fields is lawful as a field. -/
theorem lawful_optional (hlawful : s.layout.Forall Field.Lawful)
    (hplain : s.layout.Forall Field.Plain) (hsome : 0 < s.layout.width)
    (hfew : s.layout.width ≤ 7) : (s.optional name).Lawful where
  zero_readsBack := Schema.readsBack_optional hsome fun _ h => by cases h
  zero_short := ⟨_, rfl, rfl⟩
  readsBack t item o h := by
    refine Schema.readsBack_optional hsome fun m hm => ?_
    obtain rfl := Option.mem_def.mp hm
    rcases optional_read_eq_ok h with ⟨-, habsent⟩ | ⟨items, m', -, -, hpresent, hread⟩
    · cases habsent
    · obtain rfl := Option.some.inj hpresent
      exact Layout.readsBack_read hlawful hread
  grows t item o item' hroom hread hwrite := by
    rcases optional_read_eq_ok hread with ⟨rfl, rfl⟩ | ⟨items, m, rfl, -, rfl, hrow⟩
    · obtain rfl := Except.ok.inj hwrite
      omega
    · -- the header that was read pays for the new header and for a byte each missing field
      obtain ⟨items', hitems', rfl⟩ := Except.map_eq_ok.mp hwrite
      have hinner := Rlp.length_encodeAll_lt items
      unfold roomyLength at hroom
      have hgrown := Layout.length_write_le hlawful (lt_trans hinner hroom) hrow hitems'
      have hroom' : (encodeAll items').length < 2 ^ 64 := by omega
      have hlist := Rlp.length_encode_list_le hroom'
      omega
  faults t item e h := by
    rcases Except.bind_eq_error.mp h with hitems | ⟨items, -, hread⟩
    · exact .inl (isFaultOf_itemsOf hitems)
    · split_ifs at hread
      have hrow := Except.map_eq_error.mp (Except.map_eq_error.mp hread)
      exact .inr (Layout.plain_read hplain hrow)

end Schema

/-! ### Codecs -/

namespace Codec

variable {c : Codec M} {m : M} {raw raw' : Bytes}

/-- What a fault may call the message: by the name of its type, or by that of one of its fields
behind a dot. -/
def faultNames (c : Codec M) : List String :=
  c.typeName :: c.schema.layout.names.map (subtypeName c.typeName)

/-- Bytes that are no message fail with a fault that has one of the names. -/
theorem isFaultOf_decode (hl : c.schema.layout.Forall Field.Lawful)
    (h : c.decode raw = .error e) : ∃ typeName ∈ c.faultNames, IsFaultOf typeName e := by
  have hown : c.typeName ∈ c.faultNames := List.mem_cons_self
  unfold decode at h
  split at h
  · exact ⟨c.typeName, hown, _, (Except.error.inj h).symm⟩
  · exact ⟨c.typeName, hown, _, (Except.error.inj h).symm⟩
  · have hrow := Except.map_eq_error.mp h
    rcases Layout.faults_read hl hrow with hfault | ⟨name, hname, hfault⟩
    · exact ⟨c.typeName, hown, hfault⟩
    · have hmem : subtypeName c.typeName name ∈ c.faultNames :=
        List.mem_cons_of_mem _ (List.mem_map_of_mem hname)
      exact ⟨_, hmem, hfault⟩

/-- A message that was read of some bytes can be written. -/
theorem readsBack_decode (hl : c.schema.layout.Forall Field.Lawful) (h : c.decode raw = .ok m) :
    c.schema.layout.ReadsBack (c.schema.toRow m) := by
  obtain ⟨items, -, hrow⟩ := Codec.decode_eq_ok h
  exact Layout.readsBack_read hl hrow

/-- A message that was read of few enough bytes is written in few enough bytes to be read again. -/
theorem length_encode_lt (hl : c.schema.layout.Forall Field.Lawful)
    (hwidth : c.schema.layout.width ≤ 11) (hraw : raw.length < roomyLength)
    (h : c.decode raw = .ok m) (hencode : c.encode m = .ok raw') : raw'.length < 2 ^ 64 := by
  obtain ⟨items, hitems, hrow⟩ := Codec.decode_eq_ok h
  obtain rfl := Rlp.eq_encode_of_decode_list hitems
  obtain ⟨items', hwrite, hlist⟩ := Except.bind_eq_ok.mp hencode
  obtain rfl := Except.ok.inj hlist
  have hinner := Rlp.length_encodeAll_lt items
  unfold roomyLength at hraw
  have hgrown := Layout.length_write_le hl (lt_trans hinner hraw) hrow hwrite
  exact Rlp.length_encode_list_lt (by omega)

end Codec

end TokenLedger.Wire
