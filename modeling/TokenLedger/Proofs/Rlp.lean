import TokenLedger.Rlp.Decoder
import TokenLedger.Proofs.Bytes
import TokenLedger.Proofs.Except

/-!
# Items are read back

What is written for an item is read as that item, with nothing left over (`decode_encode`), and the
bytes say where they end (`decode_append`, `eq_of_encode_isPrefix`).  A header is told by its first
byte, whose five ranges do not meet; the digits of a long length have to fit in the eight that such a
byte can announce, so that the items are those of fewer than `2 ^ 64` bytes.
-/

namespace TokenLedger.Rlp

variable {b rest : Bytes} {k : Nat}

/-! ### First bytes -/

/-- The five ranges of a first byte, as ranges of numbers. -/
theorem cutItem_ofNat {n : Nat} (h : n < 256) (rest : Bytes) :
    cutItem (UInt8.ofNat n :: rest) =
      if n < 0x80 then .ok (.bytes [UInt8.ofNat n], rest)
      else if n < 0xb8 then cutShortBytes (n - 0x80) rest
      else if n < 0xc0 then cutLongBytes (n - 0xb7) rest
      else if n < 0xf8 then
        (fun r : Bytes × Bytes => (.items r.1, r.2)) <$> cut .outOfBounds (n - 0xc0) rest
      else cutLongList (n - 0xf7) rest := by
  have hn : (UInt8.ofNat n).toNat = n := Utf8.toNat_ofNat h
  have hlt : ∀ c : UInt8, UInt8.ofNat n < c ↔ n < c.toNat := by
    intro c
    rw [UInt8.lt_iff_toNat_lt, hn]
  rw [cutItem]
  simp only [hlt, hn, UInt8.reduceToNat]
  cases cut .outOfBounds (n - 0xc0) rest <;> rfl

theorem cutItem_single {x : UInt8} (hx : x < 0x80) (rest : Bytes) :
    cutItem (x :: rest) = .ok (.bytes [x], rest) := by
  rw [cutItem, if_pos hx]

theorem cutItem_shortBytes (hk : k ≤ 55) (rest : Bytes) :
    cutItem (UInt8.ofNat (0x80 + k) :: rest) = cutShortBytes k rest := by
  rw [cutItem_ofNat (by omega), if_neg (by omega), if_pos (by omega), Nat.add_sub_cancel_left]

theorem cutItem_longBytes (h1 : 1 ≤ k) (hk : k ≤ 8) (rest : Bytes) :
    cutItem (UInt8.ofNat (0xb7 + k) :: rest) = cutLongBytes k rest := by
  rw [cutItem_ofNat (by omega), if_neg (by omega), if_neg (by omega), if_pos (by omega),
    Nat.add_sub_cancel_left]

theorem cutItem_shortList (hk : k ≤ 55) (rest : Bytes) :
    cutItem (UInt8.ofNat (0xc0 + k) :: rest) =
      (fun r : Bytes × Bytes => (.items r.1, r.2)) <$> cut .outOfBounds k rest := by
  rw [cutItem_ofNat (by omega), if_neg (by omega), if_neg (by omega), if_neg (by omega),
    if_pos (by omega), Nat.add_sub_cancel_left]

theorem cutItem_longList (h1 : 1 ≤ k) (hk : k ≤ 8) (rest : Bytes) :
    cutItem (UInt8.ofNat (0xf7 + k) :: rest) = cutLongList k rest := by
  rw [cutItem_ofNat (by omega), if_neg (by omega), if_neg (by omega), if_neg (by omega),
    if_neg (by omega), Nat.add_sub_cancel_left]

/-! ### Lengths and payloads -/

theorem cut_append (e : Error) (b rest : Bytes) : cut e b.length (b ++ rest) = .ok (b, rest) := by
  unfold cut
  rw [List.take_left, List.drop_left, if_pos rfl]

theorem cutLength_bigEndian (n : Nat) (rest : Bytes) :
    cutLength (Bytes.bigEndian n).length (Bytes.bigEndian n ++ rest) = .ok (n, rest) := by
  unfold cutLength
  rw [cut_append]
  show (if (Bytes.bigEndian n).head? = some 0 then Except.error Error.leadingZero
    else .ok (Bytes.toNat (Bytes.bigEndian n), rest)) = .ok (n, rest)
  rw [if_neg (Bytes.head?_bigEndian n), Bytes.toNat_bigEndian]

theorem cutShortBytes_append (hb : ∀ x, b = [x] → ¬ x < 0x80) (rest : Bytes) :
    cutShortBytes b.length (b ++ rest) = .ok (.bytes b, rest) := by
  unfold cutShortBytes
  rw [cut_append]
  rcases b with _ | ⟨x, _ | ⟨y, b⟩⟩
  · rfl
  · exact if_neg (hb x rfl)
  · rfl

theorem cutLongBytes_append (hb : 55 < b.length) (rest : Bytes) :
    cutLongBytes (Bytes.bigEndian b.length).length (Bytes.bigEndian b.length ++ (b ++ rest)) =
      .ok (.bytes b, rest) := by
  have hlong : ¬ (Bytes.bigEndian b.length ++ (b ++ rest)).length ≤
      (Bytes.bigEndian b.length).length := by
    simp only [List.length_append]
    omega
  unfold cutLongBytes
  rw [if_neg hlong, cutLength_bigEndian, Except.ok_bind]
  dsimp only
  rw [if_neg (Nat.not_le.mpr hb), cut_append]
  rfl

theorem cutLongList_append (hb : 55 < b.length) (rest : Bytes) :
    cutLongList (Bytes.bigEndian b.length).length (Bytes.bigEndian b.length ++ (b ++ rest)) =
      .ok (.items b, rest) := by
  unfold cutLongList
  rw [cutLength_bigEndian, Except.ok_bind]
  dsimp only
  rw [if_neg (Nat.not_lt.mpr hb), cut_append]
  rfl

theorem length_digits {n : Nat} (h55 : 55 < n) (h : n < 2 ^ 64) :
    1 ≤ (Bytes.bigEndian n).length ∧ (Bytes.bigEndian n).length ≤ 8 := by
  have hn : n ≠ 0 := by omega
  exact ⟨List.length_pos_iff.mpr (Bytes.bigEndian_ne_nil hn),
    Bytes.length_bigEndian_le_iff.mpr (Nat.lt_of_lt_of_eq h (by decide))⟩

/-! ### One item -/

/-- What the header of an item announces. -/
def Item.payload : Item → Payload
  | .bytes b => .bytes b
  | .list items => .items (encodeAll items)

theorem cutItem_encodeBytes (h : b.length < 2 ^ 64) (rest : Bytes) :
    cutItem (encodeBytes b ++ rest) = .ok (.bytes b, rest) := by
  by_cases hsingle : ∃ x, b = [x] ∧ x < 0x80
  · obtain ⟨x, rfl, hx⟩ := hsingle
    rw [encodeBytes, if_pos hx]
    exact cutItem_single hx rest
  · have hb : ∀ x, b = [x] → ¬ x < 0x80 := fun x hx hlt => hsingle ⟨x, hx, hlt⟩
    have hencode : encodeBytes b = header 0x80 b.length ++ b := by
      rcases b with _ | ⟨x, _ | ⟨y, b⟩⟩
      · rfl
      · exact if_neg (hb x rfl)
      · rfl
    rw [hencode, List.append_assoc, header]
    by_cases h55 : b.length ≤ 55
    · rw [if_pos h55, List.singleton_append, cutItem_shortBytes h55, cutShortBytes_append hb]
    · obtain ⟨h1, h8⟩ := length_digits (Nat.not_le.mp h55) h
      rw [if_neg h55, List.cons_append, cutItem_longBytes h1 h8,
        cutLongBytes_append (Nat.not_le.mp h55)]

theorem cutItem_list (h : b.length < 2 ^ 64) (rest : Bytes) :
    cutItem (header 0xc0 b.length ++ b ++ rest) = .ok (.items b, rest) := by
  rw [List.append_assoc, header]
  by_cases h55 : b.length ≤ 55
  · rw [if_pos h55, List.singleton_append, cutItem_shortList h55, cut_append]
    rfl
  · obtain ⟨h1, h8⟩ := length_digits (Nat.not_le.mp h55) h
    rw [if_neg h55, List.cons_append, cutItem_longList h1 h8,
      cutLongList_append (Nat.not_le.mp h55)]

theorem length_le_encodeBytes (b : Bytes) : b.length ≤ (encodeBytes b).length := by
  unfold encodeBytes
  split
  · split_ifs <;> simp
  · simp

theorem length_header_le (base : Nat) {length : Nat} (h : length < 2 ^ 64) :
    (header base length).length ≤ 9 := by
  unfold header
  split_ifs with h55
  · simp
  · obtain ⟨-, h8⟩ := length_digits (Nat.not_le.mp h55) h
    rw [List.length_cons]
    omega

theorem length_encodeBytes_le (h : b.length < 2 ^ 64) : (encodeBytes b).length ≤ b.length + 9 := by
  have hheader := length_header_le 0x80 h
  unfold encodeBytes
  split
  · split_ifs <;> simp [header]
  · rw [List.length_append]
    omega

theorem header_ne_nil (base length : Nat) : header base length ≠ [] := by
  unfold header
  split_ifs <;> simp

theorem length_encodeAll_lt (items : List Item) :
    (encodeAll items).length < (Item.list items).encode.length := by
  have hheader := List.length_pos_iff.mpr (header_ne_nil 0xc0 (encodeAll items).length)
  rw [Item.encode, List.length_append]
  omega

theorem encode_ne_nil (item : Item) : item.encode ≠ [] := by
  cases item with
  | bytes b =>
    rw [Item.encode]
    unfold encodeBytes
    split
    · split_ifs <;> simp
    · simp [header_ne_nil]
  | list items =>
    intro hnil
    have hlt := length_encodeAll_lt items
    rw [hnil] at hlt
    exact Nat.not_lt_zero _ hlt

theorem length_encode_list_le {items : List Item} (h : (encodeAll items).length < 2 ^ 64) :
    (Item.list items).encode.length ≤ (encodeAll items).length + 9 := by
  have hheader := length_header_le 0xc0 h
  rw [Item.encode, List.length_append]
  omega

theorem length_encode_list_lt {items : List Item} (h : (encodeAll items).length < 2 ^ 63) :
    (Item.list items).encode.length < 2 ^ 64 := by
  have hlength := length_encode_list_le (Nat.lt_trans h (by omega))
  omega

/-- The front of an item's bytes is its header and payload, whatever follows. -/
theorem cutItem_encode {item : Item} (h : item.encode.length < 2 ^ 64) (rest : Bytes) :
    cutItem (item.encode ++ rest) = .ok (item.payload, rest) := by
  cases item with
  | bytes b =>
    rw [Item.encode] at h ⊢
    exact cutItem_encodeBytes (Nat.lt_of_le_of_lt (length_le_encodeBytes b) h) rest
  | list items =>
    have hlt := length_encodeAll_lt items
    rw [Item.encode]
    exact cutItem_list (Nat.lt_trans hlt h) rest

/-! ### All items -/

theorem decodeAll_succ {fuel : Nat} (hb : b ≠ []) :
    decodeAll (fuel + 1) b = (do
      let (payload, rest) ← cutItem b
      let item ← match payload with
        | .bytes b => .ok (Item.bytes b)
        | .items b => Item.list <$> decodeAll fuel b
      let items ← decodeAll fuel rest
      .ok (item :: items)) := by
  cases b with
  | nil => exact absurd rfl hb
  | cons x b => rfl

/-- The items of a list and what follows them are shorter than all of it, which the induction on the
fuel needs. -/
theorem decodeAll_encodeAll {fuel : Nat} {items : List Item}
    (hfuel : (encodeAll items).length < fuel) (h : (encodeAll items).length < 2 ^ 64) :
    decodeAll fuel (encodeAll items) = .ok items := by
  induction fuel generalizing items with
  | zero => exact absurd hfuel (Nat.not_lt_zero _)
  | succ fuel ih =>
    cases items with
    | nil => rfl
    | cons item items =>
      have hpos := List.length_pos_iff.mpr (encode_ne_nil item)
      rw [encodeAll, List.length_append] at hfuel h
      have hrest : decodeAll fuel (encodeAll items) = .ok items := ih (by omega) (by omega)
      have hne : item.encode ++ encodeAll items ≠ [] := by simp [encode_ne_nil]
      rw [encodeAll, decodeAll_succ hne, cutItem_encode (by omega)]
      cases item with
      | bytes b =>
        show (decodeAll fuel (encodeAll items) >>= fun items => .ok (Item.bytes b :: items)) = _
        rw [hrest]
        rfl
      | list inner =>
        have hlt := length_encodeAll_lt inner
        have hinner : decodeAll fuel (encodeAll inner) = .ok inner := ih (by omega) (by omega)
        show (Item.list <$> decodeAll fuel (encodeAll inner) >>= fun item =>
          decodeAll fuel (encodeAll items) >>= fun items => .ok (item :: items)) = _
        rw [hinner, hrest]
        rfl

/-- An item's bytes are read as the item, and with more bytes behind them as nothing. -/
theorem decode_append {item : Item} (h : item.encode.length < 2 ^ 64) (rest : Bytes) :
    decode (item.encode ++ rest) = if rest.isEmpty then .ok item else .error .remainder := by
  unfold decode
  rw [cutItem_encode h rest]
  cases item with
  | bytes b => rfl
  | list items =>
    have hlt := length_encodeAll_lt items
    show (Item.list <$> decodeAll ((encodeAll items).length + 1) (encodeAll items) >>= fun item =>
      if rest.isEmpty then .ok item else .error .remainder) = _
    rw [decodeAll_encodeAll (Nat.lt_succ_self _) (Nat.lt_trans hlt h)]
    rfl

theorem decode_encode {item : Item} (h : item.encode.length < 2 ^ 64) :
    decode item.encode = .ok item := by
  have hread := decode_append h []
  rwa [List.append_nil] at hread

/-- No item's bytes are the first bytes of another item. -/
theorem eq_of_encode_isPrefix {item item' : Item} (h : item.encode <+: item'.encode)
    (hlength : item'.encode.length < 2 ^ 64) : item = item' := by
  obtain ⟨rest, hrest⟩ := h
  have hfront : item.encode.length < 2 ^ 64 := by
    rw [← hrest, List.length_append] at hlength
    omega
  have hread := decode_append hfront rest
  rw [hrest, decode_encode hlength] at hread
  split_ifs at hread
  exact (Except.ok.inj hread).symm

/-- Items with the same bytes are the same. -/
theorem eq_of_encode_eq {item item' : Item} (h : item.encode = item'.encode)
    (hlength : item.encode.length < 2 ^ 64) : item = item' :=
  eq_of_encode_isPrefix (h ▸ List.prefix_refl item.encode) (h ▸ hlength)

end TokenLedger.Rlp
