import TokenLedger.Proofs.Rlp

/-!
# Items have one encoding

Whatever is read as an item is that item's encoding, byte for byte (`eq_encode_of_decode`): a
header's length has no zero in front and is written behind the first byte only if it has to be, and
a single small byte has no header.  Only no bytes at all are read as well, as the empty string.
-/

namespace TokenLedger.Rlp

variable {b rest front : Bytes} {k n : Nat} {e : Error} {p : Payload}

/-! ### What has been cut off -/

theorem cut_eq_ok (h : cut e n b = .ok (front, rest)) : b = front ++ rest ∧ front.length = n := by
  unfold cut at h
  dsimp only at h
  split_ifs at h with hlength
  injection h with h
  obtain ⟨rfl, rfl⟩ := Prod.mk.inj h
  exact ⟨(List.take_append_drop n b).symm, hlength⟩

theorem cutLength_eq_ok (h : cutLength k b = .ok (n, rest)) :
    b = Bytes.bigEndian n ++ rest ∧ (Bytes.bigEndian n).length = k := by
  unfold cutLength at h
  obtain ⟨⟨digits, tail⟩, hcut, h⟩ := Except.bind_eq_ok.mp h
  obtain ⟨hb, hk⟩ := cut_eq_ok hcut
  dsimp only at h
  split_ifs at h with hzero
  injection h with h
  obtain ⟨rfl, rfl⟩ := Prod.mk.inj h
  have hdigits : Bytes.bigEndian (Bytes.toNat digits) = digits := Bytes.bigEndian_toNat hzero
  rw [hdigits]
  exact ⟨hb, hk⟩

theorem cutShortBytes_eq_ok (h : cutShortBytes n b = .ok (p, rest)) :
    ∃ front, p = .bytes front ∧ b = front ++ rest ∧ front.length = n ∧
      ∀ x, front = [x] → ¬ x < 0x80 := by
  unfold cutShortBytes at h
  obtain ⟨⟨front, tail⟩, hcut, h⟩ := Except.bind_eq_ok.mp h
  obtain ⟨hb, hn⟩ := cut_eq_ok hcut
  dsimp only at h
  split at h
  · rename_i x
    split_ifs at h with hx
    injection h with h
    obtain ⟨rfl, rfl⟩ := Prod.mk.inj h
    refine ⟨[x], rfl, hb, hn, fun y hy => ?_⟩
    rw [← (List.cons.inj hy).1]
    exact hx
  · rename_i hsingle
    injection h with h
    obtain ⟨rfl, rfl⟩ := Prod.mk.inj h
    exact ⟨front, rfl, hb, hn, fun x hx => absurd hx (hsingle x)⟩

/-- A check that stops a chain of steps has not stopped one that gave a value. -/
theorem unless_eq_ok {α : Type} {c : Prop} [Decidable c] {x : Except Error α} {a : α}
    (h : (if c then (do Except.error e; x) else x) = .ok a) : ¬ c ∧ x = .ok a := by
  by_cases hc : c
  · rw [if_pos hc] at h
    obtain ⟨_, hstop, _⟩ := Except.bind_eq_ok.mp h
    cases hstop
  · rw [if_neg hc] at h
    exact ⟨hc, h⟩

theorem cutLongBytes_eq_ok (h : cutLongBytes k b = .ok (p, rest)) :
    ∃ front, p = .bytes front ∧ b = Bytes.bigEndian front.length ++ (front ++ rest) ∧
      (Bytes.bigEndian front.length).length = k ∧ 55 < front.length := by
  obtain ⟨-, hroom⟩ := unless_eq_ok h
  obtain ⟨⟨length, tail⟩, hlength, hread⟩ := Except.bind_eq_ok.mp hroom
  obtain ⟨hb, hk⟩ := cutLength_eq_ok hlength
  obtain ⟨hlong, hcheck⟩ := unless_eq_ok hread
  obtain ⟨⟨front, tail'⟩, hcut, hpayload⟩ := Except.bind_eq_ok.mp hcheck
  obtain ⟨htail, rfl⟩ := cut_eq_ok hcut
  obtain ⟨rfl, rfl⟩ := Prod.mk.inj (Except.ok.inj hpayload)
  rw [htail] at hb
  exact ⟨front, rfl, hb, hk, Nat.not_le.mp hlong⟩

theorem cutLongList_eq_ok (h : cutLongList k b = .ok (p, rest)) :
    ∃ front, p = .items front ∧ b = Bytes.bigEndian front.length ++ (front ++ rest) ∧
      (Bytes.bigEndian front.length).length = k ∧ 55 < front.length := by
  obtain ⟨⟨length, tail⟩, hlength, hread⟩ := Except.bind_eq_ok.mp h
  obtain ⟨hb, hk⟩ := cutLength_eq_ok hlength
  obtain ⟨hlong, hcheck⟩ := unless_eq_ok hread
  obtain ⟨⟨front, tail'⟩, hcut, hpayload⟩ := Except.bind_eq_ok.mp hcheck
  obtain ⟨htail, rfl⟩ := cut_eq_ok hcut
  obtain ⟨rfl, rfl⟩ := Prod.mk.inj (Except.ok.inj hpayload)
  rw [htail] at hb
  exact ⟨front, rfl, hb, hk, Nat.not_lt.mp hlong⟩

/-! ### One item -/

/-- The encoding of what a header announces. -/
def Payload.encode : Payload → Bytes
  | .bytes b => encodeBytes b
  | .items b => header 0xc0 b.length ++ b

theorem encodeBytes_of_not_single (h : ∀ x, b = [x] → ¬ x < 0x80) :
    encodeBytes b = header 0x80 b.length ++ b := by
  rcases b with _ | ⟨x, _ | ⟨y, b⟩⟩
  · rfl
  · exact if_neg (h x rfl)
  · rfl

theorem header_short {base : Nat} (h : n ≤ 55) : header base n = [UInt8.ofNat (base + n)] :=
  if_pos h

theorem header_long {base : Nat} (h : 55 < n) (hk : (Bytes.bigEndian n).length = k) :
    header base n = UInt8.ofNat (base + 55 + k) :: Bytes.bigEndian n := by
  subst hk
  exact if_neg (Nat.not_le.mpr h)

/-- A first byte and what has been cut off behind it are the encoding of the payload. -/
theorem cutItem_eq_ok (hb : b ≠ []) (h : cutItem b = .ok (p, rest)) : b = p.encode ++ rest := by
  cases b with
  | nil => exact absurd rfl hb
  | cons f b =>
    obtain ⟨n, hn, rfl⟩ : ∃ n, n < 256 ∧ f = UInt8.ofNat n :=
      ⟨f.toNat, f.toNat_lt, UInt8.ofNat_toNat.symm⟩
    rw [cutItem_ofNat hn] at h
    split_ifs at h with h80 hb8 hc0 hf8
    · obtain ⟨rfl, rfl⟩ := Prod.mk.inj (Except.ok.inj h)
      have hsmall : UInt8.ofNat n < 0x80 := by
        rw [UInt8.lt_iff_toNat_lt, Utf8.toNat_ofNat hn]
        exact h80
      rw [Payload.encode, encodeBytes, if_pos hsmall]
      rfl
    · obtain ⟨front, rfl, rfl, hlength, hsingle⟩ := cutShortBytes_eq_ok h
      have hfirst : n = 0x80 + front.length := by omega
      rw [Payload.encode, encodeBytes_of_not_single hsingle, header_short (by omega), hfirst]
      rfl
    · obtain ⟨front, rfl, rfl, hlength, hlong⟩ := cutLongBytes_eq_ok h
      have hsingle : ∀ x, front = [x] → ¬ x < 0x80 := by
        rintro x rfl
        exact absurd hlong (by simp)
      have hfirst : n = 0x80 + 55 + (n - 0xb7) := by omega
      rw [Payload.encode, encodeBytes_of_not_single hsingle, header_long hlong hlength, ← hfirst,
        List.cons_append, List.cons_append, List.append_assoc]
    · obtain ⟨⟨front, tail⟩, hcut, hpayload⟩ := Except.map_eq_ok.mp h
      obtain ⟨rfl, hlength⟩ := cut_eq_ok hcut
      have hsame : (Payload.items front, tail) = (p, rest) := hpayload
      obtain ⟨rfl, rfl⟩ := Prod.mk.inj hsame
      have hfirst : n = 0xc0 + front.length := by omega
      rw [Payload.encode, header_short (by omega), hfirst]
      rfl
    · obtain ⟨front, rfl, rfl, hlength, hlong⟩ := cutLongList_eq_ok h
      have hfirst : n = 0xc0 + 55 + (n - 0xf7) := by omega
      rw [Payload.encode, header_long hlong hlength, ← hfirst, List.cons_append, List.cons_append,
        List.append_assoc]

/-! ### All items -/

/-- What a payload is read as; the bytes of a list's items are read with the given fuel. -/
def Payload.read (fuel : Nat) : Payload → Except Error Item
  | .bytes b => .ok (.bytes b)
  | .items b => Item.list <$> decodeAll fuel b

theorem encode_of_read {fuel : Nat} {item : Item}
    (ih : ∀ {b items}, decodeAll fuel b = .ok items → b = encodeAll items)
    (h : p.read fuel = .ok item) : p.encode = item.encode := by
  cases p with
  | bytes b =>
    obtain rfl := Except.ok.inj h
    rfl
  | items b =>
    obtain ⟨items, hitems, rfl⟩ := Except.map_eq_ok.mp h
    rw [Payload.encode, Item.encode, ← ih hitems]

theorem decodeAll_eq_ok {fuel : Nat} {items : List Item} (hb : b ≠ [])
    (h : decodeAll (fuel + 1) b = .ok items) :
    ∃ p rest item tail, cutItem b = .ok (p, rest) ∧ p.read fuel = .ok item ∧
      decodeAll fuel rest = .ok tail ∧ items = item :: tail := by
  rw [decodeAll_succ hb] at h
  obtain ⟨⟨p, rest⟩, hcut, hread⟩ := Except.bind_eq_ok.mp h
  cases p with
  | bytes inner | items inner =>
    obtain ⟨item, hitem, hrest⟩ := Except.bind_eq_ok.mp hread
    obtain ⟨tail, htail, hitems⟩ := Except.bind_eq_ok.mp hrest
    exact ⟨_, rest, item, tail, hcut, hitem, htail, (Except.ok.inj hitems).symm⟩

theorem decode_eq_ok {item : Item} (h : decode b = .ok item) :
    ∃ p fuel, cutItem b = .ok (p, []) ∧ p.read fuel = .ok item := by
  obtain ⟨⟨p, rest⟩, hcut, hread⟩ := Except.bind_eq_ok.mp h
  cases p with
  | bytes inner | items inner =>
    obtain ⟨item', hitem, hend⟩ := Except.bind_eq_ok.mp hread
    dsimp only at hend
    split_ifs at hend with hrest
    rw [List.isEmpty_iff.mp hrest] at hcut
    exact ⟨_, inner.length + 1, hcut, hitem.trans hend⟩

/-- Bytes that are read to their end as items are the items' encodings. -/
theorem eq_encodeAll_of_decodeAll {fuel : Nat} {items : List Item}
    (h : decodeAll fuel b = .ok items) : b = encodeAll items := by
  induction fuel generalizing b items with
  | zero => cases h
  | succ fuel ih =>
    by_cases hb : b = []
    · subst hb
      obtain rfl := Except.ok.inj h
      rfl
    · obtain ⟨p, rest, item, tail, hcut, hitem, htail, rfl⟩ := decodeAll_eq_ok hb h
      rw [cutItem_eq_ok hb hcut, encode_of_read ih hitem, encodeAll, ← ih htail]

/-- **What is read as an item is its encoding.** -/
theorem eq_encode_of_decode {item : Item} (hb : b ≠ []) (h : decode b = .ok item) :
    b = item.encode := by
  obtain ⟨p, fuel, hcut, hitem⟩ := decode_eq_ok h
  rw [cutItem_eq_ok hb hcut, List.append_nil, encode_of_read eq_encodeAll_of_decodeAll hitem]

/-- A list is never read from no bytes at all. -/
theorem eq_encode_of_decode_list {items : List Item} (h : decode b = .ok (.list items)) :
    b = (Item.list items).encode := by
  refine eq_encode_of_decode ?_ h
  rintro rfl
  cases h

end TokenLedger.Rlp
