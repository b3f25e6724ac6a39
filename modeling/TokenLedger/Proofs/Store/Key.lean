import Mathlib.Tactic.SplitIfs
import TokenLedger.Proofs.Utf8
import TokenLedger.Store.Basic
import TokenLedger.Store.Key

/-!
# Keys are faithful

A key that was written is read back (`KeyCodec.Lawful`), so that different keys have different
bytes.  What starts with one segment and its length starts with no other segment and its length
(`withLength_inj`): the parts of a store behind different names are apart.  `Key.above` bounds
exactly the byte strings that start with a given one (`inBounds_iff_isPrefix`).
-/

namespace TokenLedger

/-- Keys are read back as they were written. -/
class KeyCodec.Lawful {K : Type} (c : KeyCodec K) : Prop where
  decode_encode : ∀ {k b}, c.encode k = .ok b → c.decode b = .ok k

theorem KeyCodec.Lawful.encode_inj {K : Type} {c : KeyCodec K} [c.Lawful] {k k' : K} {b : Bytes}
    (h : c.encode k = .ok b) (h' : c.encode k' = .ok b) : k = k' := by
  have hk := decode_encode h
  rw [decode_encode h'] at hk
  injection hk with hk
  exact hk.symm

namespace Key

/-! ### Segments -/

/-- Whether a text can be the first of a pair. -/
def IsShort (s : String) : Prop := (Utf8.encode s).length ≤ maxSegment

instance (s : String) : Decidable (IsShort s) := inferInstanceAs (Decidable (_ ≤ _))

/-- The two bytes in front tell the length. -/
theorem length_of_bytes {n : Nat} (h : n ≤ maxSegment) :
    (UInt8.ofNat (n / 256)).toNat * 256 + (UInt8.ofNat (n % 256)).toNat = n := by
  unfold maxSegment at h
  rw [Utf8.toNat_ofNat (by omega), Utf8.toNat_ofNat (by omega)]
  omega

/-- Only one segment with its length stands in front. -/
theorem withLength_inj {a b c : Bytes} (ha : a.length ≤ maxSegment) (hb : b.length ≤ maxSegment)
    (h1 : withLength a <+: c) (h2 : withLength b <+: c) : a = b := by
  obtain ⟨rest, rfl⟩ := h1
  obtain ⟨rest', h⟩ := h2
  simp only [withLength, List.cons_append] at h
  injection h with hhi h
  injection h with hlo h
  have hlen : a.length = b.length := by
    rw [← length_of_bytes ha, ← length_of_bytes hb, hhi, hlo]
  exact (List.append_inj_left h hlen.symm).symm

theorem lengthPrefixed_eq_ok {b c : Bytes} :
    lengthPrefixed b = .ok c ↔ b.length ≤ maxSegment ∧ c = withLength b := by
  unfold lengthPrefixed
  split_ifs with h
  · simp only [false_iff, not_and]
    omega
  · simp only [Except.ok.injEq]
    exact ⟨fun hc => ⟨by omega, hc.symm⟩, fun hc => hc.2.symm⟩

/-! ### Codecs -/

instance : text.Lawful where
  decode_encode := by
    intro k b h
    injection h with h
    rw [← h]
    exact congrArg Except.ok (Utf8.decode_encode k)

theorem encode_pair_eq_ok {a b : String} {c : Bytes} :
    pair.encode (a, b) = .ok c ↔ IsShort a ∧ c = withLength (Utf8.encode a) ++ Utf8.encode b := by
  show (· ++ Utf8.encode b) <$> lengthPrefixed (Utf8.encode a) = .ok c ↔ _
  by_cases h : IsShort a
  · rw [(lengthPrefixed_eq_ok (c := withLength (Utf8.encode a))).mpr ⟨h, rfl⟩]
    simp [h, eq_comm, Functor.map, Except.map]
  · rw [lengthPrefixed, if_pos (by unfold IsShort at h; omega)]
    simp [h, Functor.map, Except.map]

/-- A pair has a key unless its first text is too long. -/
theorem encode_pair {a : String} (h : IsShort a) (b : String) :
    pair.encode (a, b) = .ok (withLength (Utf8.encode a) ++ Utf8.encode b) :=
  encode_pair_eq_ok.mpr ⟨h, rfl⟩

instance : pair.Lawful where
  decode_encode := by
    rintro ⟨a, b⟩ c h
    obtain ⟨ha, rfl⟩ := encode_pair_eq_ok.mp h
    simp only [withLength, List.cons_append, pair, length_of_bytes ha]
    rw [if_neg (by simp), List.take_left, List.drop_left, Utf8.decode_encode, Utf8.decode_encode]

/-! ### Bounds -/

theorem cons_lt_cons_iff {x y : UInt8} {a b : Bytes} :
    x :: a < y :: b ↔ x < y ∨ (x = y ∧ a < b) := List.cons_lt_cons_iff

/-- Behind the same bytes the order is that of the rest. -/
theorem append_lt_append_iff (root : Bytes) {b b' : Bytes} :
    root ++ b < root ++ b' ↔ b < b' := by
  induction root with
  | nil => rfl
  | cons x root ih =>
    rw [List.cons_append, List.cons_append, cons_lt_cons_iff, ih]
    simp

theorem eq_of_not_lt {x y : UInt8} (h : ¬ x < y) (h' : ¬ y < x) : x = y := by
  rw [UInt8.lt_iff_toNat_lt] at h h'
  exact UInt8.toNat_inj.mp (by omega)

/-- Where nothing bounds what follows a byte, the next byte does, if there is one. -/
theorem lt_next_iff (x y : UInt8) (ks : Bytes) :
    (∀ stop, (if x < 0xff then some [x + 1] else none) = some stop → y :: ks < stop) ↔ ¬ x < y := by
  have hnil : ¬ ks < [] := List.not_lt_nil ks
  split_ifs with hx
  · simp only [Option.some.injEq, forall_eq', cons_lt_cons_iff, hnil, and_false, or_false]
    simp only [UInt8.lt_iff_toNat_lt, UInt8.toNat_add, UInt8.reduceToNat] at hx ⊢
    omega
  · have hy := y.toNat_lt
    simp only [UInt8.lt_iff_toNat_lt, UInt8.reduceToNat] at hx ⊢
    simp only [false_implies, implies_true, true_iff]
    omega

/-- The byte strings from `p` up to `above p` are those that start with `p`. -/
theorem isPrefix_iff (p k : Bytes) :
    p <+: k ↔ ¬ k < p ∧ ∀ stop, above p = some stop → k < stop := by
  induction p generalizing k with
  | nil => simp [above]
  | cons x rest ih =>
    cases k with
    | nil => simp
    | cons y ks =>
      rw [List.cons_prefix_cons, ih ks, cons_lt_cons_iff, above]
      cases above rest with
      | some stop =>
        simp only [Option.some.injEq, forall_eq', cons_lt_cons_iff]
        constructor
        · rintro ⟨rfl, hlt, hstop⟩
          exact ⟨fun h => h.elim (UInt8.lt_irrefl x) fun h => hlt h.2, Or.inr ⟨rfl, hstop⟩⟩
        · rintro ⟨hlt, hyx | ⟨rfl, hstop⟩⟩
          · exact absurd (Or.inl hyx) hlt
          · exact ⟨rfl, fun h => hlt (Or.inr ⟨rfl, h⟩), hstop⟩
      | none =>
        simp only [reduceCtorEq, false_implies, implies_true, and_true, lt_next_iff]
        constructor
        · rintro ⟨rfl, hlt⟩
          exact ⟨fun h => h.elim (UInt8.lt_irrefl x) fun h => hlt h.2, UInt8.lt_irrefl x⟩
        · rintro ⟨hlt, hxy⟩
          have hyx : x = y := eq_of_not_lt hxy fun h => hlt (Or.inl h)
          exact ⟨hyx, fun h => hlt (Or.inr ⟨hyx.symm, h⟩)⟩

theorem inBounds_iff_isPrefix (p k : Bytes) :
    Store.inBounds (some p) (above p) k = true ↔ p <+: k := by
  rw [isPrefix_iff, Store.inBounds]
  cases above p <;> simp

end Key

end TokenLedger
