import Mathlib.Tactic.SplitIfs
import TokenLedger.Text.Utf8

/-!
# UTF-8 reads back

What `Utf8.encode` writes, `Utf8.decode` reads back, whatever the string (`decode_encode`), so that
no two strings have the same bytes (`encode_injective`).  The machine is followed one character at a
time: from `start` the bytes of a character lead back to `start` with that character put out.
-/

namespace TokenLedger.Utf8

/-! ### One byte -/

theorem toNat_ofNat {n : Nat} (h : n < 256) : (UInt8.ofNat n).toNat = n := by
  rw [UInt8.toNat_ofNat']
  exact Nat.mod_eq_of_lt h

theorem lead_ascii {b : UInt8} (h : b.toNat < 0x80) : lead b = ([Char.ofNat b.toNat], .start) := by
  have h1 : b ≤ 0x7f := UInt8.le_iff_toNat_le.mpr (by simpa using Nat.le_of_lt_succ h)
  rw [lead, if_pos h1]

theorem lead_two {b : UInt8} {k : Nat} (hb : b.toNat = k + 0xc0) (h2 : 2 ≤ k) (h : k < 0x20) :
    lead b = ([], .within 0 0x80 0xbf k) := by
  have hk : b.toNat % 32 = k := by omega
  simp only [lead, UInt8.le_iff_toNat_le, UInt8.lt_iff_toNat_lt, hk, UInt8.reduceToNat]
  rw [if_neg (by omega), if_neg (by omega), if_pos (by omega)]

theorem lead_three {b : UInt8} {k : Nat} (hb : b.toNat = k + 0xe0) (h : k < 0x10) :
    lead b = ([], .within 1 (if k = 0 then 0xa0 else 0x80) (if k = 13 then 0x9f else 0xbf) k) := by
  have hk : b.toNat % 16 = k := by omega
  simp only [lead, UInt8.le_iff_toNat_le, UInt8.lt_iff_toNat_lt, ← UInt8.toNat_inj, hk,
    UInt8.reduceToNat]
  rw [if_neg (by omega), if_neg (by omega), if_neg (by omega)]
  split_ifs <;> first | omega | simp_all

theorem lead_four {b : UInt8} {k : Nat} (hb : b.toNat = k + 0xf0) (h : k < 5) :
    lead b = ([], .within 2 (if k = 0 then 0x90 else 0x80) (if k = 4 then 0x8f else 0xbf) k) := by
  have hk : b.toNat % 8 = k := by omega
  simp only [lead, UInt8.le_iff_toNat_le, UInt8.lt_iff_toNat_lt, ← UInt8.toNat_inj, hk,
    UInt8.reduceToNat]
  rw [if_neg (by omega), if_neg (by omega), if_neg (by omega), if_neg (by omega), if_neg (by omega),
    if_neg (by omega)]
  split_ifs <;> first | omega | simp_all

/-- A continuation byte within its range adds six bits. -/
theorem feed_within {b lower upper : UInt8} {owed code t : Nat} (hb : b.toNat = t + 0x80)
    (ht : t < 64) (hl : lower.toNat ≤ t + 0x80) (hu : t + 0x80 ≤ upper.toNat) :
    (State.within owed lower upper code).feed b = match owed with
      | 0 => ([Char.ofNat (code * 64 + t)], .start)
      | owed + 1 => ([], .within owed 0x80 0xbf (code * 64 + t)) := by
  have h : lower ≤ b ∧ b ≤ upper := by
    simp only [UInt8.le_iff_toNat_le]
    omega
  have hm : b.toNat % 64 = t := by omega
  cases owed with
  | zero => simp only [State.feed, if_pos h, hm]
  | succ owed => simp only [State.feed, if_pos h, hm]

/-! ### One character -/

@[simp] theorem decodeOnto_cons (acc : Array Char) (st : State) (b : UInt8) (bs : Bytes) :
    decodeOnto acc st (b :: bs) = decodeOnto (acc.appendList (st.feed b).1) (st.feed b).2 bs := rfl

@[simp] theorem feed_start (b : UInt8) : State.start.feed b = lead b := rfl

/-- The bytes of a character are read as that character. -/
theorem decodeOnto_encodeChar (acc : Array Char) (c : Char) (bs : Bytes) :
    decodeOnto acc .start (String.utf8EncodeChar c ++ bs) = decodeOnto (acc.push c) .start bs := by
  have hc : Char.ofNat c.val.toNat = c := Char.ofNat_toNat c
  have hv : c.val.toNat < 0xd800 ∨ (0xdfff < c.val.toNat ∧ c.val.toNat < 0x110000) := c.valid
  unfold String.utf8EncodeChar
  generalize c.val.toNat = v at hc hv
  dsimp only
  split_ifs with h1 h2 h3
  · rw [List.singleton_append, decodeOnto_cons, feed_start,
      lead_ascii (by rw [toNat_ofNat (by omega)]; omega), toNat_ofNat (by omega), hc]
    rfl
  · have e : v / 64 % 32 * 64 + v % 64 = v := by omega
    simp only [List.cons_append, List.nil_append, decodeOnto_cons, feed_start]
    rw [lead_two (toNat_ofNat (by omega)) (by omega) (by omega),
      feed_within (toNat_ofNat (by omega)) (by omega) (by simp) (by simp; omega), e, hc]
    rfl
  · have e : (v / 4096 % 16 * 64 + v / 64 % 64) * 64 + v % 64 = v := by omega
    simp only [List.cons_append, List.nil_append, decodeOnto_cons, feed_start]
    rw [lead_three (toNat_ofNat (by omega)) (by omega),
      feed_within (toNat_ofNat (by omega)) (by omega) (by split_ifs <;> simp; omega)
        (by split_ifs <;> simp <;> omega)]
    dsimp only
    rw [feed_within (toNat_ofNat (by omega)) (by omega) (by simp) (by simp; omega), e, hc]
    rfl
  · have e : ((v / 262144 % 8 * 64 + v / 4096 % 64) * 64 + v / 64 % 64) * 64 + v % 64 = v := by
      omega
    simp only [List.cons_append, List.nil_append, decodeOnto_cons, feed_start]
    rw [lead_four (toNat_ofNat (by omega)) (by omega),
      feed_within (toNat_ofNat (by omega)) (by omega) (by split_ifs <;> simp; omega)
        (by split_ifs <;> simp <;> omega)]
    dsimp only
    rw [feed_within (toNat_ofNat (by omega)) (by omega) (by simp) (by simp; omega)]
    dsimp only
    rw [feed_within (toNat_ofNat (by omega)) (by omega) (by simp) (by simp; omega), e, hc]
    rfl

/-! ### Whole strings -/

theorem decodeOnto_encode (acc : Array Char) (cs : List Char) :
    decodeOnto acc .start (cs.flatMap String.utf8EncodeChar) = acc.toList ++ cs := by
  induction cs generalizing acc with
  | nil => simp [decodeOnto, State.flush]
  | cons c cs ih => rw [List.flatMap_cons, decodeOnto_encodeChar, ih]; simp

/-- What is written for a string reads back as that string. -/
@[simp] theorem decode_encode (s : String) : decode (encode s) = s := by
  rw [decode, encode, decodeOnto_encode]
  simp

theorem encode_append (s t : String) : encode (s ++ t) = encode s ++ encode t := by
  unfold encode
  rw [String.toList_append, List.flatMap_append]

/-- Different strings have different bytes. -/
theorem encode_injective : Function.Injective encode := fun s t h => by
  rw [← decode_encode s, h, decode_encode]

/-! ### How much a text grows -/

/-- The bytes that characters come to. -/
def cost (cs : List Char) : Nat := (cs.flatMap String.utf8EncodeChar).length

/-- The bytes that a replacement for the character begun comes to. -/
def State.pending : State → Nat
  | .start => 0
  | .within .. => 3

@[simp] theorem pending_start : State.start.pending = 0 := rfl

@[simp] theorem pending_within (owed : Nat) (lower upper : UInt8) (code : Nat) :
    (State.within owed lower upper code).pending = 3 := rfl

@[simp] theorem cost_nil : cost [] = 0 := rfl

theorem cost_append (cs ds : List Char) : cost (cs ++ ds) = cost cs + cost ds := by
  simp [cost]

theorem cost_replacement_cons (cs : List Char) : cost (replacement :: cs) = 3 + cost cs :=
  cost_append [replacement] cs

theorem cost_singleton_le (c : Char) : cost [c] ≤ 4 := by
  have hc : (String.utf8EncodeChar c).length ≤ 4 := by
    rw [String.length_utf8EncodeChar]
    exact Char.utf8Size_le_four c
  simpa [cost] using hc

theorem cost_ascii {n : Nat} (h : n < 128) : cost [Char.ofNat n] = 1 := by
  have hall : ∀ n : Fin 128, cost [Char.ofNat n] = 1 := by decide
  exact hall ⟨n, h⟩

/-- Every byte comes to three bytes at most, a character begun being counted in advance. -/
theorem cost_lead_le (b : UInt8) : cost (lead b).1 + (lead b).2.pending ≤ 3 := by
  unfold lead
  split_ifs with hascii
  · have hb : b.toNat < 128 := Nat.lt_succ_of_le (UInt8.le_iff_toNat_le.mp hascii)
    rw [cost_ascii hb]
    exact Nat.le_of_ble_eq_true rfl
  all_goals simp [cost_replacement_cons]

theorem cost_feed_le (st : State) (b : UInt8) :
    cost (st.feed b).1 + (st.feed b).2.pending ≤ st.pending + 3 := by
  cases st with
  | start => simpa using cost_lead_le b
  | within owed lower upper code =>
    by_cases hrange : lower ≤ b ∧ b ≤ upper
    · cases owed with
      | zero =>
        have hchar := cost_singleton_le (Char.ofNat (code * 64 + b.toNat % 64))
        simp only [State.feed, if_pos hrange, pending_start, pending_within]
        omega
      | succ owed => simp [State.feed, hrange]
    · have hlead := cost_lead_le b
      simp only [State.feed, if_neg hrange, pending_within, cost_replacement_cons]
      omega

theorem cost_decodeOnto_le (acc : Array Char) (st : State) (b : Bytes) :
    cost (decodeOnto acc st b) ≤ cost acc.toList + st.pending + 3 * b.length := by
  induction b generalizing acc st with
  | nil =>
    have hflush : cost st.flush = st.pending := by cases st <;> rfl
    rw [decodeOnto, cost_append, hflush]
    omega
  | cons x b ih =>
    have hfeed := cost_feed_le st x
    have hrest := ih (acc.appendList (st.feed x).1) (st.feed x).2
    have hacc : (acc.appendList (st.feed x).1).toList = acc.toList ++ (st.feed x).1 := by simp
    rw [hacc, cost_append] at hrest
    rw [decodeOnto_cons, List.length_cons]
    omega

/-- What is read of bytes is written in three times as many at most. -/
theorem length_encode_decode_le (b : Bytes) : (encode (decode b)).length ≤ 3 * b.length := by
  have hcost := cost_decodeOnto_le #[] .start b
  simpa [encode, decode, cost] using hcost

end TokenLedger.Utf8
