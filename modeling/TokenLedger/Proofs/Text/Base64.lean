import Mathlib.Algebra.Group.Nat.Defs
import Mathlib.Tactic.SplitIfs
import TokenLedger.Text.Base64

/-!
# Base64 is read back

The text of bytes is read as the bytes (`decode_encode`).  A digit completes a byte or leaves bits
over: four after the second digit of a group, two after the third and none after the fourth, and at
the end of the text those are all zero.
-/

namespace TokenLedger.Base64

variable {n v pending count : Nat} {out : Bytes} {cs : List Char}

/-! ### Digits -/

theorem value?_digit (h : n < 64) : value? (digit n) = some n := by
  have hall : ∀ m < 64, value? (digit m) = some m := by decide
  exact hall n h

theorem digit_ne_pad (h : n < 64) : digit n ≠ '=' := by
  have hall : ∀ m < 64, digit m ≠ '=' := by decide
  exact hall n h

/-- A digit is six more bits behind those that are pending. -/
theorem decodeOnto_digit (hv : v < 64) (hpending : pending < 2 ^ count) :
    decodeOnto out pending count (digit v :: cs) =
      if 8 ≤ count + 6 then
        decodeOnto (UInt8.ofNat ((pending * 64 + v) / 2 ^ (count + 6 - 8)) :: out)
          ((pending * 64 + v) % 2 ^ (count + 6 - 8)) (count + 6 - 8) cs
      else decodeOnto out (pending * 64 + v) (count + 6) cs := by
  have hor : pending * 64 ||| v = pending * 64 + v := by
    rw [Nat.mul_comm]
    exact (Nat.two_pow_add_eq_or_of_lt (i := 6) hv pending).symm
  have hbits : (pending * 64 ||| v) % Nat.pow 2 (count + 6) = pending * 64 + v := by
    show (pending * 64 ||| v) % 2 ^ (count + 6) = pending * 64 + v
    rw [hor, Nat.mod_eq_of_lt]
    rw [Nat.pow_add]
    omega
  rw [decodeOnto, value?_digit hv]
  dsimp only
  rw [hbits]
  rfl

/-! ### Groups of digits -/

theorem decodeOnto_first (a : UInt8) (hn : n < 16) :
    decodeOnto out 0 0 (digit (a.toNat / 4) :: digit (a.toNat % 4 * 16 + n) :: cs) =
      decodeOnto (a :: out) n 4 cs := by
  have ha := a.toNat_lt
  have hbyte : (a.toNat / 4 * 64 + (a.toNat % 4 * 16 + n)) / 16 = a.toNat := by omega
  have hleft : (a.toNat / 4 * 64 + (a.toNat % 4 * 16 + n)) % 16 = n := by omega
  rw [decodeOnto_digit (by omega) (by decide), if_neg (by decide), Nat.zero_mul, Nat.zero_add,
    decodeOnto_digit (by omega) (by omega), if_pos (by decide)]
  show decodeOnto (UInt8.ofNat (_ / 16) :: out) (_ % 16) 4 cs = _
  rw [hbyte, hleft, UInt8.ofNat_toNat]

theorem decodeOnto_second (b : UInt8) (hn : n < 4) :
    decodeOnto out (b.toNat / 16) 4 (digit (b.toNat % 16 * 4 + n) :: cs) =
      decodeOnto (b :: out) n 2 cs := by
  have hb := b.toNat_lt
  have hbyte : (b.toNat / 16 * 64 + (b.toNat % 16 * 4 + n)) / 4 = b.toNat := by omega
  have hleft : (b.toNat / 16 * 64 + (b.toNat % 16 * 4 + n)) % 4 = n := by omega
  rw [decodeOnto_digit (by omega) (by omega), if_pos (by decide)]
  show decodeOnto (UInt8.ofNat (_ / 4) :: out) (_ % 4) 2 cs = _
  rw [hbyte, hleft, UInt8.ofNat_toNat]

theorem decodeOnto_third (c : UInt8) :
    decodeOnto out (c.toNat / 64) 2 (digit (c.toNat % 64) :: cs) =
      decodeOnto (c :: out) 0 0 cs := by
  have hc := c.toNat_lt
  have hbyte : (c.toNat / 64 * 64 + c.toNat % 64) / 1 = c.toNat := by omega
  have hleft : (c.toNat / 64 * 64 + c.toNat % 64) % 1 = 0 := by omega
  rw [decodeOnto_digit (by omega) (by omega), if_pos (by decide)]
  show decodeOnto (UInt8.ofNat (_ / 1) :: out) (_ % 1) 0 cs = _
  rw [hbyte, hleft, UInt8.ofNat_toNat]

/-! ### Padding -/

/-- Characters without the padding at their end. -/
def unpadded (cs : List Char) : List Char := (cs.reverse.dropWhile (· == '=')).reverse

theorem unpadded_digit (h : n < 64) (cs : List Char) :
    unpadded (digit n :: cs) = digit n :: unpadded cs := by
  unfold unpadded
  rw [List.reverse_cons, List.dropWhile_append]
  split_ifs with hpadding
  · rw [List.isEmpty_iff.mp hpadding, List.dropWhile_cons_of_neg (by simp [digit_ne_pad h])]
    rfl
  · rw [List.reverse_append]
    rfl

/-- The digits of bytes are read as the bytes, from the front and three bytes at a time. -/
theorem decodeOnto_encodeChars (b : Bytes) (out : Bytes) :
    decodeOnto out 0 0 (unpadded (encodeChars b)) = .ok (out.reverse ++ b) := by
  fun_induction encodeChars b generalizing out with
  | case1 => exact congrArg Except.ok (List.append_nil _).symm
  | case2 a =>
    have ha := a.toNat_lt
    have hpad : unpadded ['=', '='] = [] := rfl
    rw [unpadded_digit (by omega), unpadded_digit (by omega), hpad,
      ← Nat.add_zero (a.toNat % 4 * 16), decodeOnto_first a (by decide)]
    exact congrArg Except.ok (by simp)
  | case3 a b =>
    have ha := a.toNat_lt
    have hb := b.toNat_lt
    have hpad : unpadded ['='] = [] := rfl
    rw [unpadded_digit (by omega), unpadded_digit (by omega), unpadded_digit (by omega), hpad,
      decodeOnto_first a (by omega), ← Nat.add_zero (b.toNat % 16 * 4),
      decodeOnto_second b (by decide)]
    exact congrArg Except.ok (by simp)
  | case4 a b c rest ih =>
    have ha := a.toNat_lt
    have hb := b.toNat_lt
    have hc := c.toNat_lt
    rw [unpadded_digit (by omega), unpadded_digit (by omega), unpadded_digit (by omega),
      unpadded_digit (by omega), decodeOnto_first a (by omega), decodeOnto_second b (by omega),
      decodeOnto_third c, ih]
    exact congrArg Except.ok (by simp)

theorem decode_encode (b : Bytes) : decode (encode b) = .ok b := by
  have hread := decodeOnto_encodeChars b []
  rwa [← String.toList_ofList (l := encodeChars b)] at hread

end TokenLedger.Base64
