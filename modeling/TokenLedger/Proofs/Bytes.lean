import Mathlib.Data.List.Induction
import Mathlib.Data.Nat.Digits.Lemmas
import TokenLedger.Bytes
import TokenLedger.Proofs.Utf8

/-!
# Big-endian numbers are read back

The bytes of a number are those of its 256th part and one more.  From this follow, by induction on
the number, its digits in base 256, its value and the absence of leading zeros.  Bytes without a
zero in front are those of the number that they stand for, and their count tells how large it is.
-/

namespace TokenLedger.Bytes

/-! ### Digits -/

theorem bigEndianOnto_append (fuel n : Nat) (acc : Bytes) :
    bigEndianOnto fuel n acc = bigEndianOnto fuel n [] ++ acc := by
  induction fuel generalizing n acc with
  | zero => rfl
  | succ fuel ih =>
    unfold bigEndianOnto
    by_cases hn : n = 0
    · rw [if_pos hn, if_pos hn, List.nil_append]
    · rw [if_neg hn, if_neg hn, ih _ (_ :: acc), ih _ [_], List.append_assoc,
        List.singleton_append]

/-- Any fuel from the number upwards gives the same digits. -/
theorem bigEndianOnto_congr {f g n : Nat} (hf : n ≤ f) (hg : n ≤ g) (acc : Bytes) :
    bigEndianOnto f n acc = bigEndianOnto g n acc := by
  induction f generalizing g n acc with
  | zero =>
    obtain rfl : n = 0 := Nat.le_zero.mp hf
    cases g <;> rfl
  | succ f ih =>
    cases g with
    | zero =>
      obtain rfl : n = 0 := Nat.le_zero.mp hg
      rfl
    | succ g =>
      unfold bigEndianOnto
      by_cases hn : n = 0
      · rw [if_pos hn, if_pos hn]
      · rw [if_neg hn, if_neg hn]
        exact ih (by omega) (by omega) _

theorem bigEndian_eq {n : Nat} (hn : n ≠ 0) :
    bigEndian n = bigEndian (n / 256) ++ [UInt8.ofNat (n % 256)] := by
  obtain ⟨k, rfl⟩ := Nat.exists_eq_succ_of_ne_zero hn
  have hstep : bigEndian k.succ =
      bigEndianOnto k (k.succ / 256) [UInt8.ofNat (k.succ % 256)] := by
    show bigEndianOnto k.succ k.succ [] = _
    rw [bigEndianOnto, if_neg hn]
  rw [hstep, bigEndianOnto_append, bigEndian,
    bigEndianOnto_congr (g := k.succ / 256) (by omega) (Nat.le_refl _)]

/-- Induction on the digits of a number, the last one first. -/
theorem digits_induction {P : Nat → Prop} (zero : P 0) (digit : ∀ n, n ≠ 0 → P (n / 256) → P n)
    (n : Nat) : P n := by
  induction n using Nat.strongRecOn with
  | ind n ih =>
    by_cases hn : n = 0
    · rw [hn]
      exact zero
    · exact digit n hn (ih (n / 256) (by omega))

/-- The bytes of a number are its digits in base 256, the greatest first. -/
theorem map_toNat_bigEndian (n : Nat) :
    (bigEndian n).map UInt8.toNat = (Nat.digits 256 n).reverse := by
  induction n using digits_induction with
  | zero => simp
  | digit n hn ih =>
    have hdigit : (UInt8.ofNat (n % 256)).toNat = n % 256 := Utf8.toNat_ofNat (by omega)
    rw [bigEndian_eq hn, List.map_append, ih, List.map_singleton, hdigit,
      Nat.digits_def' (by decide) (Nat.pos_of_ne_zero hn), List.reverse_cons]

/-! ### Value -/

theorem toNat_concat (b : Bytes) (x : UInt8) : toNat (b ++ [x]) = toNat b * 256 + x.toNat := by
  simp [toNat, List.foldl_append]

@[simp] theorem toNat_bigEndian (n : Nat) : toNat (bigEndian n) = n := by
  induction n using digits_induction with
  | zero => rfl
  | digit n hn ih =>
    have hdigit : (UInt8.ofNat (n % 256)).toNat = n % 256 := Utf8.toNat_ofNat (by omega)
    rw [bigEndian_eq hn, toNat_concat, ih, hdigit]
    omega

/-! ### Canonical form -/

theorem bigEndian_ne_nil {n : Nat} (hn : n ≠ 0) : bigEndian n ≠ [] := by
  rw [bigEndian_eq hn]
  simp

/-- No number is written with a zero in front. -/
theorem head?_bigEndian (n : Nat) : (bigEndian n).head? ≠ some 0 := by
  induction n using digits_induction with
  | zero => simp
  | digit n hn ih =>
    rw [bigEndian_eq hn]
    by_cases hq : n / 256 = 0
    · have hdigit : (UInt8.ofNat (n % 256)).toNat = n % 256 := Utf8.toNat_ofNat (by omega)
      rw [hq, bigEndian_zero, List.nil_append, List.head?_cons]
      intro h
      rw [Option.some.inj h] at hdigit
      have hzero : (0 : UInt8).toNat = 0 := rfl
      omega
    · obtain ⟨x, b, hb⟩ := List.exists_cons_of_ne_nil (bigEndian_ne_nil hq)
      rw [hb] at ih ⊢
      exact ih

/-- Exactly the numbers below `256 ^ k` have at most `k` digits. -/
theorem length_bigEndian_le_iff {k n : Nat} : (bigEndian n).length ≤ k ↔ n < 256 ^ k := by
  rw [← List.length_map UInt8.toNat, map_toNat_bigEndian, List.length_reverse]
  exact Nat.digits_length_le_iff (by decide) n

theorem toNat_pos {b : Bytes} (hne : b ≠ []) (h : b.head? ≠ some 0) : 0 < toNat b := by
  induction b using List.reverseRecOn with
  | nil => exact absurd rfl hne
  | append_singleton b x ih =>
    rw [toNat_concat]
    cases b with
    | nil =>
      have hx : x ≠ 0 := fun hx => h (congrArg some hx)
      have hpos : x.toNat ≠ 0 := fun hzero => hx (UInt8.toNat_inj.mp hzero)
      omega
    | cons y b =>
      have hpos := ih (List.cons_ne_nil y b) h
      omega

/-- Bytes without a zero in front are those of the number that they stand for. -/
theorem bigEndian_toNat {b : Bytes} (h : b.head? ≠ some 0) : bigEndian (toNat b) = b := by
  induction b using List.reverseRecOn with
  | nil => rfl
  | append_singleton b x ih =>
    have hpos := toNat_pos (by simp) h
    have hx := x.toNat_lt
    rw [bigEndian_eq (by omega), toNat_concat]
    have hdiv : (toNat b * 256 + x.toNat) / 256 = toNat b := by omega
    have hmod : (toNat b * 256 + x.toNat) % 256 = x.toNat := by omega
    rw [hdiv, hmod, UInt8.ofNat_toNat]
    cases b with
    | nil => rfl
    | cons y b => rw [ih h]

/-- Bytes without a zero in front stand for a number below `256 ^ k` if they are at most `k`. -/
theorem toNat_lt_iff {b : Bytes} {k : Nat} (h : b.head? ≠ some 0) :
    toNat b < 256 ^ k ↔ b.length ≤ k := by
  rw [← length_bigEndian_le_iff, bigEndian_toNat h]

end TokenLedger.Bytes
