import Mathlib.Algebra.Order.Field.Rat
import Mathlib.Tactic.SplitIfs
import TokenLedger.Json.Parser
import TokenLedger.Json.Printer

/-!
# Integers read back

The decimal digits of a natural number begin with a zero only for zero itself
(`head?_toDigits_ne_zero`), so that a JSON integer is written as one numeral and nothing else.  An
integer of at most 53 bits is a binary64 number of its own; its numeral is read back as that number
(`readNumber_numeral`) wherever no digit, point or exponent follows.
-/

namespace TokenLedger

namespace Decimal

theorem head?_toDigits_ne_zero {n : Nat} (h : n ≠ 0) : (Nat.toDigits 10 n).head? ≠ some '0' := by
  induction n using Nat.strong_induction_on with
  | _ n ih =>
    rw [Nat.toDigits_eq_if (by decide)]
    split
    · simpa using h
    · rename_i hn
      have hd := ih (n / 10) (by omega) (by omega)
      cases hcs : Nat.toDigits 10 (n / 10) with
      | nil => exact absurd hcs Nat.toDigits_ne_nil
      | cons c cs => simpa [hcs] using hd

@[simp] theorem value_toDigits (n : Nat) : value (Nat.toDigits 10 n) = n :=
  Nat.ofDigitChars_ten_toDigits

end Decimal

namespace Number

/-- An integer that is a binary64 number of its own. -/
def IsSmallInteger (x : Number) : Prop := ∃ n : Int, n.natAbs ≤ 1 <<< 53 ∧ x = .finite n

theorem ofRat_intCast {n : Int} (h : n.natAbs ≤ 1 <<< 53) : ofRat n = .finite n := by
  rw [ofRat, if_pos ⟨Rat.den_intCast n, by rwa [Rat.num_intCast]⟩]

theorem isSmallInteger_ofNat {n : Nat} (h : n ≤ 1 <<< 53) : (ofNat n).IsSmallInteger :=
  ⟨n, by simpa using h, ofRat_intCast (n := n) (by simpa using h)⟩

/-! ### Digits in front of a text -/

/-- Nothing that goes on with a numeral stands in front. -/
def EndsNumeral : List Char → Prop
  | [] => True
  | c :: _ => c.isDigit = false ∧ c ≠ '.' ∧ c ≠ 'e' ∧ c ≠ 'E'

theorem spanDigits_append {digits rest : List Char} (hd : digits.all Char.isDigit = true)
    (hr : EndsNumeral rest) : spanDigits (digits ++ rest) = (digits, rest) := by
  have hd' : ∀ c ∈ digits, c.isDigit = true := List.all_eq_true.mp hd
  have hrest : rest.takeWhile Char.isDigit = [] ∧ rest.dropWhile Char.isDigit = rest := by
    cases rest with
    | nil => exact ⟨rfl, rfl⟩
    | cons c rest => exact ⟨by simp [hr.1], by simp [hr.1]⟩
  rw [spanDigits, List.takeWhile_append_of_pos hd', List.dropWhile_append_of_pos hd', hrest.1,
    hrest.2, List.append_nil]

theorem readDigits_append {defect : Defect} {digits rest : List Char}
    (hd : digits.all Char.isDigit = true) (hne : digits ≠ []) (hr : EndsNumeral rest) :
    readDigits defect (digits ++ rest) = .ok (digits, rest) := by
  rw [readDigits, spanDigits_append hd hr]
  simp [hne]

theorem readWhole_toDigits (n : Nat) {rest : List Char} (hr : EndsNumeral rest) :
    readWhole (Nat.toDigits 10 n ++ rest) = .ok (Nat.toDigits 10 n, rest) := by
  rw [readWhole, readDigits_append (Decimal.all_isDigit_toDigits n) Nat.toDigits_ne_nil hr]
  split
  · rename_i d digits rest' h
    injection h with h
    injection h with h hrest
    by_cases hn : n = 0
    · simp [hn] at h
    · exact absurd (by rw [h]; rfl) (Decimal.head?_toDigits_ne_zero hn)
  · rfl

theorem readFraction_of_endsNumeral {rest : List Char} (hr : EndsNumeral rest) :
    readFraction rest = .ok ([], rest) := by
  unfold readFraction
  split
  · exact absurd rfl hr.2.1
  · rfl

theorem readExponent_of_endsNumeral {rest : List Char} (hr : EndsNumeral rest) :
    readExponent rest = .ok (0, rest) := by
  cases rest with
  | nil => rfl
  | cons c rest =>
    unfold readExponent
    exact if_neg (by simp [hr.2.2])

/-! ### Numerals -/

theorem toNumber_whole {n : Nat} (h : n ≤ 1 <<< 53) (negative : Bool) :
    (Numeral.mk negative (Nat.toDigits 10 n) [] 0).toNumber =
      .finite (if negative then -(n : Int) else n : Int) := by
  have hlen : (Nat.toDigits 10 n).length ≤ 16 :=
    (Nat.length_toDigits_le_iff (by decide) (by decide)).mpr
      (lt_of_le_of_lt h (by decide))
  unfold Numeral.toNumber
  simp only [List.append_nil, Decimal.value_toDigits, List.length_nil, Nat.cast_zero, sub_zero,
    add_zero]
  by_cases hn : n = 0
  · subst hn
    cases negative <;> rfl
  · rw [if_neg hn, if_neg (by omega), if_neg (by omega)]
    have hdec : decimal n 0 = ((n : Int) : Rat) := by simp [decimal]
    rw [hdec]
    cases negative with
    | false => exact ofRat_intCast (by simpa using h)
    | true =>
      rw [if_pos rfl, ← Rat.intCast_neg]
      exact ofRat_intCast (by simpa using h)

theorem readUnsigned_toDigits {n : Nat} (h : n ≤ 1 <<< 53) (negative : Bool) {rest : List Char}
    (hr : EndsNumeral rest) :
    readUnsigned negative (Nat.toDigits 10 n ++ rest) =
      .ok (.finite (if negative then -(n : Int) else n : Int), rest) := by
  simp only [readUnsigned, bind, Except.bind, readWhole_toDigits n hr,
    readFraction_of_endsNumeral hr, readExponent_of_endsNumeral hr, toNumber_whole h]

/-- The digits of a natural number are no minus sign. -/
theorem toDigits_eq_cons (n : Nat) :
    ∃ c cs, Nat.toDigits 10 n = c :: cs ∧ c.isDigit = true := by
  cases h : Nat.toDigits 10 n with
  | nil => exact absurd h Nat.toDigits_ne_nil
  | cons c cs =>
    exact ⟨c, cs, rfl, Nat.isDigit_of_mem_toDigits (by decide) (by decide) (n := n) (b := 10)
      (by rw [h]; exact List.mem_cons_self)⟩

theorem read_ofInt {n : Int} (h : n.natAbs ≤ 1 <<< 53) {rest : List Char} (hr : EndsNumeral rest) :
    read ((Decimal.ofInt n).toList ++ rest) = .ok (.finite n, rest) := by
  cases n with
  | ofNat n =>
    rw [Decimal.ofInt, Nat.toList_repr]
    have hread := readUnsigned_toDigits (n := n) (by simpa using h) false hr
    obtain ⟨c, cs, hcs, hc⟩ := toDigits_eq_cons n
    rw [hcs, List.cons_append] at hread ⊢
    unfold read
    split
    · rename_i heq
      injection heq with hminus
      subst hminus
      exact absurd hc (by decide)
    · exact hread
  | negSucc n =>
    have hread := readUnsigned_toDigits (n := n + 1) (by simpa using h) true hr
    simp only [Decimal.ofInt, String.toList_append, Nat.toList_repr]
    exact hread

theorem toText_intCast {n : Int} (h : n.natAbs ≤ 1 <<< 53) :
    toText (.finite n) = Decimal.ofInt n := by
  rw [toText, if_pos ⟨Rat.den_intCast n, by rwa [Rat.num_intCast]⟩, Rat.num_intCast]

end Number

namespace Json

/-- An integer of at most 53 bits is read back from its numeral. -/
theorem readNumber_numeral {x : Number} (h : x.IsSmallInteger) {rest : List Char}
    (hr : Number.EndsNumeral rest) :
    readNumber (numeral x ++ rest) = .ok (.num x, rest) := by
  obtain ⟨n, hn, rfl⟩ := h
  rw [numeral, Number.toText_intCast hn, readNumber, Number.read_ofInt hn hr]

/-- A numeral begins with a digit or a minus sign. -/
theorem numeral_eq_cons {x : Number} (h : x.IsSmallInteger) :
    ∃ c cs, numeral x = c :: cs ∧ (c.isDigit || c == '-') = true := by
  obtain ⟨n, hn, rfl⟩ := h
  rw [numeral, Number.toText_intCast hn]
  cases n with
  | ofNat n =>
    obtain ⟨c, cs, hcs, hc⟩ := Number.toDigits_eq_cons n
    exact ⟨c, cs, by rw [Decimal.ofInt, Nat.toList_repr, hcs], by simp [hc]⟩
  | negSucc n =>
    exact ⟨'-', Nat.toDigits 10 (n + 1), by
      simp only [Decimal.ofInt, String.toList_append, Nat.toList_repr]; rfl, by decide⟩

end Json

end TokenLedger
