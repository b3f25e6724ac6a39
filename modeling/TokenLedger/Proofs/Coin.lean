import Mathlib.Data.List.Basic
import Mathlib.Tactic.SplitIfs
import TokenLedger.Coin

/-!
# Coin texts

A coin text is one or more digits with a denom that the variant knows behind them.  The digits of a
coin end where its denom starts, except that issued denoms may start with digits as well: a text is
a coin text if it falls apart in some place (`isCoinText_iff`), whereas the amount always is the
whole run of digits in front.
-/

namespace TokenLedger

variable {variant : Variant} {cs digits denom : List Char} {c : Char} {text : String}

/-! ### Characters -/

theorem isDigit_lowerAlphanumeric (h : c.isDigit = true) : isLowerAlphanumeric c = true := by
  unfold isLowerAlphanumeric
  rw [h, Bool.or_true]

theorem ne_dash_of_isDigit (h : c.isDigit = true) : (c != '-') = true := by
  rw [bne_iff_ne]
  rintro rfl
  exact absurd h (by decide)

theorem not_isDigit_of_isLowerLetter (h : isLowerLetter c = true) : c.isDigit = false := by
  rw [isLowerLetter, Bool.and_eq_true, decide_eq_true_eq, decide_eq_true_eq] at h
  have hlow : 97 ≤ c.toNat := h.1
  rw [Char.isDigit, Bool.and_eq_false_iff, decide_eq_false_iff_not, decide_eq_false_iff_not]
  right
  intro hdigit
  have hhigh : c.toNat ≤ 57 := hdigit
  omega

/-- A text is taken apart at the first character that is not of the class. -/
theorem span_stop {p : Char → Bool} {front rest : List Char} (h : ∀ c ∈ front, p c = true)
    (hc : ¬ p c = true) :
    (front ++ c :: rest).takeWhile p = front ∧ (front ++ c :: rest).dropWhile p = c :: rest := by
  rw [List.takeWhile_append_of_pos h, List.dropWhile_append_of_pos h,
    List.takeWhile_cons_of_neg hc, List.dropWhile_cons_of_neg hc, List.append_nil]
  exact ⟨rfl, rfl⟩

/-! ### Denoms -/

namespace Denom

/-- The forms of denoms that a variant knows. -/
def isKnown (variant : Variant) (cs : List Char) : Bool :=
  isCommon cs || (variant == .coreum && isIssued cs)

theorem isRun_cons {p : Char → Bool} : isRun p (c :: cs) = true ↔ p c = true ∧ cs.all p = true := by
  simp [isRun]

theorem eq_cons_of_splitAt {n : Nat} {mark rest : List Char} (h : cs.splitAt n = (c :: mark, rest)) :
    ∃ tail, cs = c :: tail := by
  have hcs : (c :: mark) ++ rest = cs := by
    have hjoin := List.take_append_drop n cs
    rw [List.splitAt_eq] at h
    obtain ⟨hmark, hrest⟩ := Prod.mk.inj h
    rw [hmark, hrest] at hjoin
    exact hjoin
  exact ⟨mark ++ rest, hcs.symm⟩

/-- A denom of a common form does not start with a digit. -/
theorem head_of_isCommon (h : isCommon cs = true) : ∃ c tail, cs = c :: tail ∧ c.isDigit = false := by
  have hforms : isPlain cs = true ∨ isIbc cs = true ∨ isFactory cs = true := by
    rw [isCommon, Bool.or_eq_true, Bool.or_eq_true, or_assoc] at h
    exact h
  rcases hforms with hplain | hibc | hfactory
  · cases cs with
    | nil => cases hplain
    | cons c tail =>
      exact ⟨c, tail, rfl, not_isDigit_of_isLowerLetter (isRun_cons.mp hplain).1⟩
  · obtain ⟨mark, hash, hsplit⟩ : ∃ mark hash, cs.splitAt 4 = (mark, hash) := ⟨_, _, rfl⟩
    simp only [isIbc, hsplit, Bool.and_eq_true, Bool.or_eq_true, beq_iff_eq] at hibc
    obtain ⟨⟨rfl | rfl, -⟩, -⟩ := hibc
    · obtain ⟨tail, rfl⟩ := eq_cons_of_splitAt hsplit
      exact ⟨_, tail, rfl, by decide⟩
    · obtain ⟨tail, rfl⟩ := eq_cons_of_splitAt hsplit
      exact ⟨_, tail, rfl, by decide⟩
  · obtain ⟨mark, rest, hsplit⟩ : ∃ mark rest, cs.splitAt 8 = (mark, rest) := ⟨_, _, rfl⟩
    simp only [isFactory, hsplit] at hfactory
    split at hfactory
    · simp only [Bool.and_eq_true, beq_iff_eq] at hfactory
      obtain ⟨⟨rfl, -⟩, -⟩ := hfactory
      obtain ⟨tail, rfl⟩ := eq_cons_of_splitAt hsplit
      exact ⟨_, tail, rfl, by decide⟩
    · cases hfactory

/-- Digits may stand in front of an issued denom: they belong to its subunit. -/
theorem isIssued_append (hdigits : ∀ c ∈ digits, c.isDigit = true) (h : isIssued denom = true) :
    isIssued (digits ++ denom) = true := by
  have hdash : ∀ c ∈ digits, (c != '-') = true := fun c hc => ne_dash_of_isDigit (hdigits c hc)
  unfold isIssued at h ⊢
  rw [List.dropWhile_append_of_pos hdash, List.takeWhile_append_of_pos hdash]
  split at h
  · rw [Bool.and_eq_true] at h
    obtain ⟨hsubunit, hrun⟩ := h
    rw [isRun, Bool.and_eq_true] at hsubunit
    rw [hrun, isRun, List.all_append, hsubunit.2, Bool.and_true, Bool.and_true, Bool.and_eq_true,
      List.all_eq_true]
    refine ⟨?_, fun c hc => isDigit_lowerAlphanumeric (hdigits c hc)⟩
    rw [Bool.not_eq_true', List.isEmpty_eq_false_iff] at hsubunit ⊢
    intro hnil
    exact hsubunit.1 (List.append_eq_nil_iff.mp hnil).2
  · cases h

end Denom

/-! ### Texts -/

theorem isDigits_iff : Decimal.isDigits digits = true ↔
    digits ≠ [] ∧ ∀ c ∈ digits, c.isDigit = true := by
  rw [Decimal.isDigits, Bool.and_eq_true, List.all_eq_true, Bool.not_eq_true', List.isEmpty_eq_false_iff]

/-- A text with digits in front of a denom of a common form falls apart there. -/
theorem span_digits (hdigits : ∀ c ∈ digits, c.isDigit = true) (hdenom : Denom.isCommon denom = true) :
    (digits ++ denom).takeWhile Char.isDigit = digits ∧
      (digits ++ denom).dropWhile Char.isDigit = denom := by
  obtain ⟨c, tail, rfl, hc⟩ := Denom.head_of_isCommon hdenom
  have hstop : ¬ c.isDigit = true := by
    rw [hc]
    exact Bool.false_ne_true
  exact span_stop hdigits hstop

/-- A coin text is one or more digits and a known denom. -/
theorem isCoinText_iff : isCoinText variant cs = true ↔
    ∃ digits denom, cs = digits ++ denom ∧ Decimal.isDigits digits = true ∧
      Denom.isKnown variant denom = true := by
  rw [isCoinText, Bool.or_eq_true, Bool.and_eq_true, Bool.and_eq_true]
  constructor
  · rintro (⟨hsome, hcommon⟩ | ⟨hvariant, hissued⟩)
    · refine ⟨cs.takeWhile Char.isDigit, cs.dropWhile Char.isDigit,
        List.takeWhile_append_dropWhile.symm, isDigits_iff.mpr ⟨?_, ?_⟩, ?_⟩
      · intro hnil
        rw [hnil] at hsome
        cases hsome
      · exact List.all_eq_true.mp List.all_takeWhile
      · rw [Denom.isKnown, hcommon, Bool.true_or]
    · cases cs with
      | nil => cases hissued
      | cons c rest =>
        rw [isIssuedCoin, Bool.and_eq_true] at hissued
        refine ⟨[c], rest, rfl, isDigits_iff.mpr ⟨List.cons_ne_nil c [], ?_⟩, ?_⟩
        · intro c' hc'
          rw [List.mem_singleton.mp hc']
          exact hissued.1
        · rw [Denom.isKnown, hvariant, hissued.2, Bool.true_and, Bool.or_true]
  · rintro ⟨digits, denom, rfl, hdigits, hknown⟩
    obtain ⟨hne, hall⟩ := isDigits_iff.mp hdigits
    rw [Denom.isKnown, Bool.or_eq_true, Bool.and_eq_true] at hknown
    rcases hknown with hcommon | ⟨hvariant, hissued⟩
    · obtain ⟨htake, hdrop⟩ := span_digits hall hcommon
      rw [htake, hdrop]
      refine Or.inl ⟨?_, hcommon⟩
      rw [Bool.not_eq_true', List.isEmpty_eq_false_iff]
      exact hne
    · cases digits with
      | nil => exact absurd rfl hne
      | cons c digits =>
        obtain ⟨hc, hrest⟩ := List.forall_mem_cons.mp hall
        refine Or.inr ⟨hvariant, ?_⟩
        rw [List.cons_append, isIssuedCoin, hc, Denom.isIssued_append hrest hissued]
        rfl

/-- A text that can be read as a coin: digits and a known denom, and the whole run of digits in front
comes to an amount that fits. -/
structure IsCoin (variant : Variant) (text : String) : Prop where
  form : ∃ digits denom, text.toList = digits ++ denom ∧ Decimal.isDigits digits = true ∧
    Denom.isKnown variant denom = true
  fits : Decimal.value (text.toList.takeWhile Char.isDigit) ≤ maxAmount

theorem Coin.exists_ofText_iff :
    (∃ coin, Coin.ofText variant text = .ok coin) ↔ IsCoin variant text := by
  unfold Coin.ofText
  by_cases hform : isCoinText variant text.toList = true
  · by_cases hmax : maxAmount < Decimal.value (text.toList.takeWhile Char.isDigit)
    · simp only [hform, if_true, if_pos hmax]
      constructor
      · rintro ⟨coin, h⟩
        cases h
      · intro h
        exact absurd h.fits (Nat.not_le.mpr hmax)
    · simp only [hform, if_true, if_neg hmax]
      constructor
      · intro _
        exact ⟨isCoinText_iff.mp hform, Nat.not_lt.mp hmax⟩
      · intro _
        exact ⟨_, rfl⟩
  · simp only [if_neg hform]
    constructor
    · rintro ⟨coin, h⟩
      cases h
    · intro h
      exact absurd (isCoinText_iff.mpr h.form) hform

end TokenLedger
