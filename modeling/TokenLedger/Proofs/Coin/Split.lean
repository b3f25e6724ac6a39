import Mathlib.Data.List.TakeWhile
import TokenLedger.Proofs.Coin.Grammar

/-!
# Where a coin text falls apart

A generic coin text falls apart in one place only, and that is where it is read apart
(`Coin.ofText_generic`).  An issued denom may start with digits, so that a text such as `12-core`
has a denom in it from its second character on, whereas all its digits are read as the amount: what
is left for the denom is a dash and the issuer.  No other coin text is read with a denom of no known
form (`Coin.denom_known_iff`).
-/

namespace TokenLedger

open Denom (Run Common Known)

variable {variant : Variant} {text digits denom digits' denom' issuer : String} {coin : Coin}
  {e : Fault}

/-- A text is one or more digits in front of a denom that the variant knows. -/
structure CoinSplit (variant : Variant) (text digits denom : String) : Prop where
  text_eq : text = digits ++ denom
  digits_run : Run Char.isDigit digits.toList
  denom_known : Known variant denom.toList

/-- A text is one or more digits in front of a dash and an issuer. -/
structure DashSplit (text digits issuer : String) : Prop where
  text_eq : text = digits ++ ("-" ++ issuer)
  digits_run : Run Char.isDigit digits.toList

/-! ### The digits in front -/

/-- The run of digits in front of a text. -/
def leadingDigits (text : String) : String := String.ofList (text.toList.takeWhile Char.isDigit)

/-- What follows the run of digits in front of a text. -/
def afterDigits (text : String) : String := String.ofList (text.toList.dropWhile Char.isDigit)

theorem leadingDigits_append_afterDigits (text : String) :
    leadingDigits text ++ afterDigits text = text := by
  unfold leadingDigits afterDigits
  rw [← String.ofList_append, List.takeWhile_append_dropWhile, String.ofList_toList]

/-- Digits in front of what starts with none are the whole run. -/
theorem span_of_head (hdigits : ∀ c ∈ digits.toList, c.isDigit = true)
    (hhead : ∀ c ∈ denom.toList.head?, c.isDigit = false) :
    leadingDigits (digits ++ denom) = digits ∧ afterDigits (digits ++ denom) = denom := by
  have hspan : (digits.toList ++ denom.toList).takeWhile Char.isDigit = digits.toList ∧
      (digits.toList ++ denom.toList).dropWhile Char.isDigit = denom.toList := by
    cases hdenom : denom.toList with
    | nil =>
      rw [List.append_nil, List.takeWhile_eq_self_iff, List.dropWhile_eq_nil_iff]
      exact ⟨hdigits, hdigits⟩
    | cons c tail =>
      have hc : ¬ c.isDigit = true := by
        rw [hhead c (by rw [hdenom]; rfl)]
        exact Bool.false_ne_true
      exact span_stop hdigits hc
  obtain ⟨hfront, hback⟩ := hspan
  unfold leadingDigits afterDigits
  rw [String.toList_append, hfront, hback, String.ofList_toList, String.ofList_toList]
  exact ⟨rfl, rfl⟩

theorem head_afterDigits (text : String) :
    ∀ c ∈ (afterDigits text).toList.head?, c.isDigit = false := by
  intro c hc
  unfold afterDigits at hc
  rw [String.toList_ofList] at hc
  have hstop := List.head?_dropWhile_not Char.isDigit text.toList
  rw [Option.mem_def.mp hc] at hstop
  simpa using hstop

/-! ### Reading -/

theorem isCoinText_iff_split : isCoinText variant text.toList = true ↔
    ∃ digits denom, CoinSplit variant text digits denom := by
  rw [isCoinText_iff]
  simp only [Denom.isKnown_iff, isDigits_iff]
  constructor
  · rintro ⟨digits, denom, htext, hdigits, hdenom⟩
    refine ⟨String.ofList digits, String.ofList denom, ?_, ?_, ?_⟩
    · rw [← String.toList_inj, htext, String.toList_append, String.toList_ofList,
        String.toList_ofList]
    · rw [String.toList_ofList]
      exact hdigits
    · rw [String.toList_ofList]
      exact hdenom
  · rintro ⟨digits, denom, h⟩
    refine ⟨digits.toList, denom.toList, ?_, h.digits_run, h.denom_known⟩
    rw [h.text_eq, String.toList_append]

/-- A text that falls apart somewhere is read as the run of digits in front and what follows it. -/
theorem Coin.ofText_of_split (h : ∃ digits denom, CoinSplit variant text digits denom) :
    Coin.ofText variant text =
      if maxAmount < Decimal.value (leadingDigits text).toList then
        .error (.invalid (.coinTooLarge (leadingDigits text) text))
      else .ok ⟨afterDigits text, Decimal.value (leadingDigits text).toList⟩ := by
  unfold Coin.ofText leadingDigits afterDigits
  rw [if_pos (isCoinText_iff_split.mpr h), String.toList_ofList]

theorem Coin.ofText_of_not_split (h : ¬ ∃ digits denom, CoinSplit variant text digits denom) :
    Coin.ofText variant text = .error (.invalid (.coinForm text)) :=
  if_neg fun hform => h (isCoinText_iff_split.mp hform)

theorem Coin.name_of_ofText (h : Coin.ofText variant text = .error e) :
    e.name = "ValidationError" := by
  by_cases hsplit : ∃ digits denom, CoinSplit variant text digits denom
  · rw [Coin.ofText_of_split hsplit] at h
    split_ifs at h
    injection h with h
    rw [← h]
    rfl
  · rw [Coin.ofText_of_not_split hsplit] at h
    injection h with h
    rw [← h]
    rfl

/-! ### Generic coin texts -/

/-- Where a text has a common denom behind its digits is settled by the run of digits. -/
theorem CoinSplit.span (h : CoinSplit variant text digits denom) (hdenom : Common denom.toList) :
    digits = leadingDigits text ∧ denom = afterDigits text := by
  obtain ⟨c, tail, hcons, hc⟩ := hdenom.head
  have hhead : ∀ c ∈ denom.toList.head?, c.isDigit = false := by
    rw [hcons]
    intro x hx
    rw [← Option.some.inj hx]
    exact hc
  obtain ⟨hfront, hback⟩ := span_of_head h.digits_run.2 hhead
  rw [h.text_eq]
  exact ⟨hfront.symm, hback.symm⟩

theorem CoinSplit.span_generic (h : CoinSplit .generic text digits denom) :
    digits = leadingDigits text ∧ denom = afterDigits text :=
  h.span (Denom.known_generic_iff.mp h.denom_known)

/-- Zeros in front do not count. -/
theorem Decimal.value_zeros_append (n : Nat) (cs : List Char) :
    Decimal.value (List.replicate n '0' ++ cs) = Decimal.value cs := by
  induction n with
  | zero => rfl
  | succ n ih =>
    rw [List.replicate_succ, List.cons_append, ← ih]
    simp [Decimal.value, Nat.ofDigitChars_cons]

theorem CoinSplit.zeros_append (n : Nat) (h : CoinSplit variant text digits denom) :
    CoinSplit variant (String.ofList (List.replicate n '0') ++ text)
      (String.ofList (List.replicate n '0') ++ digits) denom := by
  refine ⟨?_, ?_, h.denom_known⟩
  · rw [h.text_eq, String.append_assoc]
  · rw [String.toList_append, String.toList_ofList]
    refine h.digits_run.append_left fun c hc => ?_
    rw [List.eq_of_mem_replicate hc]
    decide

theorem Coin.ofText_generic_eq_ok :
    Coin.ofText .generic text = .ok coin ↔ ∃ digits denom, CoinSplit .generic text digits denom ∧
      Decimal.value digits.toList ≤ maxAmount ∧ coin = ⟨denom, Decimal.value digits.toList⟩ := by
  by_cases hsplit : ∃ digits denom, CoinSplit .generic text digits denom
  · rw [Coin.ofText_of_split hsplit]
    obtain ⟨digits, denom, h⟩ := hsplit
    obtain ⟨hdigits, hdenom⟩ := h.span_generic
    rw [← hdigits, ← hdenom]
    constructor
    · intro hread
      split_ifs at hread with hmax
      injection hread with hcoin
      exact ⟨digits, denom, h, Nat.not_lt.mp hmax, hcoin.symm⟩
    · rintro ⟨digits', denom', h', hmax, rfl⟩
      obtain ⟨hdigits', hdenom'⟩ := h'.span_generic
      rw [hdigits, ← hdigits', hdenom, ← hdenom', if_neg (Nat.not_lt.mpr hmax)]
  · rw [Coin.ofText_of_not_split hsplit]
    constructor
    · intro hread
      cases hread
    · rintro ⟨digits, denom, h, -, -⟩
      exact absurd ⟨digits, denom, h⟩ hsplit

theorem Coin.ofText_generic_eq_error :
    Coin.ofText .generic text = .error e ↔
      (∃ digits denom, CoinSplit .generic text digits denom ∧
        maxAmount < Decimal.value digits.toList ∧ e = .invalid (.coinTooLarge digits text)) ∨
      (¬ ∃ digits denom, CoinSplit .generic text digits denom) ∧ e = .invalid (.coinForm text) := by
  by_cases hsplit : ∃ digits denom, CoinSplit .generic text digits denom
  · rw [Coin.ofText_of_split hsplit, or_iff_left fun h => h.1 hsplit]
    obtain ⟨digits, denom, h⟩ := hsplit
    obtain ⟨hdigits, hdenom⟩ := h.span_generic
    rw [← hdigits, ← hdenom]
    constructor
    · intro hread
      split_ifs at hread with hmax
      injection hread with hfault
      exact ⟨digits, denom, h, hmax, hfault.symm⟩
    · rintro ⟨digits', denom', h', hmax, rfl⟩
      obtain ⟨hdigits', -⟩ := h'.span_generic
      rw [hdigits, ← hdigits', if_pos hmax]
  · rw [Coin.ofText_of_not_split hsplit]
    constructor
    · intro hread
      injection hread with hfault
      exact .inr ⟨hsplit, hfault.symm⟩
    · rintro (⟨digits, denom, h, -, -⟩ | ⟨-, rfl⟩)
      · exact absurd ⟨digits, denom, h⟩ hsplit
      · rfl

/-- **Generic coin texts are read exactly.**  A text has at most one split into digits and a denom
of a known form; it is read if it has one and the amount fits, and then as that denom and amount,
whatever the number of zeros in front.  Otherwise it is invalid: for its size if it has a split, and
for its form if it has none. -/
theorem Coin.ofText_generic (text : String) :
    (∀ digits denom digits' denom', CoinSplit .generic text digits denom →
      CoinSplit .generic text digits' denom' → digits = digits' ∧ denom = denom') ∧
    (∀ coin, Coin.ofText .generic text = .ok coin ↔
      ∃ digits denom, CoinSplit .generic text digits denom ∧
        Decimal.value digits.toList ≤ maxAmount ∧ coin = ⟨denom, Decimal.value digits.toList⟩) ∧
    (∀ n coin, Coin.ofText .generic text = .ok coin →
      Coin.ofText .generic (String.ofList (List.replicate n '0') ++ text) = .ok coin) ∧
    (∀ e, Coin.ofText .generic text = .error e ↔
      (∃ digits denom, CoinSplit .generic text digits denom ∧
        maxAmount < Decimal.value digits.toList ∧ e = .invalid (.coinTooLarge digits text)) ∨
      (¬ ∃ digits denom, CoinSplit .generic text digits denom) ∧ e = .invalid (.coinForm text)) ∧
    ∀ e, Coin.ofText .generic text = .error e → e.name = "ValidationError" := by
  refine ⟨?_, fun _ => Coin.ofText_generic_eq_ok, ?_, fun _ => Coin.ofText_generic_eq_error,
    fun _ => Coin.name_of_ofText⟩
  · intro digits denom digits' denom' h h'
    obtain ⟨hdigits, hdenom⟩ := h.span_generic
    obtain ⟨hdigits', hdenom'⟩ := h'.span_generic
    exact ⟨hdigits.trans hdigits'.symm, hdenom.trans hdenom'.symm⟩
  · intro n coin hread
    obtain ⟨digits, denom, h, hmax, rfl⟩ := Coin.ofText_generic_eq_ok.mp hread
    have hvalue : Decimal.value (String.ofList (List.replicate n '0') ++ digits).toList =
        Decimal.value digits.toList := by
      rw [String.toList_append, String.toList_ofList, Decimal.value_zeros_append]
    refine Coin.ofText_generic_eq_ok.mpr ⟨_, denom, h.zeros_append n, ?_, ?_⟩
    · rw [hvalue]
      exact hmax
    · rw [hvalue]

/-! ### Coin texts with issued denoms -/

/-- What follows the digits of a text that falls apart is a denom of a known form, or else a dash
and an issuer. -/
theorem known_afterDigits (h : ∃ digits denom, CoinSplit .coreum text digits denom) :
    Known .coreum (afterDigits text).toList ∨ ∃ issuer, afterDigits text = "-" ++ issuer := by
  obtain ⟨digits, denom, h⟩ := h
  generalize hvariant : Variant.coreum = variant at h
  generalize hcs : denom.toList = cs
  have hknown := h.denom_known
  rw [hcs] at hknown
  cases hknown with
  | common hcommon =>
    left
    rw [← hcs] at hcommon
    rw [← (h.span hcommon).2]
    exact .common hcommon
  | @issued subunit issuer hsubunit hissuer =>
    have hback : (afterDigits text).toList =
        (subunit ++ '-' :: issuer).dropWhile Char.isDigit := by
      unfold afterDigits
      rw [String.toList_ofList, h.text_eq, String.toList_append,
        List.dropWhile_append_of_pos h.digits_run.2, hcs]
    have hdash : ('-' :: issuer).dropWhile Char.isDigit = '-' :: issuer :=
      List.dropWhile_cons_of_neg (by decide)
    rw [List.dropWhile_append, hdash] at hback
    split at hback
    · -- the whole subunit is digits, and the amount has swallowed it
      right
      refine ⟨String.ofList issuer, ?_⟩
      rw [← String.toList_inj, hback]
      simp
    · rename_i hrest
      left
      rw [hback]
      refine .issued ⟨?_, fun c hc => hsubunit.2 c ?_⟩ hissuer
      · intro hnil
        rw [hnil] at hrest
        exact hrest rfl
      · exact (List.dropWhile_sublist _).subset hc

theorem not_known_dash (issuer : String) : ¬ Known variant ("-" ++ issuer).toList := by
  intro h
  rw [String.toList_append] at h
  exact h.head_ne_dash

theorem leadingDigits_run (h : ∃ digits denom, CoinSplit variant text digits denom) :
    Run Char.isDigit (leadingDigits text).toList := by
  obtain ⟨digits, denom, h⟩ := h
  unfold leadingDigits
  rw [String.toList_ofList]
  refine ⟨?_, List.all_eq_true.mp List.all_takeWhile⟩
  rw [h.text_eq, String.toList_append, List.takeWhile_append_of_pos h.digits_run.2]
  intro hnil
  exact h.digits_run.1 (List.append_eq_nil_iff.mp hnil).1

/-- A text has digits in front of a dash exactly if a dash follows its run of digits. -/
theorem exists_dashSplit_iff (h : ∃ digits denom, CoinSplit variant text digits denom) :
    (∃ digits issuer, DashSplit text digits issuer) ↔
      ∃ issuer, afterDigits text = "-" ++ issuer := by
  constructor
  · rintro ⟨digits, issuer, hdash⟩
    refine ⟨issuer, ?_⟩
    have hhead : ∀ c ∈ ("-" ++ issuer).toList.head?, c.isDigit = false := by
      intro c hc
      rw [String.toList_append] at hc
      rw [← Option.some.inj hc]
      decide
    rw [hdash.text_eq]
    exact (span_of_head hdash.digits_run.2 hhead).2
  · rintro ⟨issuer, hissuer⟩
    refine ⟨leadingDigits text, issuer, ?_, leadingDigits_run h⟩
    rw [← hissuer, leadingDigits_append_afterDigits]

theorem Coin.eq_of_ofText (h : Coin.ofText variant text = .ok coin) :
    (∃ digits denom, CoinSplit variant text digits denom) ∧
      coin = ⟨afterDigits text, Decimal.value (leadingDigits text).toList⟩ := by
  by_cases hsplit : ∃ digits denom, CoinSplit variant text digits denom
  · rw [Coin.ofText_of_split hsplit] at h
    split_ifs at h
    injection h with hcoin
    exact ⟨hsplit, hcoin.symm⟩
  · rw [Coin.ofText_of_not_split hsplit] at h
    cases h

/-- A single digit in front of what starts with none has to be the amount. -/
theorem CoinSplit.known_of_one (hhead : ∀ c ∈ denom.toList.head?, c.isDigit = false)
    (h : CoinSplit variant ("1" ++ denom) digits denom') : Known variant denom.toList := by
  have htext : '1' :: denom.toList = digits.toList ++ denom'.toList := by
    rw [← String.toList_append, ← h.text_eq, String.toList_append]
    rfl
  obtain ⟨c, ds, hdigits⟩ := List.exists_cons_of_ne_nil h.digits_run.1
  rw [hdigits] at htext
  obtain ⟨-, hdenom⟩ := List.cons.inj htext
  cases ds with
  | nil =>
    have hsame : denom.toList = denom'.toList := hdenom
    rw [hsame]
    exact h.denom_known
  | cons d ds =>
    have hd : d.isDigit = true := h.digits_run.2 d (by simp [hdigits])
    rw [hhead d (by rw [hdenom]; rfl)] at hd
    cases hd

/-- One unit of what starts with no digit is read exactly if that is a denom of a known form. -/
theorem Coin.ofText_one_iff (hhead : ∀ c ∈ denom.toList.head?, c.isDigit = false) :
    Coin.ofText variant ("1" ++ denom) = .ok ⟨denom, 1⟩ ↔ Known variant denom.toList := by
  constructor
  · intro hread
    obtain ⟨⟨digits, denom', h⟩, -⟩ := Coin.eq_of_ofText hread
    exact h.known_of_one hhead
  · intro h
    have hone : Run Char.isDigit "1".toList := Denom.isRun_iff.mp (by decide)
    obtain ⟨hfront, hback⟩ := span_of_head hone.2 hhead
    have hvalue : Decimal.value "1".toList = 1 := by decide
    rw [Coin.ofText_of_split ⟨"1", denom, rfl, hone, h⟩, hfront, hback, hvalue, if_neg (by decide)]
    rfl

/-- **Where issued denoms are lost.**  A coin text that is read as coreum knows it is the amount's
digits in front of the denom.  The denom has a known form, and one unit of it is read as that again,
exactly if the text is not all digits up to a dash. -/
theorem Coin.denom_known_iff (h : Coin.ofText .coreum text = .ok coin) :
    (∃ digits, text = digits ++ coin.denom ∧ Run Char.isDigit digits.toList ∧
      coin.amount = Decimal.value digits.toList) ∧
    (Known .coreum coin.denom.toList ↔ ¬ ∃ digits issuer, DashSplit text digits issuer) ∧
    (Coin.ofText .coreum ("1" ++ coin.denom) = .ok ⟨coin.denom, 1⟩ ↔
      ¬ ∃ digits issuer, DashSplit text digits issuer) := by
  obtain ⟨hsplit, rfl⟩ := Coin.eq_of_ofText h
  have hknown : Known .coreum (afterDigits text).toList ↔
      ¬ ∃ digits issuer, DashSplit text digits issuer := by
    rw [exists_dashSplit_iff hsplit]
    constructor
    · rintro hknown ⟨issuer, hissuer⟩
      rw [hissuer] at hknown
      exact not_known_dash issuer hknown
    · exact (known_afterDigits hsplit).resolve_right
  refine ⟨⟨leadingDigits text, ?_, ?_, rfl⟩, hknown, ?_⟩
  · exact (leadingDigits_append_afterDigits text).symm
  · exact leadingDigits_run hsplit
  · rw [← hknown]
    exact Coin.ofText_one_iff (head_afterDigits text)

/-- Leading zeros of the amount and digits in the subunit behind a letter do no harm. -/
theorem Coin.denom_known_leadingZeros :
    Coin.ofText .coreum "012u34-C0re" = .ok ⟨"u34-C0re", 12⟩ ∧
      Known .coreum "u34-C0re".toList ∧
      Coin.ofText .coreum ("1" ++ "u34-C0re") = .ok ⟨"u34-C0re", 1⟩ := by
  have hread : Coin.ofText .coreum "012u34-C0re" = .ok ⟨"u34-C0re", 12⟩ := rfl
  have hknown : Known .coreum "u34-C0re".toList := Denom.isKnown_iff.mp (by decide)
  obtain ⟨-, hform, hone⟩ := Coin.denom_known_iff hread
  exact ⟨hread, hknown, hone.mpr (hform.mp hknown)⟩

/-- The subunit `0` is taken for the last digit of the amount, and the rest is no denom. -/
theorem Coin.dash_left_over :
    Coin.ofText .coreum "10-abc" = .ok ⟨"-abc", 10⟩ ∧ ¬ Known .coreum "-abc".toList ∧
      Coin.ofText .coreum ("1" ++ "-abc") = .error (.invalid (.coinForm "1-abc")) :=
  ⟨rfl, not_known_dash "abc", rfl⟩

end TokenLedger
