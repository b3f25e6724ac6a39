import TokenLedger.Proofs.Json.Numerals
import TokenLedger.Proofs.Text.Hex
import TokenLedger.Text.IntegerLiteral

/-!
# Numbers as integer literals

The decimal digits of a natural number are no mark, no sign and no blank, so that they are read as
the number they stand for (`read_repr`).  The hexadecimal digits of bytes are read, behind their
mark, as the number that the bytes stand for (`read_toHex`).
-/

namespace TokenLedger.IntegerLiteral

/-! ### Decimal digits -/

theorem digit?_of_isDigit {c : Char} (h : c.isDigit = true) :
    digit? 10 c = some (c.toNat - '0'.toNat) := by
  have hc : '0' ≤ c ∧ c ≤ '9' := by
    simpa [Char.isDigit, Char.le_def] using h
  have hlt : c.toNat - 48 < 10 := by
    have := UInt32.le_iff_toNat_le.mp hc.2
    change c.toNat ≤ 57 at this
    omega
  unfold digit? Bytes.hexValue?
  rw [if_pos hc]
  exact Option.filter_some_pos (by simpa using hlt)

theorem digitsOnto_eq {cs : List Char} (h : cs.all Char.isDigit = true) (n : Nat) :
    digitsOnto 10 n cs = some (Nat.ofDigitChars 10 cs n) := by
  induction cs generalizing n with
  | nil => rfl
  | cons c cs ih =>
    obtain ⟨hc, hcs⟩ := (Bool.and_eq_true ..).mp h
    rw [digitsOnto, digit?_of_isDigit hc, Nat.ofDigitChars_cons, Nat.mul_comm 10 n]
    exact ih hcs _

theorem isBlank_of_isDigit {c : Char} (h : c.isDigit = true) : Text.isBlank c = false := by
  have hc : 48 ≤ c.toNat ∧ c.toNat ≤ 57 := by
    simpa [Char.isDigit, Char.le_def, UInt32.le_iff_toNat_le] using h
  simp only [Text.isBlank, Bool.or_eq_false_iff, Bool.and_eq_false_iff, decide_eq_false_iff_not,
    beq_eq_false_iff_ne]
  omega

/-- Text without blanks has none to drop. -/
theorem trimBlank_eq_self {cs : List Char} (h : ∀ c ∈ cs, Text.isBlank c = false) :
    Text.trimBlank cs = cs := by
  have hdrop : ∀ ds : List Char, (∀ d ∈ ds, Text.isBlank d = false) →
      ds.dropWhile Text.isBlank = ds := by
    intro ds hds
    cases ds with
    | nil => rfl
    | cons d ds =>
      have hd := hds d List.mem_cons_self
      rw [List.dropWhile_cons_of_neg (by simp [hd])]
  unfold Text.trimBlank
  rw [hdrop cs h, hdrop cs.reverse (fun c hc => h c (List.mem_reverse.mp hc)),
    List.reverse_reverse]

theorem trimBlank_of_digits {cs : List Char} (h : cs.all Char.isDigit = true) :
    Text.trimBlank cs = cs :=
  trimBlank_eq_self fun c hc => isBlank_of_isDigit (List.all_eq_true.mp h c hc)

theorem readTrimmed?_toDigits (n : Nat) : readTrimmed? (Nat.toDigits 10 n) = some (n : Int) := by
  have hall := Decimal.all_isDigit_toDigits n
  have hdigits : digits? 10 (Nat.toDigits 10 n) = some n := by
    rw [digits?, if_neg (by simp [Nat.toDigits_ne_nil]), digitsOnto_eq hall,
      Nat.ofDigitChars_ten_toDigits]
  unfold readTrimmed?
  split
  · rename_i h
    exact absurd h Nat.toDigits_ne_nil
  · rename_i mark rest h
    by_cases hn : n = 0
    · simp [hn] at h
    · exact absurd (by rw [h]; rfl) (Decimal.head?_toDigits_ne_zero hn)
  · rename_i rest h
    rw [h] at hall
    cases hall
  · rename_i rest h
    rw [h] at hall
    cases hall
  · rw [hdigits]
    rfl

theorem read_repr (n : Nat) : read n.repr = .ok (n : Int) := by
  unfold read
  rw [Nat.toList_repr, trimBlank_of_digits (Decimal.all_isDigit_toDigits n),
    readTrimmed?_toDigits]

/-! ### Hexadecimal digits -/

theorem digit?_hexDigit : ∀ n < 16, digit? 16 (Bytes.hexDigit n) = some n := by decide

theorem isBlank_hexDigit : ∀ n < 16, Text.isBlank (Bytes.hexDigit n) = false := by decide

/-- Two digits of a byte count as one digit in base 256. -/
theorem digitsOnto_flatMap (b : Bytes) (n : Nat) :
    digitsOnto 16 n (b.flatMap fun x =>
      [Bytes.hexDigit (x.toNat / 16), Bytes.hexDigit (x.toNat % 16)]) =
      some (b.foldl (fun n x => n * 256 + x.toNat) n) := by
  induction b generalizing n with
  | nil => rfl
  | cons x b ih =>
    have hx := x.toNat_lt
    have hbyte : (n * 16 + x.toNat / 16) * 16 + x.toNat % 16 = n * 256 + x.toNat := by omega
    rw [List.flatMap_cons, List.cons_append, List.cons_append, List.nil_append, digitsOnto,
      digit?_hexDigit _ (by omega), Option.bind_some, digitsOnto, digit?_hexDigit _ (by omega),
      Option.bind_some, hbyte, ih, List.foldl_cons]

theorem isBlank_of_mem_toHex {b : Bytes} {c : Char} (h : c ∈ b.toHex.toList) :
    Text.isBlank c = false := by
  rw [Bytes.toHex, String.toList_ofList] at h
  obtain ⟨x, -, hc⟩ := List.mem_flatMap.mp h
  have hx := x.toNat_lt
  rcases List.mem_cons.mp hc with rfl | hlow
  · exact isBlank_hexDigit _ (by omega)
  · obtain rfl := List.mem_singleton.mp hlow
    exact isBlank_hexDigit _ (by omega)

/-- Bytes in hexadecimal are a literal of the number they stand for; without any digit there is no
literal. -/
theorem read_toHex {b : Bytes} (hb : b ≠ []) : read ("0x" ++ b.toHex) = .ok (b.toNat : Int) := by
  have hlist : ("0x" ++ b.toHex).toList = '0' :: 'x' :: b.toHex.toList := by
    rw [String.toList_append]
    rfl
  have htrim : Text.trimBlank ('0' :: 'x' :: b.toHex.toList) = '0' :: 'x' :: b.toHex.toList :=
    trimBlank_eq_self (List.forall_mem_cons.mpr ⟨by decide,
      List.forall_mem_cons.mpr ⟨by decide, fun c hc => isBlank_of_mem_toHex hc⟩⟩)
  have hne : ¬ b.toHex.toList.isEmpty = true := by
    obtain ⟨x, b, rfl⟩ := List.exists_cons_of_ne_nil hb
    rw [Bytes.toHex, String.toList_ofList, List.flatMap_cons]
    simp
  have hdigits : digits? 16 b.toHex.toList = some b.toNat := by
    rw [digits?, if_neg hne, Bytes.toHex, String.toList_ofList, digitsOnto_flatMap]
    rfl
  unfold read
  rw [hlist, htrim, readTrimmed?, if_pos (.inl rfl), hdigits]
  rfl

end TokenLedger.IntegerLiteral
