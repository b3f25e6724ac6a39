import TokenLedger.Proofs.Coin

/-!
# Forms of denoms

The forms of denoms as texts put together from their parts.  The tests of `Denom` take a text apart
at its first mark and accept exactly the texts of these forms (`isCommon_iff`, `isKnown_iff`).
-/

namespace TokenLedger.Denom

variable {variant : Variant} {p : Char → Bool} {cs front rest : List Char} {c x : Char}

/-- One or more characters of a class. -/
def Run (p : Char → Bool) (cs : List Char) : Prop := cs ≠ [] ∧ ∀ c ∈ cs, p c = true

/-- The forms that every variant knows: `[a-z]+`, `(ibc|IBC)/[0-9A-F]{64}` and
`factory/[0-9a-z]+/[0-9a-zA-Z]+`. -/
inductive Common : List Char → Prop
  | plain {letters : List Char} (hletters : Run isLowerLetter letters) : Common letters
  | ibc {mark hash : List Char} (hmark : mark = "ibc/".toList ∨ mark = "IBC/".toList)
      (hlength : hash.length = 64) (hhash : ∀ c ∈ hash, isUpperHex c = true) :
      Common (mark ++ hash)
  | factory {creator name : List Char} (hcreator : Run isLowerAlphanumeric creator)
      (hname : Run isAlphanumeric name) : Common ("factory/".toList ++ (creator ++ '/' :: name))

/-- The forms that a variant knows; for coreum these include `[a-z0-9]+-[A-Za-z0-9]+`. -/
inductive Known : Variant → List Char → Prop
  | common {variant : Variant} {cs : List Char} (h : Common cs) : Known variant cs
  | issued {subunit issuer : List Char} (hsubunit : Run isLowerAlphanumeric subunit)
      (hissuer : Run isAlphanumeric issuer) : Known .coreum (subunit ++ '-' :: issuer)

/-! ### Runs -/

theorem isRun_iff : isRun p cs = true ↔ Run p cs := by
  rw [isRun, Bool.and_eq_true, List.all_eq_true, Bool.not_eq_true', List.isEmpty_eq_false_iff]
  rfl

theorem Run.append_left {front : List Char} (hfront : ∀ c ∈ front, p c = true) (h : Run p cs) :
    Run p (front ++ cs) := by
  refine ⟨fun hnil => h.1 (List.append_eq_nil_iff.mp hnil).2, fun c hc => ?_⟩
  rcases List.mem_append.mp hc with hc | hc
  · exact hfront c hc
  · exact h.2 c hc

/-- A character that is not of the class does not occur in a run of it. -/
theorem Run.forall_ne (h : Run p cs) (hx : p x = false) : ∀ c ∈ cs, (c != x) = true := by
  intro c hc
  rw [bne_iff_ne]
  rintro rfl
  rw [h.2 c hc] at hx
  cases hx

/-! ### The first mark of a text -/

theorem span_mark (rest : List Char) (h : ∀ c ∈ front, (c != x) = true) :
    (front ++ x :: rest).takeWhile (· != x) = front ∧
      (front ++ x :: rest).dropWhile (· != x) = x :: rest :=
  span_stop h (by simp)

theorem eq_of_dropWhile (h : cs.dropWhile (· != x) = x :: rest) :
    cs = cs.takeWhile (· != x) ++ x :: rest := by
  rw [← h, List.takeWhile_append_dropWhile]

/-! ### The tests accept the forms -/

theorem isIbc_iff : isIbc cs = true ↔ ∃ mark hash, cs = mark ++ hash ∧
    (mark = "ibc/".toList ∨ mark = "IBC/".toList) ∧ hash.length = 64 ∧
      ∀ c ∈ hash, isUpperHex c = true := by
  simp only [isIbc, List.splitAt_eq, Bool.and_eq_true, Bool.or_eq_true, beq_iff_eq,
    List.all_eq_true, and_assoc]
  constructor
  · intro h
    exact ⟨cs.take 4, cs.drop 4, (List.take_append_drop 4 cs).symm, h⟩
  · rintro ⟨mark, hash, rfl, hmark, hhash⟩
    have hfour : mark.length = 4 := by rcases hmark with rfl | rfl <;> rfl
    rw [List.take_left' hfour, List.drop_left' hfour]
    exact ⟨hmark, hhash⟩

theorem isFactory_iff : isFactory cs = true ↔ ∃ creator name,
    cs = "factory/".toList ++ (creator ++ '/' :: name) ∧ Run isLowerAlphanumeric creator ∧
      Run isAlphanumeric name := by
  unfold isFactory
  simp only [List.splitAt_eq]
  constructor
  · intro h
    split at h
    · rename_i name hname
      simp only [Bool.and_eq_true, beq_iff_eq, isRun_iff] at h
      obtain ⟨⟨hmark, hcreator⟩, hrun⟩ := h
      refine ⟨_, name, ?_, hcreator, hrun⟩
      rw [← eq_of_dropWhile hname, ← hmark, List.take_append_drop]
    · cases h
  · rintro ⟨creator, name, rfl, hcreator, hname⟩
    have height : "factory/".toList.length = 8 := rfl
    have hslash : ∀ c ∈ creator, (c != '/') = true := hcreator.forall_ne (by decide)
    obtain ⟨htake, hdrop⟩ := span_mark name hslash
    rw [List.take_left' height, List.drop_left' height, htake, hdrop]
    simp only [Bool.and_eq_true, beq_iff_eq, isRun_iff]
    exact ⟨⟨trivial, hcreator⟩, hname⟩

theorem isIssued_iff : isIssued cs = true ↔ ∃ subunit issuer, cs = subunit ++ '-' :: issuer ∧
    Run isLowerAlphanumeric subunit ∧ Run isAlphanumeric issuer := by
  unfold isIssued
  constructor
  · intro h
    split at h
    · rename_i issuer hissuer
      simp only [Bool.and_eq_true, isRun_iff] at h
      exact ⟨_, issuer, eq_of_dropWhile hissuer, h⟩
    · cases h
  · rintro ⟨subunit, issuer, rfl, hsubunit, hissuer⟩
    have hdash : ∀ c ∈ subunit, (c != '-') = true := hsubunit.forall_ne (by decide)
    obtain ⟨htake, hdrop⟩ := span_mark issuer hdash
    rw [htake, hdrop]
    simp only [Bool.and_eq_true, isRun_iff]
    exact ⟨hsubunit, hissuer⟩

theorem isCommon_iff : isCommon cs = true ↔ Common cs := by
  rw [isCommon, Bool.or_eq_true, Bool.or_eq_true, isPlain, isRun_iff, isIbc_iff, isFactory_iff]
  constructor
  · rintro ((hplain | hibc) | hfactory)
    · exact .plain hplain
    · obtain ⟨mark, hash, rfl, hmark, hlength, hhash⟩ := hibc
      exact .ibc hmark hlength hhash
    · obtain ⟨creator, name, rfl, hcreator, hname⟩ := hfactory
      exact .factory hcreator hname
  · rintro (hplain | ⟨hmark, hlength, hhash⟩ | ⟨hcreator, hname⟩)
    · exact .inl (.inl hplain)
    · exact .inl (.inr ⟨_, _, rfl, hmark, hlength, hhash⟩)
    · exact .inr ⟨_, _, rfl, hcreator, hname⟩

theorem isKnown_iff : isKnown variant cs = true ↔ Known variant cs := by
  rw [isKnown, Bool.or_eq_true, Bool.and_eq_true, isCommon_iff, isIssued_iff, beq_iff_eq]
  constructor
  · rintro (hcommon | ⟨rfl, subunit, issuer, rfl, hsubunit, hissuer⟩)
    · exact .common hcommon
    · exact .issued hsubunit hissuer
  · rintro (hcommon | ⟨hsubunit, hissuer⟩)
    · exact .inl hcommon
    · exact .inr ⟨rfl, _, _, rfl, hsubunit, hissuer⟩

/-- The generic variant knows the common forms only. -/
theorem known_generic_iff : Known .generic cs ↔ Common cs := by
  constructor
  · rintro ⟨h⟩
    exact h
  · exact .common

/-! ### How denoms start -/

theorem Common.head (h : Common cs) : ∃ c tail, cs = c :: tail ∧ c.isDigit = false :=
  head_of_isCommon (isCommon_iff.mpr h)

/-- No denom starts with a dash. -/
theorem Known.head_ne_dash (h : Known variant ('-' :: cs)) : False := by
  generalize hcs : '-' :: cs = text at h
  cases h with
  | common h =>
    cases h with
    | plain hletters =>
      subst hcs
      exact absurd (hletters.2 '-' List.mem_cons_self) (by decide)
    | ibc hmark _ _ =>
      rcases hmark with rfl | rfl
      · exact absurd (List.cons.inj hcs).1 (by decide)
      · exact absurd (List.cons.inj hcs).1 (by decide)
    | factory _ _ => exact absurd (List.cons.inj hcs).1 (by decide)
  | issued hsubunit _ =>
    obtain ⟨c, subunit, rfl⟩ := List.exists_cons_of_ne_nil hsubunit.1
    obtain rfl := (List.cons.inj hcs).1
    exact absurd (hsubunit.2 '-' List.mem_cons_self) (by decide)

end TokenLedger.Denom
