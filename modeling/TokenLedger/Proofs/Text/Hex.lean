import TokenLedger.Bytes

/-!
# Hexadecimal text reads back

The digits of bytes are read two at a time as the bytes that they were written for, so that
different bytes have different texts (`toHex_injective`).
-/

namespace TokenLedger.Bytes

/-- A digit is read as the number that it was written for. -/
theorem hexValue?_hexDigit : ∀ n < 16, hexValue? (hexDigit n) = some n := by decide

theorem ofHexOnto_flatMap (acc b : Bytes) :
    ofHexOnto acc (b.flatMap fun x => [hexDigit (x.toNat / 16), hexDigit (x.toNat % 16)]) =
      some (acc.reverse ++ b) := by
  induction b generalizing acc with
  | nil => simp [ofHexOnto]
  | cons x b ih =>
    have hx := x.toNat_lt
    have hbyte : UInt8.ofNat (x.toNat / 16 * 16 + x.toNat % 16) = x := by
      rw [Nat.div_add_mod', UInt8.ofNat_toNat]
    rw [List.flatMap_cons, List.cons_append, List.cons_append, List.nil_append, ofHexOnto,
      hexValue?_hexDigit _ (by omega), hexValue?_hexDigit _ (by omega)]
    simp only [Option.bind_eq_bind, Option.bind_some]
    rw [hbyte, ih, List.reverse_cons, List.append_assoc, List.singleton_append]

theorem ofHex?_toHex (b : Bytes) : ofHex? b.toHex = some b := by
  rw [ofHex?, toHex, String.toList_ofList, ofHexOnto_flatMap]
  rfl

/-- Different bytes have different texts. -/
theorem toHex_injective {a b : Bytes} (h : a.toHex = b.toHex) : a = b := by
  have ha := ofHex?_toHex a
  rw [h, ofHex?_toHex] at ha
  exact (Option.some.inj ha).symm

theorem toHex_inj {a b : Bytes} : a.toHex = b.toHex ↔ a = b := ⟨toHex_injective, congrArg _⟩

end TokenLedger.Bytes
