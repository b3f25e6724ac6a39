import TokenLedger.Proofs.Text.IntegerLiteral
import TokenLedger.Proofs.Wire.Lawful

/-!
# Integers have one encoding

The bytes of an integer are its digits in base 256, without a zero in front, and all bytes without a
zero in front are those of the number that they stand for.  A field of integers therefore refuses
what starts with a zero, and a word what is longer than four bytes as well; whatever else it reads it
also writes (`integers_canonical`).  In a message only the value zero may have no item at all.
-/

namespace TokenLedger

open Rlp (Item)

/-! ### Bytes of a number -/

namespace Bytes

/-- Bytes that spell a number: its digits in base 256, the greatest first and no zero in front.
Their hexadecimal text, behind its mark, is a literal of the number. -/
structure Spells (b : Bytes) (n : Nat) : Prop where
  digits : b.map UInt8.toNat = (Nat.digits 256 n).reverse
  canonical : b.head? ≠ some 0
  literal : b ≠ [] → IntegerLiteral.read ("0x" ++ b.toHex) = .ok (n : Int)

theorem spells_bigEndian (n : Nat) : (bigEndian n).Spells n where
  digits := map_toNat_bigEndian n
  canonical := head?_bigEndian n
  literal hne := by rw [IntegerLiteral.read_toHex hne, toNat_bigEndian]

end Bytes

namespace Wire

variable {α : Type} {name t : String} {b : Bytes} {n : Int}

/-! ### Writing -/

theorem ofInt_eq_ok_iff :
    ofInt n = .ok (.bytes b) ↔ 0 ≤ n ∧ b = Bytes.bigEndian n.toNat := by
  constructor
  · intro h
    have hn := nonneg_of_ofInt h
    rw [ofInt_of_nonneg hn] at h
    exact ⟨hn, (Item.bytes.inj (Except.ok.inj h)).symm⟩
  · rintro ⟨hn, rfl⟩
    exact ofInt_of_nonneg hn

/-- The notation in which a natural number is handed in does not show. -/
theorem IntegerInput.toNatural_of_toInt {i : IntegerInput} (h : i.toInt = .ok n) (hn : 0 ≤ n) :
    i.toNatural = .ok n := by
  unfold toNatural
  rw [h, Except.ok_bind, if_neg (Int.not_lt.mpr hn)]

/-! ### Reading -/

namespace Field

theorem read_integer_bytes (t : String) (b : Bytes) :
    (integer name).read t (.bytes b) =
      if b.head? = some 0 then .error (fieldFault t name .nonCanonical) else .ok b.toNat := by
  show (fun k => Int.ofNat k) <$> natOf t name (.bytes b) = _
  rw [natOf_bytes]
  split_ifs with hzero <;> rfl

/-- A zero in front is what is wrong with the bytes of a word, however many they are. -/
theorem read_word_bytes (t : String) (b : Bytes) :
    (word name).read t (.bytes b) =
      if b.head? = some 0 then .error (fieldFault t name .nonCanonical)
      else if 4 < b.length then .error (fieldFault t name .tooLarge) else .ok b.toNat := by
  show (natOf t name (.bytes b) >>= fun k =>
    if 0xffffffff < k then .error (fieldFault t name .tooLarge) else .ok (Int.ofNat k)) = _
  rw [natOf_bytes]
  by_cases hzero : b.head? = some 0
  · rw [if_pos hzero, if_pos hzero]
    rfl
  · have hword : 0xffffffff < b.toNat ↔ 4 < b.length := by
      have hshort : b.toNat < 256 ^ 4 ↔ b.length ≤ 4 := Bytes.toNat_lt_iff hzero
      omega
    rw [if_neg hzero, if_neg hzero, Except.ok_bind]
    simp only [hword]
    rfl

theorem integer_accepts_iff (t : String) (b : Bytes) :
    (∃ n, (integer name).read t (.bytes b) = .ok n) ↔ b.head? ≠ some 0 := by
  rw [read_integer_bytes, Except.exists_unless_eq_ok]
  exact and_iff_left ⟨_, rfl⟩

theorem word_accepts_iff (t : String) (b : Bytes) :
    (∃ n, (word name).read t (.bytes b) = .ok n) ↔ b.head? ≠ some 0 ∧ b.length ≤ 4 := by
  rw [read_word_bytes, Except.exists_unless_eq_ok, Except.exists_unless_eq_ok, Nat.not_lt]
  exact and_congr_right fun _ => and_iff_left ⟨_, rfl⟩

/-! ### Items of a value -/

/-- What may stand in a message for a value of a field: the item that is written for it, and for the
zero value also no item. -/
def IsItemOf (f : Field α) (a : α) : Option Item → Prop
  | none => a = f.zero
  | some item => f.write a = .ok item

theorem Exact.isItemOf {f : Field α} (hf : f.Exact) {o : Option Item} {a : α}
    (h : f.readOr t o = .ok a) : f.IsItemOf a o := by
  cases o with
  | none => exact (Except.ok.inj h).symm
  | some item => exact hf t item a h

end Field

/-- The value at a place of a row is read of the item there, or of none. -/
theorem Place.readOr_get {β : Type} {f : Field β} {l : Layout α} (p : Place f l) {row : α}
    {items : List Item} (h : l.read t items = .ok row) :
    f.readOr t items[p.index]? = .ok (p.get row) := by
  induction p generalizing items with
  | here =>
    rw [Place.index, ← List.head?_eq_getElem?]
    exact (Layout.read_cons_eq_ok.mp h).1
  | there p ih =>
    rw [Place.index, ← List.getElem?_tail]
    exact ih (Layout.read_cons_eq_ok.mp h).2

/-! ### One encoding -/

/-- A field of integers with exactly one encoding for each of its numbers.  It reads the accepted
bytes and no others, as the number that they spell, and writes that number in the same bytes. -/
structure Field.OneEncoding (f : Field Int) (accepts : Bytes → Prop) : Prop where
  accepted : ∀ t b, (∃ n, f.read t (.bytes b) = .ok n) ↔ accepts b
  spelled : ∀ t b n, f.read t (.bytes b) = .ok n → 0 ≤ n ∧ b.Spells n.toNat
  rewritten : ∀ t b n, f.read t (.bytes b) = .ok n → f.write n = .ok (.bytes b)
  unique : ∀ t t' item item' n, f.read t item = .ok n → f.read t' item' = .ok n → item = item'
  inMessages : ∀ {α : Type} (l : Layout α) (p : Place f l) t items row,
    l.read t items = .ok row → f.IsItemOf (p.get row) items[p.index]?

theorem Field.Exact.oneEncoding {f : Field Int} {accepts : Bytes → Prop} (hf : f.Exact)
    (hwrite : f.write = ofInt) (haccepts : ∀ t b, (∃ n, f.read t (.bytes b) = .ok n) ↔ accepts b) :
    f.OneEncoding accepts where
  accepted := haccepts
  spelled t b n h := by
    have hitem := hf t (.bytes b) n h
    rw [hwrite] at hitem
    obtain ⟨hn, rfl⟩ := ofInt_eq_ok_iff.mp hitem
    exact ⟨hn, Bytes.spells_bigEndian n.toNat⟩
  rewritten t b n h := hf t (.bytes b) n h
  unique t t' item item' n h h' := Except.ok.inj ((hf t item n h).symm.trans (hf t' item' n h'))
  inMessages _ p _ _ _ h := hf.isItemOf (p.readOr_get h)

/-- **Integers on the wire are canonical in both directions.**  A natural number, in whichever
notation it is handed in, is written in the bytes that spell it and read of them.  Of the byte strings
without a zero in front an integer reads every one and a word those of at most four bytes, each as
the one number that it encodes. -/
theorem integers_canonical (name : String) :
    (∀ n : Nat, ∃ b : Bytes, b.Spells n ∧
      (Field.integer name).write n = .ok (.bytes b) ∧
      (∀ i : IntegerInput, i.toInt = .ok n → (i.toNatural >>= ofInt) = .ok (.bytes b)) ∧
      ∀ t, (Field.integer name).read t (.bytes b) = .ok (n : Int)) ∧
    (Field.integer name).OneEncoding (fun b => b.head? ≠ some 0) ∧
    (Field.word name).OneEncoding (fun b => b.head? ≠ some 0 ∧ b.length ≤ 4) := by
  refine ⟨fun n => ?number, ?integer, ?word⟩
  case number =>
    have hn : 0 ≤ (n : Int) := Int.natCast_nonneg n
    have hwrite : ofInt n = .ok (.bytes (Bytes.bigEndian n)) := ofInt_of_nonneg hn
    refine ⟨Bytes.bigEndian n, Bytes.spells_bigEndian n, hwrite, fun i hi => ?_, fun t => ?_⟩
    · rw [IntegerInput.toNatural_of_toInt hi hn]
      exact hwrite
    · rw [Field.read_integer_bytes, if_neg (Bytes.head?_bigEndian n), Bytes.toNat_bigEndian]
  case integer => exact Field.exact_integer.oneEncoding rfl Field.integer_accepts_iff
  case word => exact Field.exact_word.oneEncoding rfl Field.word_accepts_iff

/-- Two hundred and fifty-six as a binary64 number and as an item of a word, and the greatest word
and the number after it. -/
theorem integers_canonical_around_words :
    (∃ b : Bytes, b.Spells 256 ∧ (IntegerInput.number (.finite 256)).toInt = .ok 256 ∧
      ((IntegerInput.number (.finite 256)).toNatural >>= ofInt) = .ok (.bytes b)) ∧
    (Field.word "precision").IsItemOf 256 (some (.bytes [1, 0])) ∧
    (∃ n, (Field.word "precision").read "MsgIssue" (.bytes [255, 255, 255, 255]) = .ok n) ∧
    (¬ ∃ n, (Field.word "precision").read "MsgIssue" (.bytes [1, 0, 0, 0, 0]) = .ok n) ∧
    (∃ n, (Field.integer "precision").read "MsgIssue" (.bytes [1, 0, 0, 0, 0]) = .ok n) ∧
    ¬ ∃ n, (Field.integer "precision").read "MsgIssue" (.bytes [0, 6]) = .ok n := by
  obtain ⟨hnumber, hinteger, hword⟩ := integers_canonical "precision"
  obtain ⟨b, hspells, -, hnotation, -⟩ := hnumber 256
  have hrow : (Layout.cons (Field.word "precision") .nil).read "MsgIssue" [.bytes [1, 0]] =
      .ok (256, ()) := rfl
  refine ⟨⟨b, hspells, rfl, hnotation _ rfl⟩, hword.inMessages _ .here _ _ _ hrow,
    (hword.accepted _ _).mpr (by decide), fun h => ?_, (hinteger.accepted _ _).mpr (by decide),
    fun h => (hinteger.accepted _ _).mp h rfl⟩
  exact absurd ((hword.accepted _ _).mp h).2 (by decide)

end Wire

end TokenLedger
