/-!
# Decimal text

Natural numbers as runs of decimal digits.  Reading ignores leading zeros; printing writes none.
-/

namespace TokenLedger.Decimal

/-- The number that a run of decimal digits stands for. -/
def value (digits : List Char) : Nat := Nat.ofDigitChars 10 digits 0

/-- Whether a text is one or more decimal digits and nothing else. -/
def isDigits (cs : List Char) : Bool := !cs.isEmpty && cs.all Char.isDigit

/-- Reads one or more decimal digits. -/
def read? (s : String) : Option Nat :=
  if isDigits s.toList then some (value s.toList) else none

/-- The decimal digits of an integer, after a minus sign when it is negative. -/
def ofInt : Int → String
  | .ofNat n => n.repr
  | .negSucc n => "-" ++ (n + 1).repr

@[simp] theorem ofInt_natCast (n : Nat) : ofInt n = n.repr := rfl

theorem all_isDigit_toDigits (n : Nat) : (Nat.toDigits 10 n).all Char.isDigit = true :=
  List.all_eq_true.mpr fun _ h => Nat.isDigit_of_mem_toDigits (by decide) (by decide) h

/-- What is printed for a number reads back as that number. -/
theorem read?_repr (n : Nat) : read? n.repr = some n := by
  have h : isDigits (Nat.toDigits 10 n) = true := by
    simp [isDigits, all_isDigit_toDigits, Nat.toDigits_ne_nil]
  simp [read?, Nat.repr_eq_ofList_toDigits, h, value]

end TokenLedger.Decimal
