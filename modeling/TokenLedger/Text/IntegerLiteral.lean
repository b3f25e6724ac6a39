import TokenLedger.Fault
import TokenLedger.Text.Blank

/-!
# Integer literals

An integer as some host may spell it: blanks around it do not count, no digits at all are zero, a
decimal may have a sign, and a hexadecimal, octal or binary numeral has a mark in front and no sign.
-/

namespace TokenLedger.IntegerLiteral

/-- The value of a digit below `base`. -/
def digit? (base : Nat) (c : Char) : Option Nat :=
  (Bytes.hexValue? c).filter (· < base)

/-- Reads digits of a base behind a number already read. -/
def digitsOnto (base : Nat) (n : Nat) : List Char → Option Nat
  | [] => some n
  | c :: rest => (digit? base c).bind fun d => digitsOnto base (n * base + d) rest

/-- Reads one or more digits of a base. -/
def digits? (base : Nat) (cs : List Char) : Option Nat :=
  if cs.isEmpty then none else digitsOnto base 0 cs

/-- Reads a literal without blanks around it. -/
def readTrimmed? : List Char → Option Int
  | [] => some 0
  | '0' :: mark :: rest =>
    if mark = 'x' ∨ mark = 'X' then Int.ofNat <$> digits? 16 rest
    else if mark = 'o' ∨ mark = 'O' then Int.ofNat <$> digits? 8 rest
    else if mark = 'b' ∨ mark = 'B' then Int.ofNat <$> digits? 2 rest
    else Int.ofNat <$> digits? 10 ('0' :: mark :: rest)
  | '-' :: rest => (fun n => -Int.ofNat n) <$> digits? 10 rest
  | '+' :: rest => Int.ofNat <$> digits? 10 rest
  | cs => Int.ofNat <$> digits? 10 cs

/-- Reads a literal. -/
def read (s : String) : Except BadText Int :=
  match readTrimmed? (Text.trimBlank s.toList) with
  | some n => .ok n
  | none => .error (.integer s)

end TokenLedger.IntegerLiteral
