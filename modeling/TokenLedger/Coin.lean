import TokenLedger.Fault
import TokenLedger.Variant

/-!
# Coins

A coin is an amount of a denom.  Coin texts such as `10000000ucore` write the amount in front of the
denom; which denoms they may have depends on the variant.
-/

namespace TokenLedger

/-- An amount of a denom. -/
structure Coin where
  denom : String
  amount : Int
deriving DecidableEq, Repr, Inhabited

/-- The greatest amount that fits in 128 bits. -/
def maxAmount : Nat := Nat.pow 2 128 - 1

/-- Reads the decimal amount of a wire coin; `what` names it in faults. -/
def readAmount (text what : String) : Except Fault Nat :=
  match Decimal.read? text with
  | none => .error (.invalid (.amountForm what text))
  | some n => if maxAmount < n then .error (.invalid (.amountTooLarge what text)) else .ok n

/-! ### Characters of denoms -/

/-- A lower-case ASCII letter. -/
def isLowerLetter (c : Char) : Bool := 'a' ≤ c && c ≤ 'z'

/-- An upper-case ASCII letter. -/
def isUpperLetter (c : Char) : Bool := 'A' ≤ c && c ≤ 'Z'

/-- A lower-case ASCII letter or a digit. -/
def isLowerAlphanumeric (c : Char) : Bool := isLowerLetter c || c.isDigit

/-- An ASCII letter or a digit. -/
def isAlphanumeric (c : Char) : Bool := isLowerAlphanumeric c || isUpperLetter c

/-- An upper-case hexadecimal digit. -/
def isUpperHex (c : Char) : Bool := c.isDigit || ('A' ≤ c && c ≤ 'F')

/-- Whether a text is one or more characters of a class. -/
def isRun (p : Char → Bool) (cs : List Char) : Bool := !cs.isEmpty && cs.all p

/-! ### Forms of denoms -/

namespace Denom

/-- `[a-z]+` -/
def isPlain (cs : List Char) : Bool := isRun isLowerLetter cs

/-- `ibc/` or `IBC/` and 64 upper-case hexadecimal digits. -/
def isIbc (cs : List Char) : Bool :=
  let (mark, hash) := cs.splitAt 4
  (mark == "ibc/".toList || mark == "IBC/".toList) && hash.length == 64 && hash.all isUpperHex

/-- `factory/`, a creator of lower-case letters and digits, a slash and a name of letters and
digits. -/
def isFactory (cs : List Char) : Bool :=
  let (mark, rest) := cs.splitAt 8
  let creator := rest.takeWhile (· != '/')
  match rest.dropWhile (· != '/') with
  | '/' :: name =>
    mark == "factory/".toList && isRun isLowerAlphanumeric creator && isRun isAlphanumeric name
  | _ => false

/-- The forms that every variant knows. -/
def isCommon (cs : List Char) : Bool := isPlain cs || isIbc cs || isFactory cs

/-- `[a-z0-9]+-[A-Za-z0-9]+`, a subunit and its issuer. -/
def isIssued (cs : List Char) : Bool :=
  match cs.dropWhile (· != '-') with
  | '-' :: issuer =>
    isRun isLowerAlphanumeric (cs.takeWhile (· != '-')) && isRun isAlphanumeric issuer
  | _ => false

end Denom

/-! ### Coin texts -/

/-- Whether a text is an amount with an issued denom behind it; the denom may start with digits, so
that only one digit has to be left for the amount. -/
def isIssuedCoin : List Char → Bool
  | c :: rest => c.isDigit && Denom.isIssued rest
  | [] => false

/-- Whether a text is an amount with a denom that the variant knows. -/
def isCoinText (variant : Variant) (cs : List Char) : Bool :=
  let digits := cs.takeWhile Char.isDigit
  let denom := cs.dropWhile Char.isDigit
  (!digits.isEmpty && Denom.isCommon denom) || (variant == .coreum && isIssuedCoin cs)

/-- Reads a coin text.  The amount is the whole run of digits in front. -/
def Coin.ofText (variant : Variant) (s : String) : Except Fault Coin :=
  let cs := s.toList
  if isCoinText variant cs then
    let digits := cs.takeWhile Char.isDigit
    let amount := Decimal.value digits
    if maxAmount < amount then
      .error (.invalid (.coinTooLarge (String.ofList digits) s))
    else .ok ⟨String.ofList (cs.dropWhile Char.isDigit), amount⟩
  else .error (.invalid (.coinForm s))

end TokenLedger
