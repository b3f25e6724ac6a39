import TokenLedger.Fault
import TokenLedger.Text.Blank
import TokenLedger.Text.Lowercase

/-!
# Addresses

An address is any text that is not empty, has no blanks and is in lower case already.
-/

namespace TokenLedger.Address

/-- Accepts an address as it is. -/
def validate (s : String) : Except Fault String :=
  if s = "" then .error (.invalid .emptyAddress)
  else if s ≠ Text.lowercase s ∨ s.toList.any Text.isBlank then
    .error (.invalid (.addressNotNormal s))
  else .ok s

/-- The address of a label. -/
def make (label : String) : Except Fault String := validate ("addr_" ++ Text.lowercase label)

end TokenLedger.Address
