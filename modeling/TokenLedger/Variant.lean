/-!
# Chain variants

A token factory has the flavour of one of two chains.
-/

namespace TokenLedger

/-- The flavour of a token factory. -/
inductive Variant
  | generic
  | coreum
deriving DecidableEq, Repr, Inhabited

/-- The name of a variant. -/
def Variant.name : Variant → String
  | .generic => "generic"
  | .coreum => "coreum"

/-- The variant of a name. -/
def Variant.ofName? (s : String) : Option Variant :=
  if s = "generic" then some .generic else if s = "coreum" then some .coreum else none

end TokenLedger
