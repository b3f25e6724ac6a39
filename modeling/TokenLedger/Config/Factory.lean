import TokenLedger.Json.Shape
import TokenLedger.Fault
import TokenLedger.Text.Blank
import TokenLedger.Variant

/-!
# Configuration of a token factory

Each variant has a configuration of its own; overrides replace some of its members, and the result
has to pass the checks before a factory is built with it.
-/

namespace TokenLedger

/-- How a token factory is set up. -/
structure FactoryConfig where
  /-- The first part of generic denoms. -/
  denomPrefix : String
  /-- The longest subdenom or subunit, in UTF-16 units. -/
  maxSubdenomLength : Nat
  /-- The longest creator or issuer, in UTF-16 units. -/
  maxCreatorLength : Nat
  /-- The coin that a new denom costs. -/
  creationFee : String
  /-- The denom that counts as the native token. -/
  feeDenom : String
deriving DecidableEq, Repr

namespace FactoryConfig

/-- What a variant has without overrides. -/
def standard : Variant → FactoryConfig
  | .generic =>
    { denomPrefix := "factory"
      maxSubdenomLength := 32
      maxCreatorLength := 75
      creationFee := "10000000uosmo"
      feeDenom := "uosmo" }
  | .coreum =>
    { denomPrefix := ""
      maxSubdenomLength := 32
      maxCreatorLength := 75
      creationFee := "10000000ucore"
      feeDenom := "ucore" }

/-- The members of a configuration. -/
def members (c : FactoryConfig) : List (String × Json) :=
  [("moduleDenomPrefix", .str c.denomPrefix),
    ("maxSubdenomLen", .num (Number.ofNat c.maxSubdenomLength)),
    ("maxCreatorLen", .num (Number.ofNat c.maxCreatorLength)),
    ("denomCreationFee", .str c.creationFee),
    ("feeDenom", .str c.feeDenom)]

/-! ### Checks -/

/-- Whether a text has digits in front, something behind the first of them and no blanks. -/
def isFeeForm (s : String) : Bool :=
  match s.toList with
  | c :: rest => c.isDigit && !rest.isEmpty && rest.all fun d => !Text.isBlank d
  | [] => false

/-- A positive integer. -/
def lengthLimit : Shape Nat := fun j =>
  ((Shape.number j).ensure fun n =>
    [(n.isInteger, .notInteger n), (!n.ltInt 1, .belowOne n)]).map fun n =>
      (n.toInt?.getD 0).toNat

/-- A creation fee. -/
def fee : Shape String := fun j => (Shape.text j).ensure fun s => [(isFeeForm s, .feeForm)]

/-- A text that is not empty. -/
def someText : Shape String := fun j => (Shape.text j).ensure fun s => [(s != "", .emptyText)]

/-- The shape of a configuration. -/
def shape : Shape FactoryConfig :=
  Shape.object fun members =>
    FactoryConfig.mk
      <$> Shape.member "moduleDenomPrefix" .text members
      <*> Shape.member "maxSubdenomLen" lengthLimit members
      <*> Shape.member "maxCreatorLen" lengthLimit members
      <*> Shape.member "denomCreationFee" fee members
      <*> Shape.member "feeDenom" someText members

/-- The configuration of a variant with overrides. -/
def resolve (variant : Variant) (overrides : List (String × Json)) :
    Except Fault FactoryConfig :=
  let merged := overrides.foldl (fun acc m => Json.setMember acc m.1 m.2)
    (standard variant).members
  match shape (.obj merged) with
  | .valid config => .ok config
  | .invalid issues => .error (.invalid (.config variant.name issues))

end FactoryConfig

end TokenLedger
