import TokenLedger.Json.Printer

/-!
# What is wrong with a JSON value

An issue is one way in which a value misses the shape that is asked of it.  All issues of a value
are reported together.
-/

namespace TokenLedger

/-- One way in which a JSON value misses a shape. -/
inductive Issue
  | wrongType (expected received : String)
  | missingMember (name : String)
  /-- A text that should be decimal digits. -/
  | notDigits (received : String)
  | notInteger (received : Number)
  | belowOne (received : Number)
  | emptyText
  /-- A creation fee that is not an amount with a denom behind it. -/
  | feeForm
  | categoryCount
  | variantCount
deriving Repr

namespace Issue

/-- How a received value is named in an issue. -/
def describe : Json → String
  | .null => "null"
  | .bool b => if b then "true" else "false"
  | .num n => n.toText
  | .str s => "\"" ++ s ++ "\""
  | .arr _ => "Array"
  | .obj _ => "Object"

/-- The wording of an issue. -/
def message : Issue → String
  | .wrongType expected received =>
    "Invalid type: Expected " ++ expected ++ " but received " ++ received
  | .missingMember name => "Invalid key: Expected \"" ++ name ++ "\" but received undefined"
  | .notDigits received =>
    "Invalid format: Expected /^[0-9]+$/ but received \"" ++ received ++ "\""
  | .notInteger received => "Invalid integer: Received " ++ received.toText
  | .belowOne received => "Invalid value: Expected >=1 but received " ++ received.toText
  | .emptyText => "Invalid length: Expected >=1 but received 0"
  | .feeForm => "fee must be <amount><denom>"
  | .categoryCount => "expected exactly one query category"
  | .variantCount => "expected exactly one query variant"

/-- The wording of several issues. -/
def messages (issues : List Issue) : String := "; ".intercalate (issues.map message)

end Issue

end TokenLedger
