import TokenLedger.Json.Issue
import TokenLedger.Text.Decimal

/-!
# Shapes of JSON values

A shape reads a JSON value as a value of some type or lists everything that is wrong with it.
Objects may have members that the shape does not name, and an array passes for the object whose
names are its positions.
-/

namespace TokenLedger

/-! ### Checked values -/

/-- A value, or the issues that stand in its way. -/
inductive Checked (α : Type)
  | valid (value : α)
  | invalid (issues : List Issue)
deriving Repr

namespace Checked

variable {α β : Type}

/-- Applies a function to a valid value. -/
def map (f : α → β) : Checked α → Checked β
  | .valid a => .valid (f a)
  | .invalid issues => .invalid issues

/-- Applies a checked function to a checked value and keeps the issues of both. -/
def seq (f : Checked (α → β)) (x : Checked α) : Checked β :=
  match f, x with
  | .valid f, .valid a => .valid (f a)
  | .valid _, .invalid issues => .invalid issues
  | .invalid issues, .valid _ => .invalid issues
  | .invalid first, .invalid second => .invalid (first ++ second)

instance : Applicative Checked where
  pure := .valid
  map := map
  seq f x := seq f (x ())

/-- Goes on with a valid value only. -/
def andThen (x : Checked α) (f : α → Checked β) : Checked β :=
  match x with
  | .valid a => f a
  | .invalid issues => .invalid issues

/-- Adds the issues of every failed test to a valid value. -/
def ensure (x : Checked α) (tests : α → List (Bool × Issue)) : Checked α :=
  x.andThen fun a =>
    let issues := (tests a).filterMap fun (ok, issue) => if ok then none else some issue
    if issues.isEmpty then .valid a else .invalid issues

/-- Checks every item of a list and keeps the issues of all. -/
def forList (f : α → Checked β) : List α → Checked (List β)
  | [] => .valid []
  | a :: as => List.cons <$> f a <*> forList f as

@[simp] theorem map_valid (f : α → β) (a : α) : f <$> (.valid a : Checked α) = .valid (f a) := rfl

@[simp] theorem seq_valid (f : α → β) (a : α) :
    (.valid f : Checked (α → β)) <*> (.valid a : Checked α) = .valid (f a) := rfl

@[simp] theorem pure_eq (a : α) : (pure a : Checked α) = .valid a := rfl

end Checked

/-! ### Shapes -/

/-- A way to read a JSON value. -/
abbrev Shape (α : Type) := Json → Checked α

namespace Shape

variable {α : Type}

/-- The issue of a value of another type. -/
def refuse (expected : String) (j : Json) : Checked α :=
  .invalid [.wrongType expected (Issue.describe j)]

/-- Any value. -/
def any : Shape Json := .valid

/-- A string. -/
def text : Shape String
  | .str s => .valid s
  | j => refuse "string" j

/-- A number. -/
def number : Shape Number
  | .num n => .valid n
  | j => refuse "number" j

/-- A boolean. -/
def boolean : Shape Bool
  | .bool b => .valid b
  | j => refuse "boolean" j

/-- One of some values; `choose` picks among them and `options` names them. -/
def oneOf (options : List String) (choose : Json → Option α) : Shape α := fun j =>
  match choose j with
  | some a => .valid a
  | none => refuse ("(" ++ " | ".intercalate options ++ ")") j

/-- A string of decimal digits, read as a number. -/
def digits : Shape Nat := fun j =>
  (text j).andThen fun s =>
    match Decimal.read? s with
    | some n => .valid n
    | none => .invalid [.notDigits s]

/-- `null` or a value of a shape. -/
def nullable (shape : Shape α) : Shape (Option α)
  | .null => .valid none
  | j => some <$> shape j

/-- An array of values of one shape. -/
def array (shape : Shape α) : Shape (List α)
  | .arr items => Checked.forList shape items
  | j => refuse "Array" j

/-- An object, read from its members. -/
def object (read : List (String × Json) → Checked α) : Shape α := fun j =>
  match j.members? with
  | some members => read members
  | none => refuse "Object" j

/-- A member that has to be there. -/
def member (name : String) (shape : Shape α) (members : List (String × Json)) : Checked α :=
  match Json.find? name members with
  | some j => shape j
  | none => .invalid [.missingMember name]

/-- A member that may be missing or `null`. -/
def optionalMember (name : String) (shape : Shape α) (members : List (String × Json)) :
    Checked (Option α) :=
  match Json.find? name members with
  | some j => nullable shape j
  | none => .valid none

/-- Names that a record never has. -/
def reserved : List String := ["__proto__", "prototype", "constructor"]

/-- An object of any names with values of one shape; reserved names are passed over. -/
def record (shape : Shape α) : Shape (List (String × α)) :=
  object fun members =>
    Checked.forList (fun (name, j) => (name, ·) <$> shape j)
      (members.filter fun m => !reserved.contains m.1)

end Shape

end TokenLedger
