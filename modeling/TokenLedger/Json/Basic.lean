import TokenLedger.Number.Basic

/-!
# JSON values

An object is a list of members in the order in which they are shown.  `Json.object` puts members
into that order: of two members with one name the later value takes the earlier place, and names
that are array indices come first, in ascending order.
-/

namespace TokenLedger

/-- A JSON value. -/
inductive Json
  | null
  | bool (b : Bool)
  | num (n : Number)
  | str (s : String)
  | arr (items : List Json)
  | obj (members : List (String × Json))
deriving Repr, Inhabited, BEq

namespace Json

/-! ### Members -/

/-- The value of a named member. -/
def find? (name : String) (members : List (String × Json)) : Option Json :=
  (members.find? (·.1 == name)).map (·.2)

/-- Sets a member: in its place when the name is there already, else at the end. -/
def setMember (members : List (String × Json)) (name : String) (value : Json) :
    List (String × Json) :=
  if members.any (·.1 == name) then
    members.map fun m => if m.1 == name then (name, value) else m
  else members ++ [(name, value)]

/-- The array index that a name spells: a decimal below `2 ^ 32 - 1` without superfluous zeros. -/
def indexOf? (name : String) : Option Nat :=
  let cs := name.toList
  if cs.isEmpty || !cs.all Char.isDigit then none
  else if cs.head? == some '0' && cs.length != 1 then none
  else
    let n := Nat.ofDigitChars 10 (cs.take 11) 0
    if n < 4294967295 then some n else none

/-- Inserts a member among index members, kept in ascending order. -/
def insertIndexed (index : Nat) (m : String × Json) :
    List (Nat × String × Json) → List (Nat × String × Json)
  | [] => [(index, m)]
  | x :: xs => if index < x.1 then (index, m) :: x :: xs else x :: insertIndexed index m xs

/-- Index members in ascending order, then the others in theirs. -/
def indicesFirst (members : List (String × Json)) : List (String × Json) :=
  if members.all fun m => (indexOf? m.1).isNone then members
  else
    let indexed := members.foldl (fun acc m =>
      match indexOf? m.1 with
      | some i => insertIndexed i m acc
      | none => acc) []
    indexed.map (·.2) ++ members.filter fun m => (indexOf? m.1).isNone

/-- The object with the given members, the later of two with one name winning. -/
def object (members : List (String × Json)) : Json :=
  .obj (indicesFirst (members.foldl (fun acc m => setMember acc m.1 m.2) []))

/-- The members of an object; an array has its positions as names. -/
def members? : Json → Option (List (String × Json))
  | .obj members => some members
  | .arr items => some (items.zipIdx.map fun (j, i) => (i.repr, j))
  | _ => none

end Json

end TokenLedger
