/-!
# Length in UTF-16 units

Length limits count UTF-16 units: one for a character of the basic plane, two for any other.  A text
that is quoted where room is limited is cut by the same count.
-/

namespace TokenLedger.Text

/-- The UTF-16 units of a character. -/
def charUnits (c : Char) : Nat := if c.toNat < 0x10000 then 1 else 2

/-- The length of characters in UTF-16 units. -/
def unitCount (cs : List Char) : Nat := cs.foldl (fun n c => n + charUnits c) 0

/-- The length of a string in UTF-16 units. -/
def units (s : String) : Nat := unitCount s.toList

@[simp] theorem units_empty : units "" = 0 := rfl

/-- The characters at the front that fit into `n` units. -/
def takeUnits (n : Nat) : List Char → List Char
  | [] => []
  | c :: rest => if charUnits c ≤ n then c :: takeUnits (n - charUnits c) rest else []

/-- The characters behind those that fit into `n` units. -/
def dropUnits (n : Nat) (cs : List Char) : List Char := cs.drop (takeUnits n cs).length

/-- A text of at most `limit` units as it is, and of a longer one its front and an ellipsis. -/
def shortened (limit : Nat) (s : String) : String :=
  if units s ≤ limit then s else String.ofList (takeUnits limit s.toList) ++ "…"

end TokenLedger.Text
