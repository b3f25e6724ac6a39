import TokenLedger.Bytes
import TokenLedger.Number.Basic

/-!
# Responses and blocks
-/

namespace TokenLedger

/-- Something that happened, with attributes in order. -/
structure Event where
  type : String
  attributes : List (String × String)
deriving DecidableEq, Repr

/-- What a message comes to; a module may return no data at all. -/
structure Response where
  events : List Event
  data : Option Bytes
deriving DecidableEq, Repr

/-- No events and no data. -/
def Response.empty : Response := ⟨[], none⟩

/-- The block that messages run in. -/
structure Block where
  height : Number
  /-- Nanoseconds since the epoch. -/
  time : Int
  chainId : String
deriving DecidableEq, Repr

namespace Block

/-- The block that a chain starts with. -/
def standard : Block :=
  { height := Number.ofNat 12345
    time := 1571797419879305533
    chainId := "sim-testing" }

/-- How far blocks are apart, in nanoseconds. -/
def interval : Int := 5000000000

/-- The next block: one higher and five seconds later. -/
def next (b : Block) : Block :=
  { b with height := b.height.addNat 1, time := b.time + interval }

end Block

end TokenLedger
