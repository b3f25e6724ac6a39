import TokenLedger.Bank
import TokenLedger.Chain.Answer
import TokenLedger.Proofs.Store.RecordMap

/-!
# Answers of the bank are read back

The bank answers with JSON; whoever asks reads the coins in it with their amounts as text.  Denoms
may be any texts and amounts any integers.
-/

namespace TokenLedger

open Bank

/-- A coin as those who ask the bank read it. -/
def Coin.wire (coin : Coin) : WireCoin := ⟨coin.denom, Decimal.ofInt coin.amount⟩

/-! ### What the bank answers -/

namespace Bank

variable {s : Store} {a d : String} {n : Int} {coins : List Coin}

theorem query_balance (h : balance s a d = .ok n) :
    query s (.balance a d) = .ok (Json.obj [("amount", coinJson ⟨d, n⟩)]).toBytes := by
  simp only [query, h, Except.ok_bind]

theorem query_allBalances (h : allBalances s a = .ok coins) :
    query s (.allBalances a) =
      .ok (Json.obj [("amount", .arr (coins.map coinJson))]).toBytes := by
  simp only [query, h, Except.ok_bind]

theorem query_supply (h : supply s d = .ok n) :
    query s (.supply d) = .ok (Json.obj [("amount", coinJson ⟨d, n⟩)]).toBytes := by
  simp only [query, h, Except.ok_bind]

/-- A coin in an answer tells its denom, and its amount as a decimal text. -/
theorem coinJson_eq (d : String) (n : Int) :
    coinJson ⟨d, n⟩ = .obj [("denom", .str d), ("amount", .str (toString n))] := by
  cases n <;> rfl

theorem map_coinJson (coins : List Coin) :
    coins.map coinJson = coins.map fun coin =>
      .obj [("denom", .str coin.denom), ("amount", .str (toString coin.amount))] :=
  List.map_congr_left fun coin _ => coinJson_eq coin.denom coin.amount

end Bank

/-! ### How answers are read -/

theorem Coin.toJson_wire (coin : Coin) : coin.wire.toJson = coinJson coin := rfl

theorem Bank.plain_coinJson (coin : Coin) : (coinJson coin).Plain := by
  refine ⟨?_, trivial, trivial, trivial⟩
  simp only [List.map_cons, List.map_nil]
  decide

theorem Json.plain_amount {j : Json} (h : j.Plain) : (Json.obj [("amount", j)]).Plain := by
  refine ⟨?_, h, trivial⟩
  simp only [List.map_cons, List.map_nil]
  decide

namespace Answer

theorem readBytes_coin (typeName : String) (held : Coin) :
    Answer.coin.readBytes typeName (Json.obj [("amount", coinJson held)]).toBytes =
      .ok held.wire := by
  have hshape : Answer.coin (Json.obj [("amount", coinJson held)]) = .valid held.wire := rfl
  exact Shape.readBytes_toBytes (Json.plain_amount (plain_coinJson held)) hshape typeName

theorem readBytes_coins (typeName : String) (held : List Coin) :
    Answer.coins.readBytes typeName (Json.obj [("amount", .arr (held.map coinJson))]).toBytes =
      .ok (held.map Coin.wire) := by
  have hplain : (Json.arr (held.map coinJson)).Plain :=
    Json.plainItems_map fun coin _ => plain_coinJson coin
  have hjson : held.map coinJson = (held.map Coin.wire).map WireCoin.toJson := by
    rw [List.map_map]
    rfl
  have hshape : Answer.coins (Json.obj [("amount", .arr (held.map coinJson))]) =
      .valid (held.map Coin.wire) := by
    show Checked.forList WireCoin.shape (held.map coinJson) = _
    rw [hjson]
    exact Checked.forList_map fun _ _ => rfl
  exact Shape.readBytes_toBytes (Json.plain_amount hplain) hshape typeName

end Answer

end TokenLedger
