import TokenLedger.Proofs.Bank.Views
import TokenLedger.Proofs.Chain.Books
import TokenLedger.Proofs.Chain.Queries

/-!
# The bridge reports the bank

A bridged bank query goes to the bank as a native query; the native answer is read and written anew.
Since every coin of a native answer is read back (`Answer.readBytes_coin`), nothing is lost on the
way: the bridge tells the balances, the coins and the supplies that the bank tells, whatever the
denoms and however large the amounts, and whatever module stands behind the bridge.
-/

namespace TokenLedger

open Bank

namespace Bridge

/-- A bridged bank query comes to the native answer, written anew. -/
theorem answer_bank {c : Chain} {s : Store} {path : String} {request : Request} {q : BankQuery}
    {raw : Bytes} (hnative : request.native = .bank q) (hraw : Bank.query s q = .ok raw) :
    (answer (c.querier s) path request).result = Json.toBytes <$> request.render raw := by
  have hquerier : c.querier s request.native = .ok (.bytes raw) := by
    rw [hnative]
    simp only [Chain.querier, Chain.missingContract?, Chain.queryNative, hraw]
  rw [result_answer, hquerier]
  rfl

/-! ### The three bank queries -/

theorem render_balance (address denom : String) (coin : Coin) :
    Request.render (Json.obj [("amount", coinJson coin)]).toBytes (.balance address denom) =
      .ok (.obj [("balance", coinJson coin)]) := by
  simp only [Request.render, Answer.readBytes_coin, Except.ok_bind, Coin.toJson_wire]

theorem render_supplyOf (denom : String) (coin : Coin) :
    Request.render (Json.obj [("amount", coinJson coin)]).toBytes (.supplyOf denom) =
      .ok (.obj [("amount", coinJson coin)]) := by
  simp only [Request.render, Answer.readBytes_coin, Except.ok_bind, Coin.toJson_wire]

theorem render_allBalances (address : String) (coins : List Coin) :
    Request.render (Json.obj [("amount", .arr (coins.map coinJson))]).toBytes
        (.allBalances address) =
      .ok (.obj [("balances", .arr (coins.map coinJson)), ("pagination", .null)]) := by
  have hjson : (coins.map Coin.wire).map WireCoin.toJson = coins.map coinJson := by
    rw [List.map_map]
    rfl
  simp only [Request.render, Answer.readBytes_coins, Except.ok_bind, hjson]

end Bridge

namespace Chain

variable {c : Chain} {s : Store} {a d : String} {n : Int} {coins : List Coin} {steps : List Step}

/-- A bridge answers bytes that are read as a request as the request is rendered. -/
theorem query_bank (hbridge : c.stargate.IsBridge) {path : String} {data raw : Bytes}
    {request : Bridge.Request} {q : BankQuery} {json : Json}
    (hpath : Bridge.Request.ofWire? path data = some (.ok request))
    (hnative : request.native = .bank q) (hraw : Bank.query s q = .ok raw)
    (hrender : request.render raw = .ok json) :
    (c.query s (.stargate path data)).result = .ok json.toBytes := by
  show (c.stargate.query (c.querier s) c.block s path data).result = _
  rw [StargateModule.query_bridged hbridge hpath, Bridge.answer_bank hnative hraw, hrender]
  rfl

/-- The bridge tells a balance as the bank does. -/
theorem answers_balance (hbridge : c.stargate.IsBridge) (hbalance : balance s a d = .ok n) :
    c.Answers s .balance BalanceRequest.path ⟨a, d⟩
      (.ok (Json.obj [("balance", .obj [("denom", .str d),
        ("amount", .str (toString n))])]).toBytes) := by
  rw [← coinJson_eq d n]
  refine answers_of_decode (fun _ _ => trivial) fun data hdata => ?_
  have hpath : Bridge.Request.ofWire? BalanceRequest.path data = some (.ok (.balance a d)) := by
    show some ((fun r => Bridge.Request.balance r.address r.denom) <$>
      BalanceRequest.codec.decode data) = _
    rw [show BalanceRequest.codec.decode data = .ok ⟨a, d⟩ from hdata]
    rfl
  exact query_bank hbridge hpath rfl (query_balance hbalance) (Bridge.render_balance a d ⟨d, n⟩)

/-- The bridge tells the coins of an account as the bank does, on one page. -/
theorem answers_allBalances (hbridge : c.stargate.IsBridge) (page : Option PageRequest)
    (hcoins : allBalances s a = .ok coins) :
    c.Answers s .allBalances AllBalancesRequest.path ⟨a, page⟩
      (.ok (Json.obj [("balances", .arr (coins.map fun coin => .obj [("denom", .str coin.denom),
        ("amount", .str (toString coin.amount))])), ("pagination", .null)]).toBytes) := by
  rw [← map_coinJson coins]
  refine answers_of_decode (fun data hdata => ?_) fun data hdata => ?_
  · obtain ⟨items, -, hitems⟩ := Wire.Codec.encode_eq_ok hdata
    exact MessageType.inRange_of_write hitems trivial
  · have hpath : Bridge.Request.ofWire? AllBalancesRequest.path data =
        some (.ok (.allBalances a)) := by
      show some ((fun r => Bridge.Request.allBalances r.address) <$>
        AllBalancesRequest.codec.decode data) = _
      rw [show AllBalancesRequest.codec.decode data = .ok ⟨a, page⟩ from hdata]
      rfl
    exact query_bank hbridge hpath rfl (query_allBalances hcoins) (Bridge.render_allBalances a coins)

/-- The bridge tells a supply as the bank does. -/
theorem answers_supplyOf (hbridge : c.stargate.IsBridge) (hsupply : supply s d = .ok n) :
    c.Answers s .supplyOf SupplyOfRequest.path ⟨d⟩
      (.ok (Json.obj [("amount", .obj [("denom", .str d),
        ("amount", .str (toString n))])]).toBytes) := by
  rw [← coinJson_eq d n]
  refine answers_of_decode (fun _ _ => trivial) fun data hdata => ?_
  have hpath : Bridge.Request.ofWire? SupplyOfRequest.path data = some (.ok (.supplyOf d)) := by
    show some ((fun r => Bridge.Request.supplyOf r.denom) <$>
      SupplyOfRequest.codec.decode data) = _
    rw [show SupplyOfRequest.codec.decode data = .ok ⟨d⟩ from hdata]
    rfl
  exact query_bank hbridge hpath rfl (query_supply hsupply) (Bridge.render_supplyOf d ⟨d, n⟩)

/-- **The bridge reports exactly the bank.**  After any steps without negative amounts, and whatever
module stands behind the bridge, a balance, the coins of an account and a supply are answered with
the JSON of what the bank tells; a page that is asked for makes no difference. -/
theorem bridge_reports_bank (c : Chain) (hbridge : c.stargate.IsBridge)
    (hsteps : ∀ x ∈ steps, x.NonNegative) :
    (∀ a d, Key.IsShort a → ∃ n, balance (c.after steps) a d = .ok n ∧
      c.Answers (c.after steps) .balance BalanceRequest.path ⟨a, d⟩
        (.ok (Json.obj [("balance", .obj [("denom", .str d),
          ("amount", .str (toString n))])]).toBytes)) ∧
    (∀ a, ∃ coins, allBalances (c.after steps) a = .ok coins ∧
      ∀ page, c.Answers (c.after steps) .allBalances AllBalancesRequest.path ⟨a, page⟩
        (.ok (Json.obj [("balances", .arr (coins.map fun coin => .obj [("denom", .str coin.denom),
          ("amount", .str (toString coin.amount))])), ("pagination", .null)]).toBytes)) ∧
    ∀ d, ∃ n, supply (c.after steps) d = .ok n ∧
      c.Answers (c.after steps) .supplyOf SupplyOfRequest.path ⟨d⟩
        (.ok (Json.obj [("amount", .obj [("denom", .str d),
          ("amount", .str (toString n))])]).toBytes) := by
  have hs : WellFormed (c.after steps) := after_wellFormed hsteps
  refine ⟨fun a d ha => ?_, fun a => ?_, fun d => ?_⟩
  · have hbalance := hs.balance ha d
    exact ⟨_, hbalance, answers_balance hbridge hbalance⟩
  · obtain ⟨coins, hcoins⟩ := hs.allBalances a
    exact ⟨coins, hcoins, fun page => answers_allBalances hbridge page hcoins⟩
  · have hsupply := hs.supply d
    exact ⟨_, hsupply, answers_supplyOf hbridge hsupply⟩

/-- Both coins of an account are on the page, although none was asked for. -/
theorem bridge_reports_bank_twoCoins :
    (small .coreum).stargate.IsBridge ∧ (∀ x ∈ twoCoins, x.NonNegative) ∧
      AllBalancesRequest.codec.encode ⟨"a", none⟩ = .ok [194, 97, 192] ∧
      ((small .coreum).query ((small .coreum).after twoCoins)
        (.stargate AllBalancesRequest.path [194, 97, 192])).result =
          .ok (Json.obj [("balances", .arr [.obj [("denom", .str "atom"), ("amount", .str "3")],
            .obj [("denom", .str "ucore"), ("amount", .str "5")]]),
            ("pagination", .null)]).toBytes := by
  have hbridge : (small .coreum).stargate.IsBridge := Or.inr ⟨_, rfl⟩
  have hencode : AllBalancesRequest.codec.encode ⟨"a", none⟩ = .ok [194, 97, 192] := rfl
  obtain ⟨-, haccount, -⟩ := bridge_reports_bank (small .coreum) hbridge twoCoins_nonNegative
  obtain ⟨coins, hcoins, hanswers⟩ := haccount "a"
  rw [allBalances_twoCoins] at hcoins
  obtain rfl := Except.ok.inj hcoins
  have hanswer := (hanswers none).answered [194, 97, 192] hencode (by decide)
  exact ⟨hbridge, twoCoins_nonNegative, hencode, hanswer⟩

end Chain

end TokenLedger
