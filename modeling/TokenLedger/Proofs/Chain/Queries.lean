import TokenLedger.Proofs.Asset.Surfaces
import TokenLedger.Proofs.Chain.Run

/-!
# Requests on query paths

A request that is sent to a query path is answered by a bridge, if the path is one of its five, or by
the module behind all bridges.  The seven paths of the assets are not bridged, so that a chain with a
Coreum factory answers there what the factory knows (`answers_inquiry`).
-/

namespace TokenLedger

open Bank

/-! ### Bridged queries -/

/-- A bridged query comes to the native answer, written anew; its log line does not matter. -/
theorem Bridge.result_answer (querier : Querier) (path : String) (request : Request) :
    (answer querier path request).result = (do
      let native ← querier request.native
      let raw ← native.get
      Json.toBytes <$> request.render raw) := by
  unfold answer
  cases querier request.native with
  | error e => rfl
  | ok native =>
    rw [Noted.result_ofExcept_bind rfl, Except.ok_bind]
    cases native.get with
    | error e => rfl
    | ok raw =>
      rw [Noted.result_ofExcept_bind rfl, Except.ok_bind]
      cases request.render raw with
      | error e => rfl
      | ok json =>
        cases request.logLine? path with
        | none => rfl
        | some line => rfl

/-! ### Modules -/

namespace StargateModule

/-- The module is a query bridge, alone or in front of any other module. -/
def IsBridge (m : StargateModule) : Prop := m = .bridge ∨ ∃ inner, m = .bridgeTo inner

variable {querier : Querier} {block : Block} {s : Store} {path : String} {data : Bytes}

/-- A path that is not bridged is answered by the module behind all bridges. -/
theorem query_core (hpath : Bridge.Request.ofWire? path data = none) (m : StargateModule) :
    m.core.query querier block s path data = m.query querier block s path data := by
  induction m with
  | bridgeTo inner ih =>
    rw [StargateModule.query, hpath]
    exact ih
  | failing | scratch | factory | bridge => rfl

/-- What stands behind a bridge does not matter for a path that is bridged. -/
theorem query_bridged {m : StargateModule} (hm : m.IsBridge) {request : Bridge.Request}
    (hpath : Bridge.Request.ofWire? path data = some (.ok request)) :
    (m.query querier block s path data).result = (Bridge.answer querier path request).result := by
  rcases hm with rfl | ⟨inner, rfl⟩
  · simp only [StargateModule.query, hpath]
    exact Noted.result_ofExcept_bind rfl
  · simp only [StargateModule.query, hpath]
    exact Noted.result_ofExcept_bind rfl

end StargateModule

/-! ### Requests -/

namespace Chain

/-- A request has bytes, if its numbers are in range, and the answer to its bytes on a path is the
given one.  A header has room for eight bytes of a length. -/
structure Answers (c : Chain) (s : Store) (t : MessageType) (path : String) (request : t.Message)
    (answer : Except Fault Bytes) : Prop where
  sent : t.InRange request → ∃ data, t.codec.encode request = .ok data
  answered : ∀ data, t.codec.encode request = .ok data → data.length < 2 ^ 64 →
    (c.query s (.stargate path data)).result = answer

variable {c : Chain} {config : FactoryConfig} {t : MessageType} {path : String}
  {request : t.Message} {answer : Except Fault Bytes} {s : Store}

/-- It is enough to answer whatever bytes are read as the request. -/
theorem answers_of_decode (hrange : ∀ data, t.codec.encode request = .ok data → t.InRange request)
    (h : ∀ data, t.codec.decode data = .ok request →
      (c.query s (.stargate path data)).result = answer) : c.Answers s t path request answer where
  sent hrequest := by
    obtain ⟨data, hdata, -⟩ := Wire.Codec.decode_encode (t.readsBack_row request hrequest)
    exact ⟨data, hdata⟩
  answered data hdata hlength := by
    have hrow := t.readsBack_row request (hrange data hdata)
    exact h data (Wire.Codec.decode_of_encode hrow hdata hlength)

/-- The paths of the assets are not bridged. -/
theorem ofWire?_inquiry (r : Asset.Inquiry) (data : Bytes) :
    Bridge.Request.ofWire? r.path data = none := by
  cases r <;> rfl

/-- A chain with a Coreum factory answers a question about assets as the factory does. -/
theorem answers_inquiry (hcore : c.stargate.core = .factory .coreum config) (s : Store)
    (r : Asset.Inquiry) :
    c.Answers s r.type r.path r.message (r.question.answer config.feeDenom s) := by
  refine answers_of_decode (fun data hdata => Asset.Inquiry.inRange_of_encode hdata) ?_
  intro data hdata
  show (c.stargate.query (c.querier s) c.block s r.path data).result = _
  rw [← StargateModule.query_core (ofWire?_inquiry r data), hcore]
  exact Asset.Inquiry.query_path config s hdata

end Chain

end TokenLedger
