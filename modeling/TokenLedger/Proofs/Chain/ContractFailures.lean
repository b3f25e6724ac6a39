import TokenLedger.Proofs.Chain.Queries
import TokenLedger.Proofs.Text.Base64

/-!
# Failures of contracts

A smart query over a bridge passes three layers: the contract, the native answer, in which failures
are told apart, and the bridge, which turns them into faults again.  What a contract answers or fails
with comes through as it is, and only a contract that is not there is a failure of the system.  The
one thing that does not come through is something thrown that cannot be put into words: the layer
that should do so fails itself.
-/

namespace TokenLedger

/-- Everything that can be thrown has a wording, except for what hides it. -/
theorem Fault.text_eq {e : Fault} (h : e ≠ .thrown none) : e.text = .ok e.message := by
  unfold Fault.text
  split
  · exact absurd rfl h
  · rfl

namespace Chain

variable {c : Chain} {s : Store} {t : MessageType} {path address : String} {request : t.Message}
  {message b : Bytes} {contract : Contract} {e : Fault}

/-! ### Answers and failures, plain and told apart -/

theorem result_rawQuery (c : Chain) (s : Store) (path : String) (data : Bytes) :
    (c.rawQuery s (.stargate path data)).result =
      match (c.query s (.stargate path data)).result with
      | .ok b => .ok (.bytes b)
      | .error e => .contractError <$> e.text := by
  unfold rawQuery
  dsimp only
  cases (c.query s (.stargate path data)).result with
  | ok b => rfl
  | error e => rfl

/-- A request is answered with bytes, and with the same bytes where failures are told apart. -/
structure AnswersWith (c : Chain) (s : Store) (t : MessageType) (path : String)
    (request : t.Message) (b : Bytes) : Prop where
  plain : c.Answers s t path request (.ok b)
  toldApart : ∀ data, t.codec.encode request = .ok data → data.length < 2 ^ 64 →
    (c.rawQuery s (.stargate path data)).result = .ok (.bytes b)

/-- A request fails with a class and a wording, and where failures are told apart the same wording is
that of a failure inside, never of one of the system. -/
structure FailsWith (c : Chain) (s : Store) (t : MessageType) (path : String)
    (request : t.Message) (name text : String) : Prop where
  plain : ∃ e : Fault, e.name = name ∧ e.message = text ∧ c.Answers s t path request (.error e)
  toldApart : ∀ data, t.codec.encode request = .ok data → data.length < 2 ^ 64 →
    (c.rawQuery s (.stargate path data)).result = .ok (.contractError text)

theorem answersWith_of_answers (h : c.Answers s t path request (.ok b)) :
    c.AnswersWith s t path request b where
  plain := h
  toldApart data hdata hlength := by
    rw [result_rawQuery, h.answered data hdata hlength]

theorem failsWith_of_answers (he : e ≠ .thrown none)
    (h : c.Answers s t path request (.error e)) :
    c.FailsWith s t path request e.name e.message where
  plain := ⟨e, rfl, rfl, h⟩
  toldApart data hdata hlength := by
    rw [result_rawQuery, h.answered data hdata hlength]
    show NativeAnswer.contractError <$> e.text = _
    rw [Fault.text_eq he]
    rfl

/-! ### Native answers of contracts -/

theorem querier_missing {q : ContractQuery} (h : c.contract? q.address = none) :
    c.querier s (.contract q) = .ok (.systemError ("No such contract: " ++ q.address)) := by
  have hmissing : c.missingContract? (.contract q) = some q.address := by
    simp only [missingContract?, h, Option.isNone_none, if_true]
  unfold querier
  rw [hmissing]
  rfl

theorem querier_smart (h : c.contract? address = some contract) :
    c.querier s (.contract (.smart address message)) =
      match contract.answer message s c.block with
      | .ok b => .ok (.bytes b)
      | .error e => .contractError <$> e.text := by
  have hthere : c.missingContract? (.contract (.smart address message)) = none := by
    show (if (c.contract? address).isNone then some address else none) = none
    rw [h]
    rfl
  have hasked : c.queryNative s (.contract (.smart address message)) =
      contract.answer message s c.block := by
    show c.queryContract s (.smart address message) = _
    unfold queryContract
    rw [show c.contract? (ContractQuery.smart address message).address = some contract from h]
  unfold querier
  cases hanswer : contract.answer message s c.block with
  | ok b =>
    rw [hanswer] at hasked
    simp only [hthere, hasked]
  | error e =>
    rw [hanswer] at hasked
    simp only [hthere, hasked]

/-! ### Bridged answers -/

variable (hbridge : c.stargate.IsBridge)

include hbridge in
/-- A bridge answers a smart query as its native answer says. -/
theorem answers_smart {answer : Except Fault Bytes} (h : (do
      let native ← c.querier s (.contract (.smart address message))
      let raw ← native.get
      .ok (Json.obj [("data", .str (Base64.encode raw))]).toBytes) = answer) :
    c.Answers s .smartContractState SmartContractStateRequest.path ⟨address, message⟩ answer := by
  refine answers_of_decode (fun _ _ => trivial) fun data hdata => ?_
  have hpath : Bridge.Request.ofWire? SmartContractStateRequest.path data =
      some (.ok (.smart address message)) := by
    show some ((fun r => Bridge.Request.smart r.address r.queryData) <$>
      SmartContractStateRequest.codec.decode data) = _
    rw [show SmartContractStateRequest.codec.decode data = .ok ⟨address, message⟩ from hdata]
    rfl
  show (c.stargate.query (c.querier s) c.block s SmartContractStateRequest.path data).result = _
  rw [StargateModule.query_bridged hbridge hpath, Bridge.result_answer]
  exact h

include hbridge in
/-- A bridge has no information about a contract that is not there. -/
theorem answers_info_missing (h : c.contract? address = none) :
    c.Answers s .contractInfo ContractInfoRequest.path ⟨address⟩
      (.error (.systemQuery ("No such contract: " ++ address))) := by
  refine answers_of_decode (fun _ _ => trivial) fun data hdata => ?_
  have hpath : Bridge.Request.ofWire? ContractInfoRequest.path data = some (.ok (.info address)) := by
    show some ((fun r => Bridge.Request.info r.address) <$>
      ContractInfoRequest.codec.decode data) = _
    rw [show ContractInfoRequest.codec.decode data = .ok ⟨address⟩ from hdata]
    rfl
  have hmissing : c.querier s (.contract (.info address)) =
      .ok (.systemError ("No such contract: " ++ address)) := querier_missing h
  show (c.stargate.query (c.querier s) c.block s ContractInfoRequest.path data).result = _
  rw [StargateModule.query_bridged hbridge hpath, Bridge.result_answer]
  show (c.querier s (.contract (.info address)) >>= _) = _
  rw [hmissing]
  rfl

/-- The wording of a contract that is not there. -/
theorem message_missing (address : String) :
    (Fault.systemQuery ("No such contract: " ++ address)).message =
      "Querier system error: No such contract: " ++ address := by
  show "Querier system error: " ++ ("No such contract: " ++ address) = _
  rw [← String.append_assoc]
  rfl

include hbridge in
/-- **What a contract answers or fails with comes through a bridge as it is.**  Whatever the contracts
are and whatever module stands behind the bridge, a smart query is answered with the contract's bytes,
in base64; it fails with what the contract fails with, word for word, exactly if that has a wording,
and otherwise with a fault of its own; and a contract that is not there is a failure of the system,
also when it is asked about.  Where failures are told apart, all of these are failures inside. -/
theorem contract_failures_kept (s : Store) (address : String) (message : Bytes) :
    (∀ contract b, c.contract? address = some contract →
      contract.answer message s c.block = .ok b →
      ∃ text, Base64.decode text = .ok b ∧
        c.AnswersWith s .smartContractState SmartContractStateRequest.path ⟨address, message⟩
          (Json.obj [("data", .str text)]).toBytes) ∧
    (∀ contract e, c.contract? address = some contract →
      contract.answer message s c.block = .error e →
      (e ≠ .thrown none →
        c.FailsWith s .smartContractState SmartContractStateRequest.path ⟨address, message⟩
          "ContractQueryError" e.message) ∧
      (e = .thrown none →
        c.FailsWith s .smartContractState SmartContractStateRequest.path ⟨address, message⟩
          "TypeError" noTextMessage)) ∧
    (c.contract? address = none →
      c.FailsWith s .smartContractState SmartContractStateRequest.path ⟨address, message⟩
          "SystemQueryError" ("Querier system error: No such contract: " ++ address) ∧
        c.FailsWith s .contractInfo ContractInfoRequest.path ⟨address⟩
          "SystemQueryError" ("Querier system error: No such contract: " ++ address)) := by
  refine ⟨fun contract b hcontract hb => ?_, fun contract e hcontract he => ⟨fun htext => ?_, ?_⟩,
    fun hmissing => ?_⟩
  · refine ⟨Base64.encode b, Base64.decode_encode b, answersWith_of_answers ?_⟩
    refine answers_smart hbridge ?_
    rw [querier_smart hcontract, hb]
    rfl
  · have hanswer : c.Answers s .smartContractState SmartContractStateRequest.path
        ⟨address, message⟩ (.error (.contractQuery e.message)) := by
      refine answers_smart hbridge ?_
      rw [querier_smart hcontract, he]
      dsimp only
      rw [Fault.text_eq htext]
      rfl
    exact failsWith_of_answers (by simp) hanswer
  · rintro rfl
    have hanswer : c.Answers s .smartContractState SmartContractStateRequest.path
        ⟨address, message⟩ (.error .noText) := by
      refine answers_smart hbridge ?_
      rw [querier_smart hcontract, he]
      rfl
    exact failsWith_of_answers (by simp) hanswer
  · have hanswer : c.Answers s .smartContractState SmartContractStateRequest.path
        ⟨address, message⟩ (.error (.systemQuery ("No such contract: " ++ address))) := by
      refine answers_smart hbridge ?_
      rw [querier_missing (q := .smart address message) hmissing]
      rfl
    rw [← message_missing]
    exact ⟨failsWith_of_answers (by simp) hanswer,
      failsWith_of_answers (by simp) (answers_info_missing hbridge hmissing)⟩

/-! ### Contracts that fail -/

/-- The small chain with a contract. -/
def withContract (answer : Bytes → Store → Block → Except Fault Bytes) : Chain :=
  { small .coreum with contracts := [("k", ⟨none, none, .null, .null, answer⟩)] }

/-- The payload that sends the contract the byte zero. -/
def askContract : Bytes := [0xc2, 0x6b, 0x00]

/-- The payload that sends it to an address without a contract. -/
def askNobody : Bytes := [0xc2, 0x78, 0x00]

/-- A contract fails as if it were not there. -/
def posing : Chain := withContract fun _ _ _ => .error (.raised "No such contract: k")

/-- It is not taken for a contract that is not there, and nobody is. -/
theorem contract_failures_kept_posing :
    posing.stargate.IsBridge ∧
      posing.FailsWith .empty .smartContractState SmartContractStateRequest.path ⟨"k", [0]⟩
        "ContractQueryError" "No such contract: k" ∧
      posing.FailsWith .empty .smartContractState SmartContractStateRequest.path ⟨"x", [0]⟩
        "SystemQueryError" "Querier system error: No such contract: x" ∧
      (posing.rawQuery .empty (.stargate SmartContractStateRequest.path askContract)).result =
        .ok (.contractError "No such contract: k") ∧
      (posing.rawQuery .empty (.stargate SmartContractStateRequest.path askNobody)).result =
        .ok (.contractError "Querier system error: No such contract: x") := by
  have hbridge : posing.stargate.IsBridge := Or.inr ⟨_, rfl⟩
  obtain ⟨-, hfailure, -⟩ := contract_failures_kept hbridge .empty "k" [0]
  obtain ⟨-, -, hnobody⟩ := contract_failures_kept hbridge .empty "x" [0]
  have hkept := (hfailure _ _ rfl rfl).1 (by simp)
  obtain ⟨hsystem, -⟩ := hnobody rfl
  exact ⟨hbridge, hkept, hsystem, hkept.toldApart askContract rfl (by decide),
    hsystem.toldApart askNobody rfl (by decide)⟩

/-- A contract throws an object that hides how it reads. -/
def mute : Chain :=
  withContract fun message s block =>
    (Contract.Behavior.throwValue (.obj [("toString", .null)])).answer message s block

/-- **Not everything that is thrown is a failure of the contract.**  What hides how it reads reaches
the asker as a fault of another class, whatever the wording should be. -/
theorem hidden_failure_reclassified :
    mute.stargate.IsBridge ∧
      (∃ contract e, mute.contract? "k" = some contract ∧
        contract.answer [0] .empty mute.block = .error e) ∧
      SmartContractStateRequest.codec.encode ⟨"k", [0]⟩ = .ok askContract ∧
      (∃ e, (mute.query .empty (.stargate SmartContractStateRequest.path askContract)).result =
        .error e ∧ e.name = "TypeError") ∧
      ∀ text, ¬ mute.FailsWith .empty .smartContractState SmartContractStateRequest.path
        ⟨"k", [0]⟩ "ContractQueryError" text := by
  have hencode : SmartContractStateRequest.codec.encode ⟨"k", [0]⟩ = .ok askContract := rfl
  have hresult : (mute.query .empty
      (.stargate SmartContractStateRequest.path askContract)).result = .error .noText := rfl
  refine ⟨Or.inr ⟨_, rfl⟩, ⟨_, _, rfl, rfl⟩, hencode, ⟨_, hresult, rfl⟩, fun text hfails => ?_⟩
  obtain ⟨e, hname, -, hanswers⟩ := hfails.plain
  have herror := hanswers.answered askContract hencode (by decide)
  rw [hresult] at herror
  obtain rfl := Except.error.inj herror
  exact absurd hname (by decide)

end Chain

end TokenLedger
