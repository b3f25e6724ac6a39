import TokenLedger.Proofs.Bank.Views
import TokenLedger.Proofs.Chain.Classes
import TokenLedger.Proofs.Chain.Inflation
import TokenLedger.Proofs.Chain.Queries
import TokenLedger.Proofs.Store.Order

/-!
# The registry shows the last issue

A denom of which there is nothing may be issued anew, so that one denom may be issued many times in
a run.  The record of a denom is that of the last issue that succeeded (`load?_run`): an issue
replaces the record of its denom, if there is none of the denom, and nothing else touches it.  From
the records both queries for tokens are answered.
-/

namespace TokenLedger.Chain

open Asset Bank Factory.Coreum

variable {c : Chain} {config : FactoryConfig} {s : Store} {d : String} {m : IssueToken}
  {call : Call} {calls : List Call}

/-! ### The last issue -/

/-- The token that a call asks to issue. -/
def Call.token? : Call → Option IssueToken
  | .tx _ (.stargate typeUrl value) =>
    if typeUrl = IssueToken.typeUrl then (IssueToken.codec.decode value).toOption else none
  | .tx _ (.bank _) | .tx _ .custom | .sudoTx _ | .initBalance .. => none

/-- Whether a call succeeds on a store. -/
def succeeds (c : Chain) (s : Store) : Call → Bool
  | .tx sender message => (c.executeTx sender message s).result.isOk
  | .sudoTx message => (c.executeSudoTx message s).result.isOk
  | .initBalance address coins => (initBalance address coins s).result.isOk

/-- The token that a call on a store issues under a denom. -/
def issueIn? (c : Chain) (s : Store) (d : String) (call : Call) : Option IssueToken :=
  call.token?.filter fun m => denomOf m.subunit m.issuer == d && c.succeeds s call

/-- The token that calls on a store, one after another, are the last to issue under a denom. -/
def lastIssue? (c : Chain) (d : String) : Store → List Call → Option IssueToken
  | _, [] => none
  | s, call :: calls => (c.lastIssue? d (c.call s call) calls).or (c.issueIn? s d call)

theorem token?_eq_some : call.token? = some m ↔ ∃ sender value,
    call = .tx sender (.stargate IssueToken.typeUrl value) ∧
      IssueToken.codec.decode value = .ok m := by
  constructor
  · intro h
    cases call with
    | sudoTx message => cases h
    | initBalance address coins => cases h
    | tx sender message =>
      cases message with
      | bank message => cases h
      | custom => cases h
      | stargate typeUrl value =>
        simp only [Call.token?] at h
        split_ifs at h with htype
        · subst htype
          exact ⟨sender, value, rfl, Except.eq_ok_of_toOption h⟩
  · rintro ⟨sender, value, rfl, hm⟩
    show (if IssueToken.typeUrl = IssueToken.typeUrl then
      (IssueToken.codec.decode value).toOption else none) = some m
    rw [if_pos rfl, hm]
    rfl

theorem issueIn?_eq_some : c.issueIn? s d call = some m ↔
    call.token? = some m ∧ denomOf m.subunit m.issuer = d ∧ c.succeeds s call = true := by
  unfold issueIn?
  rw [Option.filter_eq_some_iff, Bool.and_eq_true, beq_iff_eq]

/-- A transaction that does not succeed changes nothing. -/
theorem call_tx_of_not_succeeds {sender : String} {message : Message}
    (h : c.succeeds s (.tx sender message) = false) : c.call s (.tx sender message) = s := by
  rcases executeTx_cases c sender message s with ⟨e, -, hstore⟩ | ⟨r, t, -, hresult, -⟩
  · exact hstore
  · have hsucceeds : (c.executeTx sender message s).result.isOk = false := h
    rw [hresult] at hsucceeds
    cases hsucceeds

/-! ### One call -/

/-- A call that issues a token has the effect of the issue. -/
theorem effect_of_issueIn? (hcore : c.stargate.core = .factory .coreum config)
    (h : c.issueIn? s d call = some m) : ∃ sender, denomOf m.subunit m.issuer = d ∧
      m.NumbersAreWords ∧ Effect config Bank.host sender (.issue m) s (c.call s call) := by
  obtain ⟨htoken, hdenom, hsucceeds⟩ := issueIn?_eq_some.mp h
  obtain ⟨sender, value, rfl, hm⟩ := token?_eq_some.mp htoken
  have hread : (Factory.Coreum.Message.issue m).ReadFrom IssueToken.typeUrl value := ⟨rfl, hm⟩
  rcases executeTx_cases c sender (.stargate IssueToken.typeUrl value) s with
    ⟨e, herror, -⟩ | ⟨r, t, hrun, -, hstore⟩
  · have hok : (c.executeTx sender (.stargate IssueToken.typeUrl value) s).result.isOk = true :=
      hsucceeds
    rw [herror] at hok
    cases hok
  · rw [execute_stargate, hcore] at hrun
    refine ⟨sender, hdenom, IssueToken.numbersAreWords_decode hm, ?_⟩
    show Effect config Bank.host sender (.issue m) s (c.executeTx sender _ s).store
    rw [hstore]
    exact effect_of_readFrom hread hrun

/-- An issue leaves the record of what it issues. -/
theorem load?_call_of_issueIn? (hcore : c.stargate.core = .factory .coreum config)
    (h : c.issueIn? s d call = some m) :
    issuedTokens.load? (c.call s call) d = .ok (some (.ofMessage m)) := by
  obtain ⟨sender, rfl, hwords, heffect⟩ := effect_of_issueIn? hcore h
  cases heffect with
  | issue checked new fee minted saved =>
    exact RecordMap.load?_save (readsBack_issuedToken hwords) saved

/-- There is nothing of a denom that is issued. -/
theorem supply_of_issueIn? (hcore : c.stargate.core = .factory .coreum config)
    (hs : WellFormed s) (h : c.issueIn? s d call = some m) : supply s d = .ok 0 := by
  obtain ⟨sender, rfl, -, heffect⟩ := effect_of_issueIn? hcore h
  cases heffect with
  | issue checked new fee minted saved =>
    rw [hs.supply, ((Factory.ensureNoSupply_runs hs).mp new).1]

/-- A call that does not issue a denom leaves its record as it is, byte for byte. -/
theorem get?_call_of_issueIn?_eq_none (hcore : c.stargate.core = .factory .coreum config)
    (h : c.issueIn? s d call = none) {b : Bytes} (hk : issuedTokens.fullKey d = .ok b) :
    (c.call s call).get? b = s.get? b := by
  have hroot : issuedTokens.root <+: b := RecordMap.root_isPrefix hk
  rcases call_coreum_cases hcore s call with
    hout | ⟨sender, typeUrl, value, message, rfl, hread, heffect⟩
  · have hsame : Store.SameUnder issuedTokens.root s (c.call s call) :=
      RecordMap.sameUnder_of_sameOutside hout (by decide)
    exact hsame b hroot
  · by_cases hmap : message.mapName? = some issuedTokens.name
    · obtain ⟨m, rfl⟩ := eq_issue_of_mapName? hmap
      obtain ⟨rfl, hm⟩ := hread
      by_cases hsucceeds : c.succeeds s (.tx sender (.stargate IssueToken.typeUrl value)) = true
      · have hdenom : denomOf m.subunit m.issuer ≠ d := by
          intro heq
          have htoken := token?_eq_some.mpr ⟨sender, value, rfl, hm⟩
          rw [issueIn?_eq_some.mpr ⟨htoken, heq, hsucceeds⟩] at h
          cases h
        cases heffect with
        | @issue _ _ _ _ v _ _ _ checked new fee minted saved =>
          cases Factory.ensureNoSupply_store new
          have hout := ((Factory.chargeFee_writesBalances config .coreum sender).of_runs fee).trans
            ((mintInitial_writesBalances _ m).of_runs minted)
          have hsame : Store.SameUnder issuedTokens.root s v :=
            RecordMap.sameUnder_of_sameOutside hout (by decide)
          obtain ⟨b', hk', hsaved⟩ := RecordMap.get?_of_save saved
          have hne : b ≠ b' := by
            intro heq
            exact hdenom (RecordMap.fullKey_inj hk' (heq ▸ hk))
          rw [hsaved b hne, hsame b hroot]
      · rw [call_tx_of_not_succeeds (Bool.eq_false_iff.mpr hsucceeds)]
    · exact heffect.sameUnder (by decide) hmap b hroot

/-- What is recorded of a denom after a call. -/
theorem load?_call (hcore : c.stargate.core = .factory .coreum config) (s : Store) (d : String)
    (call : Call) {o : Option IssuedToken} (ho : issuedTokens.load? s d = .ok o) :
    issuedTokens.load? (c.call s call) d =
      .ok (((c.issueIn? s d call).map .ofMessage).or o) := by
  cases h : c.issueIn? s d call with
  | some m => exact load?_call_of_issueIn? hcore h
  | none =>
    have hsame : issuedTokens.load? (c.call s call) d = issuedTokens.load? s d :=
      RecordMap.load?_eq_of_get? fun b hk => get?_call_of_issueIn?_eq_none hcore h hk
    rw [hsame, ho]
    rfl

/-! ### Runs -/

/-- The last issue replaces what was recorded of the denom. -/
theorem load?_runFrom (hcore : c.stargate.core = .factory .coreum config) (d : String)
    {o : Option IssuedToken} (ho : issuedTokens.load? s d = .ok o) :
    issuedTokens.load? (c.runFrom s calls) d =
      .ok (((c.lastIssue? d s calls).map .ofMessage).or o) := by
  induction calls generalizing s o with
  | nil => exact ho
  | cons call calls ih =>
    have hlater := ih (load?_call hcore s d call ho)
    show issuedTokens.load? (c.runFrom (c.call s call) calls) d = _
    rw [hlater, lastIssue?, Option.map_or, Option.or_assoc]

/-- The record of a denom is that of its last issue. -/
theorem load?_run (hcore : c.stargate.core = .factory .coreum config) (calls : List Call)
    (d : String) : issuedTokens.load? (c.run calls) d =
      .ok ((c.lastIssue? d .empty calls).map .ofMessage) := by
  have hempty : issuedTokens.load? Store.empty d = .ok none := rfl
  have hrun : issuedTokens.load? (c.runFrom .empty calls) d =
      .ok (((c.lastIssue? d .empty calls).map .ofMessage).or none) := load?_runFrom hcore d hempty
  rw [Option.or_none] at hrun
  exact hrun

/-! ### Queries -/

/-- The members that every token shows alike. -/
def fixedMembers : List (String × Json) :=
  [("globally_frozen", .bool false), ("features", .arr []), ("burn_rate", .str "0"),
    ("send_commission_rate", .str "0"), ("version", .num 0), ("uri", .str ""),
    ("uri_hash", .str ""), ("extension_cw_address", .null), ("admin", .null)]

/-- The JSON that shows a token of a denom as the message that issued it says. -/
def shownToken (d : String) (m : IssueToken) : Json :=
  .obj ([("denom", .str d), ("issuer", .str m.issuer), ("symbol", .str m.symbol),
    ("subunit", .str m.subunit), ("precision", .num (Number.ofInt m.precision)),
    ("description", .str m.description)] ++ fixedMembers)

/-- The JSON that shows the native token, which nobody has issued. -/
def shownNative (d : String) : Json :=
  .obj ([("denom", .str d), ("issuer", .str ""), ("symbol", .str "CORE"), ("subunit", .str d),
    ("precision", .num 6), ("description", .str "Native Coreum token")] ++ fixedMembers)

/-- The factory shows what is recorded of a message as the message says. -/
theorem view_ofMessage (d : String) (m : IssueToken) :
    (IssuedToken.ofMessage m).view d = shownToken d m := rfl

theorem nativeView_eq (d : String) : nativeView d = shownNative d := rfl

/-- What the query for a token tells about a denom and its last issue. -/
def registered (config : FactoryConfig) (d : String) : Option IssueToken → Except Fault Json
  | some m => .ok (shownToken d m)
  | none => if d = config.feeDenom then .ok (shownNative d) else .error (.notFound (.token d))

theorem showToken_run (hcore : c.stargate.core = .factory .coreum config) (calls : List Call)
    (d : String) : showToken config.feeDenom (c.run calls) d =
      registered config d (c.lastIssue? d .empty calls) := by
  unfold showToken
  rw [load?_run hcore calls d]
  cases c.lastIssue? d .empty calls with
  | none =>
    rw [registered, ← nativeView_eq]
    rfl
  | some m =>
    rw [registered, ← view_ofMessage]
    rfl

theorem passes_filterOf {issuer value : String} :
    passes (filterOf issuer) value = true ↔ issuer = "" ∨ value = issuer := by
  unfold passes filterOf
  by_cases h : issuer = ""
  · rw [if_pos h]
    simp [h]
  · rw [if_neg h, Option.all_some, beq_iff_eq]
    constructor
    · intro heq
      exact Or.inr heq.symm
    · rintro (hempty | heq)
      · exact absurd hempty h
      · exact heq.symm

/-- What a listing shows: denoms in ascending order, with the last issue of each. -/
structure Lists (c : Chain) (calls : List Call) (issuer : String) (shown : List (String × Json)) :
    Prop where
  ascending : shown.Pairwise fun x y => Utf8.encode x.1 < Utf8.encode y.1
  mem : ∀ d j, (d, j) ∈ shown ↔ ∃ m, c.lastIssue? d .empty calls = some m ∧
    (issuer = "" ∨ m.issuer = issuer) ∧ j = shownToken d m

theorem showTokens_run (hcore : c.stargate.core = .factory .coreum config) (calls : List Call)
    (issuer : String) : ∃ shown, c.Lists calls issuer shown ∧
      showTokens (c.run calls) (filterOf issuer) = .ok (shown.map (·.2)) := by
  have hnamed : TokensNamed (c.run calls) := run_recordsNamed hcore calls
  obtain ⟨all, hall, hmem, hbelow⟩ := RecordMap.Holds.listing hnamed
  refine ⟨(all.filter fun e => passes (filterOf issuer) e.2.issuer).map
    fun e => (e.1, e.2.view e.1), ⟨?_, fun d j => ?_⟩, ?_⟩
  · rw [List.pairwise_map]
    exact (hbelow.filter _).imp fun h => h.encode_lt_of_text rfl
  · rw [List.mem_map]
    constructor
    · rintro ⟨⟨d', token⟩, htoken, heq⟩
      obtain ⟨rfl, rfl⟩ := Prod.mk.inj heq
      obtain ⟨hrecord, hpasses⟩ := List.mem_filter.mp htoken
      have hload := (hmem d' token).mp hrecord
      rw [load?_run hcore calls d'] at hload
      obtain ⟨m, hm, rfl⟩ := Option.map_eq_some_iff.mp (Except.ok.inj hload)
      exact ⟨m, hm, passes_filterOf.mp hpasses, view_ofMessage d' m⟩
    · rintro ⟨m, hm, hissuer, rfl⟩
      have hload : issuedTokens.load? (c.run calls) d = .ok (some (.ofMessage m)) := by
        rw [load?_run hcore calls d, hm]
        rfl
      have hrecord := (hmem d (.ofMessage m)).mpr hload
      exact ⟨_, List.mem_filter.mpr ⟨hrecord, passes_filterOf.mpr hissuer⟩,
        congrArg (Prod.mk d) (view_ofMessage d m)⟩
  · unfold showTokens
    rw [hall, List.map_map]
    rfl

/-- **The registry shows the last issue.**  After any calls without negative amounts: a further call
changes the record of a denom only by issuing the denom, and only if there is none of it; the query
for a token shows the last issue of the denom as its message says, or else the native token, or else
nothing; and the query for the tokens of an issuer, or of all issuers, shows exactly the denoms whose
last issue is by the issuer, each once, in the order of their bytes and as the query for the token
shows it. -/
theorem registry_shows_last_issue (c : Chain) (hcore : c.stargate.core = .factory .coreum config)
    (hcalls : ∀ call ∈ calls, call.NonNegative) :
    (∀ call d b, issuedTokens.fullKey d = .ok b →
      (c.run (calls ++ [call])).get? b ≠ (c.run calls).get? b →
        (∃ m, c.issueIn? (c.run calls) d call = some m) ∧ supply (c.run calls) d = .ok 0) ∧
    (∀ d, c.Answers (c.run calls) .token TokenRequest.path ⟨d⟩
      ((fun token => (Json.obj [("token", token)]).toBytes) <$>
        registered config d (c.lastIssue? d .empty calls))) ∧
    ∀ issuer, ∃ shown, c.Lists calls issuer shown ∧
      (∀ d j, (d, j) ∈ shown → registered config d (c.lastIssue? d .empty calls) = .ok j) ∧
      ∀ page, c.Answers (c.run calls) .tokens TokensRequest.path ⟨page, issuer⟩
        (.ok (Json.obj [("tokens", .arr (shown.map (·.2))),
          ("pagination", .obj [("next_key", .null), ("total", .num 0)])]).toBytes) := by
  refine ⟨?_, fun d => ?_, fun issuer => ?_⟩
  · intro call d b hk hne
    have hlast : c.run (calls ++ [call]) = c.call (c.run calls) call := run_append c calls [call]
    rw [hlast] at hne
    cases h : c.issueIn? (c.run calls) d call with
    | none => exact absurd (get?_call_of_issueIn?_eq_none hcore h hk) hne
    | some m => exact ⟨⟨m, rfl⟩, supply_of_issueIn? hcore (run_wellFormed hcalls) h⟩
  · have hanswers := answers_inquiry hcore (c.run calls) (.token ⟨d⟩)
    have hanswer : (Asset.Query.token d).answer config.feeDenom (c.run calls) =
        (fun token => (Json.obj [("token", token)]).toBytes) <$>
          registered config d (c.lastIssue? d .empty calls) := by
      rw [← showToken_run hcore calls d]
      show Json.toBytes <$> (showToken config.feeDenom (c.run calls) d >>= fun token =>
        Except.ok (Json.obj [("token", token)])) = _
      cases showToken config.feeDenom (c.run calls) d <;> rfl
    rw [← hanswer]
    exact hanswers
  · obtain ⟨shown, hlists, hshown⟩ := showTokens_run hcore calls issuer
    refine ⟨shown, hlists, fun d j hj => ?_, fun page => ?_⟩
    · obtain ⟨m, hm, -, rfl⟩ := (hlists.mem d j).mp hj
      rw [hm]
      rfl
    · have hanswers := answers_inquiry hcore (c.run calls) (.tokens ⟨page, issuer⟩)
      have hanswer : (Asset.Query.tokens issuer).answer config.feeDenom (c.run calls) =
          .ok (Json.obj [("tokens", .arr (shown.map (·.2))),
            ("pagination", .obj [("next_key", .null), ("total", .num 0)])]).toBytes := by
        show Json.toBytes <$> (showTokens (c.run calls) (filterOf issuer) >>= fun tokens =>
          Except.ok (Json.obj [("tokens", .arr tokens), ("pagination", emptyPage)])) = _
        rw [hshown]
        rfl
      rw [← hanswer]
      exact hanswers

/-- The payload that issues the token of the small chain anew, under another symbol. -/
def secondIssue : Bytes :=
  [209, 97, 131, 78, 69, 87, 131, 116, 111, 107, 6, 128, 128, 192, 128, 128, 128, 128]

/-- What it says. -/
def secondToken : IssueToken := ⟨"a", "NEW", "tok", 6, "", "", [], "", "", "", ""⟩

/-- A token is issued, all of it goes with the balances of its only holder, and it is issued
anew. -/
def reissued : List Call :=
  [.initBalance "a" [⟨"ucore", 10000000⟩], .tx "a" (.stargate IssueToken.typeUrl smallIssue),
    .initBalance "a" [⟨"ucore", 10000000⟩], .tx "a" (.stargate IssueToken.typeUrl secondIssue)]

/-- The query for the token shows the second issue. -/
theorem registry_shows_last_issue_reissued :
    (∀ call ∈ reissued, call.NonNegative) ∧
      (small .coreum).lastIssue? "tok-a" .empty reissued = some secondToken ∧
      TokenRequest.codec.encode ⟨"tok-a"⟩ = .ok [198, 133, 116, 111, 107, 45, 97] ∧
      ((small .coreum).query ((small .coreum).run reissued)
        (.stargate TokenRequest.path [198, 133, 116, 111, 107, 45, 97])).result =
          .ok (Json.obj [("token", .obj [("denom", .str "tok-a"), ("issuer", .str "a"),
            ("symbol", .str "NEW"), ("subunit", .str "tok"), ("precision", .num 6),
            ("description", .str ""), ("globally_frozen", .bool false), ("features", .arr []),
            ("burn_rate", .str "0"), ("send_commission_rate", .str "0"), ("version", .num 0),
            ("uri", .str ""), ("uri_hash", .str ""), ("extension_cw_address", .null),
            ("admin", .null)])]).toBytes := by
  have hcalls : ∀ call ∈ reissued, call.NonNegative := by
    simp [reissued, Call.NonNegative, Message.NonNegative, NonNegativeCoins]
  have hlast : (small .coreum).lastIssue? "tok-a" .empty reissued = some secondToken := by
    decide +kernel
  have hencode : TokenRequest.codec.encode ⟨"tok-a"⟩ = .ok [198, 133, 116, 111, 107, 45, 97] := rfl
  obtain ⟨-, htoken, -⟩ := registry_shows_last_issue (small .coreum) rfl hcalls
  have hanswer := (htoken "tok-a").answered [198, 133, 116, 111, 107, 45, 97] hencode (by decide)
  rw [hlast] at hanswer
  exact ⟨hcalls, hlast, hencode, hanswer⟩

end TokenLedger.Chain
