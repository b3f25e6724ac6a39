import TokenLedger.Chain.Module
import TokenLedger.Chain.ScriptedHost
import TokenLedger.Proofs.Factory.Coreum
import TokenLedger.Proofs.Factory.Failures
import TokenLedger.Proofs.Factory.Generic

/-!
# A factory's own records

Whatever its host does to the rest of the store, a factory's own records change only when a message
succeeds, and then in one place at most: under the key that the message names (`Names`).  A handler
calls each function of its host once at most, so that it makes no difference whether a host
remembers earlier calls.  Messages about NFTs call no host at all: they run with every host as they
run with one that refuses everything.
-/

namespace TokenLedger.Factory

open Asset

variable {variant : Variant} {config : FactoryConfig} {host : Host} {sender typeUrl : String}
  {value : Bytes} {s t u : Store} {P : Store → Prop}

/-! ### Parts of the store -/

/-- What the keys of a factory's own records start with. -/
def ownRoots : Variant → List Bytes
  | .generic => [Generic.createdDenoms.root]
  | .coreum => [issuedTokens.root, classes.root, nfts.root]

/-- A key in one of a factory's own namespaces. -/
def IsOwn (variant : Variant) (k : Bytes) : Prop := ∃ root ∈ ownRoots variant, root <+: k

/-- Two stores agree on a factory's own records. -/
def SameOwn (variant : Variant) (s t : Store) : Prop :=
  ∀ k, IsOwn variant k → t.get? k = s.get? k

/-- Two stores agree on a factory's own records, apart from what stands under `k`. -/
def SameOwnBut (variant : Variant) (k : Bytes) (s t : Store) : Prop :=
  ∀ k', IsOwn variant k' → k' ≠ k → t.get? k' = s.get? k'

theorem SameOwn.rfl : SameOwn variant s s := fun _ _ => Eq.refl _

theorem SameOwn.trans (h : SameOwn variant s t) (h' : SameOwn variant t u) : SameOwn variant s u :=
  fun k hk => (h' k hk).trans (h k hk)

section Change

variable {K V : Type} {map : RecordMap K V} {key : K} {v : V}

theorem SameOwn.but_of_save (h : SameOwn variant s u) (saved : map.save u key v = .ok t) :
    ∃ k, map.fullKey key = .ok k ∧ SameOwnBut variant k s t := by
  obtain ⟨k, hk, hrest⟩ := RecordMap.get?_of_save saved
  exact ⟨k, hk, fun k' hown hne => (hrest k' hne).trans (h k' hown)⟩

theorem SameOwn.but_of_delete (h : SameOwn variant s u) (deleted : map.delete u key = .ok t) :
    ∃ k, map.fullKey key = .ok k ∧ SameOwnBut variant k s t := by
  obtain ⟨k, hk, hrest⟩ := RecordMap.get?_of_delete deleted
  exact ⟨k, hk, fun k' hown hne => (hrest k' hne).trans (h k' hown)⟩

end Change

/-- A host leaves a factory's own records alone, also when it fails. -/
structure LeavesOwn (variant : Variant) (host : Host) : Prop where
  execute : ∀ sender message s, SameOwn variant s (host.execute sender message s).store
  mint : ∀ order s, SameOwn variant s (host.mint order s).store

theorem LeavesOwn.keeps (h : LeavesOwn variant host) (s : Store) :
    host.Keeps (SameOwn variant s) where
  burn sender coin _ := fun u hu => hu.trans (h.execute sender (.burn [coin]) u)
  mint recipient coin _ := fun u hu => hu.trans (h.mint ⟨recipient, [coin]⟩ u)

/-! ### The record that a message names -/

/-- The message of a type that is read from a payload names the record of its factory under a key:
the denom, the class, or the NFT of a class that it is about. -/
inductive Names (config : FactoryConfig) : Variant → (typeUrl : String) → Bytes → Bytes → Prop
  | createDenom {value k : Bytes} {m : CreateDenom} (read : CreateDenom.codec.decode value = .ok m)
      (key : Generic.createdDenoms.fullKey (Generic.denomOf config m.sender m.subdenom) = .ok k) :
      Names config .generic CreateDenom.typeUrl value k
  | issueToken {value k : Bytes} {m : IssueToken} (read : IssueToken.codec.decode value = .ok m)
      (key : issuedTokens.fullKey (denomOf m.subunit m.issuer) = .ok k) :
      Names config .coreum IssueToken.typeUrl value k
  | issueClass {value k : Bytes} {m : IssueClass} (read : IssueClass.codec.decode value = .ok m)
      (key : classes.fullKey (classIdOf m.symbol m.issuer) = .ok k) :
      Names config .coreum IssueClass.typeUrl value k
  | mintNft {value k : Bytes} {m : MintNft} (read : MintNft.codec.decode value = .ok m)
      (key : nfts.fullKey (m.classId, m.id) = .ok k) :
      Names config .coreum MintNft.typeUrl value k
  | burnNft {value k : Bytes} {m : BurnNft} (read : BurnNft.codec.decode value = .ok m)
      (key : nfts.fullKey (m.classId, m.id) = .ok k) :
      Names config .coreum BurnNft.typeUrl value k
  | sendNft {value k : Bytes} {m : SendNft} (read : SendNft.codec.decode value = .ok m)
      (key : nfts.fullKey (m.classId, m.id) = .ok k) :
      Names config .coreum SendNft.typeUrl value k

/-- A factory's own records stay as they are, or the one that the message names changes. -/
def OwnChange (config : FactoryConfig) (variant : Variant) (typeUrl : String) (value : Bytes)
    (s t : Store) : Prop :=
  SameOwn variant s t ∨ ∃ k, Names config variant typeUrl value k ∧ SameOwnBut variant k s t

theorem Generic.Effect.ownChange {m : Generic.Message} (hhost : LeavesOwn .generic host)
    (hm : m.ReadFrom typeUrl value) (h : Generic.Effect config host sender m s t) :
    OwnChange config .generic typeUrl value s t := by
  have hkeeps := hhost.keeps s
  cases h with
  | create checked new fee saved =>
    obtain ⟨rfl, hread⟩ := hm
    have hnew : SameOwn .generic _ _ := (ensureNoSupply_keeps host _).of_runs .rfl new
    have hfee := (chargeFee_keeps hkeeps config .generic sender).of_runs hnew fee
    obtain ⟨k, hk, hbut⟩ := hfee.but_of_save saved
    exact Or.inr ⟨k, .createDenom hread hk, hbut⟩
  | mint named authorized created positive done =>
    exact Or.inl ((mintCoin_keeps hkeeps _ _ _).of_runs .rfl done)
  | burn named authorized positive done =>
    exact Or.inl ((burnCoin_keeps hkeeps _ _ _).of_runs .rfl done)

theorem Coreum.Effect.ownChange {m : Coreum.Message} (hhost : LeavesOwn .coreum host)
    (hm : m.ReadFrom typeUrl value) (h : Coreum.Effect config host sender m s t) :
    OwnChange config .coreum typeUrl value s t := by
  have hkeeps := hhost.keeps s
  cases h with
  | @issue m _ _ _ _ _ _ _ checked new fee minted saved =>
    obtain ⟨rfl, hread⟩ := hm
    have hnew : SameOwn .coreum _ _ := (ensureNoSupply_keeps host _).of_runs .rfl new
    have hfee := (chargeFee_keeps hkeeps config .coreum sender).of_runs hnew fee
    have hminted := (Coreum.mintInitial_keeps hkeeps _ m).of_runs hfee minted
    obtain ⟨k, hk, hbut⟩ := hminted.but_of_save saved
    exact Or.inr ⟨k, .issueToken hread hk, hbut⟩
  | mint named authorized issued positive done =>
    exact Or.inl ((mintCoin_keeps hkeeps _ _ _).of_runs .rfl done)
  | burn named authorized issued positive done =>
    exact Or.inl ((burnCoin_keeps hkeeps _ _ _).of_runs .rfl done)
  | issueClass issuer free saved =>
    obtain ⟨rfl, hread⟩ := hm
    obtain ⟨k, hk, hbut⟩ := SameOwn.rfl.but_of_save saved
    exact Or.inr ⟨k, .issueClass hread hk, hbut⟩
  | mintNft signed known issuer free saved =>
    obtain ⟨rfl, hread⟩ := hm
    obtain ⟨k, hk, hbut⟩ := SameOwn.rfl.but_of_save saved
    exact Or.inr ⟨k, .mintNft hread hk, hbut⟩
  | burnNft signed known live allowed deleted =>
    obtain ⟨rfl, hread⟩ := hm
    obtain ⟨k, hk, hbut⟩ := SameOwn.rfl.but_of_delete deleted
    exact Or.inr ⟨k, .burnNft hread hk, hbut⟩
  | sendNft known live checked receiver saved =>
    obtain ⟨rfl, hread⟩ := hm
    obtain ⟨k, hk, hbut⟩ := SameOwn.rfl.but_of_save saved
    exact Or.inr ⟨k, .sendNft hread hk, hbut⟩

/-! ### Both factories -/

/-- The factory of a variant runs a message. -/
def run (variant : Variant) (config : FactoryConfig) (host : Host) (sender typeUrl : String)
    (value : Bytes) : Action Response :=
  (StargateModule.factory variant config).execute host sender typeUrl value

theorem run_keepsOnFailure (hhost : host.Keeps P) :
    (run variant config host sender typeUrl value).KeepsOnFailure P := by
  cases variant with
  | generic => exact Generic.execute_keepsOnFailure hhost typeUrl value
  | coreum => exact Coreum.execute_keepsOnFailure hhost typeUrl value

theorem run_ownChange (hhost : LeavesOwn variant host) {r : Response}
    (h : (run variant config host sender typeUrl value).Runs s r t) :
    OwnChange config variant typeUrl value s t := by
  cases variant with
  | generic =>
    obtain ⟨m, hm, heffect⟩ := Generic.execute_effect h
    exact heffect.ownChange hhost (Generic.readFrom_of_ofWire hm)
  | coreum =>
    obtain ⟨m, hm, heffect⟩ := Coreum.execute_effect h
    exact heffect.ownChange hhost (Coreum.readFrom_of_ofWire hm)

/-! ### Messages about NFTs -/

/-- The types of the messages about NFTs and their classes. -/
def nftTypeUrls : List String :=
  [IssueClass.typeUrl, MintNft.typeUrl, BurnNft.typeUrl, SendNft.typeUrl]

/-- Messages about NFTs do with one host what they do with any other. -/
theorem run_nft (h : typeUrl ∈ nftTypeUrls) (host other : Host) :
    run variant config host sender typeUrl value =
      run variant config other sender typeUrl value := by
  cases variant with
  | generic =>
    refine Action.ofExcept_bind_congr fun m hm => ?_
    have hread := Generic.readFrom_of_ofWire hm
    cases m with
    | create | mint | burn => exact absurd (hread.1 ▸ h) (by decide)
  | coreum =>
    refine Action.ofExcept_bind_congr fun m hm => ?_
    have hread := Coreum.readFrom_of_ofWire hm
    cases m with
    | issue | mint | burn => exact absurd (hread.1 ▸ h) (by decide)
    | issueClass | mintNft | burnNft | sendNft => rfl

/-- A host that refuses everything. -/
def refusing : Host where
  query _ _ := Noted.fail (.raised "refused")
  execute _ _ := Action.fail (.raised "refused")
  mint _ := Action.fail (.raised "refused")

theorem refusing_keeps : refusing.Keeps P where
  burn _ _ _ := Action.keeps_fail
  mint _ _ _ := Action.keeps_fail

theorem not_runs_ensureNoSupply {denom : String} {r : Unit} :
    ¬ (ensureNoSupply refusing denom).Runs s r t := by
  simp only [ensureNoSupply, querySupply, Action.runs_bind, Action.runs_ask]
  rintro ⟨_, _, ⟨_, _, ⟨hanswer, -⟩, -⟩, -⟩
  cases hanswer

/-- What succeeds without a host leaves the balances as they are. -/
theorem run_refusing {r : Response}
    (h : (run variant config refusing sender typeUrl value).Runs s r t) :
    Store.SameUnder Bank.balances.root s t := by
  have quiet {K V : Type} {map : RecordMap K V} (hout : Store.SameOutside map.root s t)
      (hne : Bank.balances.name ≠ map.name) : Store.SameUnder Bank.balances.root s t :=
    RecordMap.sameUnder_of_sameOutside hout hne
  cases variant with
  | generic =>
    obtain ⟨m, -, heffect⟩ := Generic.execute_effect h
    cases heffect with
    | create checked new fee saved => exact absurd new not_runs_ensureNoSupply
    | mint named authorized created positive done => exact absurd done Action.not_runs_fail
    | burn named authorized positive done => exact absurd done Action.not_runs_fail
  | coreum =>
    obtain ⟨m, -, heffect⟩ := Coreum.execute_effect h
    cases heffect with
    | issue checked new fee minted saved => exact absurd new not_runs_ensureNoSupply
    | mint named authorized issued positive done => exact absurd done Action.not_runs_fail
    | burn named authorized issued positive done => exact absurd done Action.not_runs_fail
    | issueClass issuer free saved => exact quiet (RecordMap.sameOutside_save saved) (by decide)
    | mintNft signed known issuer free saved =>
      exact quiet (RecordMap.sameOutside_save saved) (by decide)
    | burnNft signed known live allowed deleted =>
      exact quiet (RecordMap.sameOutside_delete deleted) (by decide)
    | sendNft known live checked receiver saved =>
      exact quiet (RecordMap.sameOutside_save saved) (by decide)

theorem run_nft_balances (h : typeUrl ∈ nftTypeUrls) (host : Host) (s : Store) :
    Store.SameUnder Bank.balances.root s
      (run variant config host sender typeUrl value s).store := by
  rw [run_nft h host refusing]
  cases hresult : (run variant config refusing sender typeUrl value s).result with
  | ok r => exact run_refusing ⟨hresult, rfl⟩
  | error e => exact run_keepsOnFailure refusing_keeps s e .rfl hresult

/-! ### Hosts that leave the records alone -/

theorem sameOwn_of_sameOutside (h : Store.SameOutside Bank.balances.root s t) :
    SameOwn variant s t := by
  rintro k ⟨root, hroot, hk⟩
  -- the namespace of the balances has another name than each of the factory's
  cases variant with
  | generic =>
    obtain rfl := List.mem_singleton.mp hroot
    exact RecordMap.sameUnder_of_sameOutside h (by decide) k hk
  | coreum =>
    simp only [ownRoots, List.mem_cons, List.not_mem_nil, or_false] at hroot
    rcases hroot with rfl | rfl | rfl
    · exact RecordMap.sameUnder_of_sameOutside h (by decide) k hk
    · exact RecordMap.sameUnder_of_sameOutside h (by decide) k hk
    · exact RecordMap.sameUnder_of_sameOutside h (by decide) k hk

theorem leavesOwn_bank (variant : Variant) : LeavesOwn variant Bank.host where
  execute sender message s :=
    sameOwn_of_sameOutside ((Bank.execute_writesBalances sender message).sameOutside s)
  mint order s := sameOwn_of_sameOutside ((Bank.mint_writesBalances order).sameOutside s)

/-- What a scripted host replies is written nowhere. -/
theorem store_reply (call : HostCall) (reply : Reply) (s : Store) :
    ((Action.note (.call call) >>= fun _ => reply.run : Action Response) s).store = s := by
  cases reply <;> rfl

theorem leavesOwn_scripted (variant : Variant) (script : Script) :
    LeavesOwn variant script.host where
  execute sender message s k _ :=
    congrArg (Store.get? · k) (store_reply (.execute sender message) script.execute s)
  mint order s k _ := congrArg (Store.get? · k) (store_reply (.mint order) script.mint s)

/-! ### Any host -/

/-- **A factory's own records are written last and one at a time.**  With any host that leaves them
alone: a message that fails leaves them as they were, also without a transaction around it; one that
succeeds changes at most the one it names.  A message about NFTs comes to the same with every host
and leaves the balances as they were. -/
theorem own_records_written_last (hhost : LeavesOwn variant host) (config : FactoryConfig)
    (sender typeUrl : String) (value : Bytes) (s : Store) :
    (∀ e, (run variant config host sender typeUrl value s).result = .error e →
        SameOwn variant s (run variant config host sender typeUrl value s).store) ∧
      (∀ r, (run variant config host sender typeUrl value s).result = .ok r →
        OwnChange config variant typeUrl value s
          (run variant config host sender typeUrl value s).store) ∧
      (typeUrl ∈ nftTypeUrls →
        (∀ other, run variant config other sender typeUrl value s =
          run variant config host sender typeUrl value s) ∧
        Store.SameUnder Bank.balances.root s
          (run variant config host sender typeUrl value s).store) := by
  refine ⟨fun e herror => ?_, fun r hok => ?_, fun hnft => ⟨fun other => ?_, ?_⟩⟩
  · exact run_keepsOnFailure (hhost.keeps s) s e .rfl herror
  · exact run_ownChange hhost ⟨hok, rfl⟩
  · rw [run_nft hnft other host]
  · exact run_nft_balances hnft host s

/-- One account issues a class, and then nobody else can do so in its name. -/
theorem own_records_written_last_class :
    let value : Bytes := [204, 97, 131, 65, 82, 84, 128, 128, 128, 128, 192, 192, 128]
    let issued := run .coreum (.standard .coreum) Bank.host "a" IssueClass.typeUrl value .empty
    let refused := run .coreum (.standard .coreum) Bank.host "b" IssueClass.typeUrl value .empty
    OwnChange (.standard .coreum) .coreum IssueClass.typeUrl value .empty issued.store ∧
      Store.SameUnder Bank.balances.root .empty issued.store ∧
      SameOwn .coreum .empty refused.store := by
  intro value issued refused
  obtain ⟨r, hissued⟩ : ∃ r, issued.result = .ok r := ⟨_, rfl⟩
  obtain ⟨e, hrefused⟩ : ∃ e, refused.result = .error e := ⟨_, rfl⟩
  obtain ⟨-, hchange, hnft⟩ := own_records_written_last (leavesOwn_bank .coreum)
    (.standard .coreum) "a" IssueClass.typeUrl value .empty
  obtain ⟨hsame, -, -⟩ := own_records_written_last (leavesOwn_bank .coreum)
    (.standard .coreum) "b" IssueClass.typeUrl value .empty
  exact ⟨hchange r hissued, (hnft (by decide)).2, hsame e hrefused⟩

end TokenLedger.Factory
