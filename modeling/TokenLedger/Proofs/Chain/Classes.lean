import TokenLedger.Proofs.Chain.Run
import TokenLedger.Proofs.Factory.Nfts

/-!
# Classes in the runs of a chain

Every run of a chain with a Coreum factory leaves its NFTs in classes that exist, each under its own
key, and its classes under the ids they spell.  A class never changes and never goes, so that its id
is issued once.
-/

namespace TokenLedger.Chain

open Asset Bank Factory.Coreum

variable {c : Chain} {config : FactoryConfig} {s t : Store} {id : String} {cls : StoredClass}

/-- A call of a chain with a Coreum factory changes balances alone or has the effect of a
message. -/
theorem call_coreum_cases (hcore : c.stargate.core = .factory .coreum config) (s : Store)
    (call : Call) :
    Store.SameOutside balances.root s (c.call s call) ∨
      ∃ sender typeUrl value m, call = .tx sender (.stargate typeUrl value) ∧
        m.ReadFrom typeUrl value ∧ Effect config Bank.host sender m s (c.call s call) := by
  rcases call_stargate_cases c s call with hout | ⟨sender, typeUrl, value, r, htx, hrun⟩
  · exact Or.inl hout
  · rw [hcore] at hrun
    obtain ⟨m, hm, heffect⟩ := execute_effect hrun
    exact Or.inr ⟨sender, typeUrl, value, m, htx, readFrom_of_ofWire hm, heffect⟩

/-! ### One call -/

theorem call_load?_class (hcore : c.stargate.core = .factory .coreum config) (call : Call)
    (hc : classes.load? s id = .ok (some cls)) :
    classes.load? (c.call s call) id = .ok (some cls) := by
  rcases call_coreum_cases hcore s call with hout | ⟨sender, typeUrl, value, m, -, -, heffect⟩
  · rw [RecordMap.load?_congr (RecordMap.sameUnder_of_sameOutside hout (by decide)), hc]
  · exact heffect.load?_class hc

theorem call_classesNamed (hcore : c.stargate.core = .factory .coreum config)
    (hs : ClassesNamed s) (call : Call) : ClassesNamed (c.call s call) := by
  rcases call_coreum_cases hcore s call with hout | ⟨sender, typeUrl, value, m, -, -, heffect⟩
  · exact RecordMap.Holds.congr hs (RecordMap.sameUnder_of_sameOutside hout (by decide))
  · exact heffect.classesNamed hs

theorem call_nftsPlaced (hcore : c.stargate.core = .factory .coreum config)
    (hs : NftsPlaced s) (call : Call) : NftsPlaced (c.call s call) := by
  rcases call_coreum_cases hcore s call with hout | ⟨sender, typeUrl, value, m, -, -, heffect⟩
  · have hnfts := RecordMap.Holds.congr hs (RecordMap.sameUnder_of_sameOutside hout (by decide))
    exact hnfts.mono fun key n ⟨hclass, hid, cls, hcls⟩ =>
      ⟨hclass, hid, cls, call_load?_class hcore call hcls⟩
  · exact heffect.nftsPlaced hs

/-! ### Runs -/

theorem run_classesNamed (hcore : c.stargate.core = .factory .coreum config) (calls : List Call) :
    ClassesNamed (c.run calls) :=
  run_keeps RecordMap.holds_empty fun call _ _ hu => call_classesNamed hcore hu call

theorem run_nftsPlaced (hcore : c.stargate.core = .factory .coreum config) (calls : List Call) :
    NftsPlaced (c.run calls) :=
  run_keeps RecordMap.holds_empty fun call _ _ hu => call_nftsPlaced hcore hu call

/-- A class, once recorded, stays as it is along every run. -/
theorem runFrom_load?_class (hcore : c.stargate.core = .factory .coreum config)
    (calls : List Call) (hc : classes.load? s id = .ok (some cls)) :
    classes.load? (c.runFrom s calls) id = .ok (some cls) :=
  runFrom_keeps (P := fun s => classes.load? s id = .ok (some cls)) hc fun call _ _ hu =>
    call_load?_class hcore call hu

/-! ### Issuing a class -/

variable {sender : String} {value : Bytes} {m : IssueClass}

/-- A transaction that issues a class finds none under the id and leaves one. -/
theorem issueClass_runs (hcore : c.stargate.core = .factory .coreum config)
    (hm : IssueClass.codec.decode value = .ok m) {r : Response}
    (h : (c.execute sender (.stargate IssueClass.typeUrl value)).Runs s r t) :
    classes.load? s (classIdOf m.symbol m.issuer) = .ok none ∧
      classes.load? t (classIdOf m.symbol m.issuer) = .ok (some (.ofMessage m)) := by
  rw [execute_stargate, hcore] at h
  have hread : (Factory.Coreum.Message.issueClass m).ReadFrom IssueClass.typeUrl value := ⟨rfl, hm⟩
  cases effect_of_readFrom hread h with
  | issueClass issuer free saved =>
    exact ⟨RecordMap.load?_of_has_eq_false free, RecordMap.load?_save (readsBack_class _) saved⟩

/-- An id that was issued once is refused from then on. -/
theorem issueClass_refused (hcore : c.stargate.core = .factory .coreum config)
    (hm : IssueClass.codec.decode value = .ok m)
    (hc : classes.load? s (classIdOf m.symbol m.issuer) = .ok (some cls)) :
    ∃ e, (c.executeTx sender (.stargate IssueClass.typeUrl value) s).result = .error e := by
  rcases executeTx_cases c sender (.stargate IssueClass.typeUrl value) s with
    ⟨e, herror, -⟩ | ⟨r, t, hrun, -⟩
  · exact ⟨e, herror⟩
  · have hnone := (issueClass_runs hcore hm hrun).1
    rw [hc] at hnone
    cases hnone

/-- After any calls every NFT has its own class and id as its key and a class that exists, and every
class has the id it spells; whatever calls follow, the classes stay as they are, and an id that is
issued once is issued never again. -/
theorem referential_integrity (c : Chain) (hcore : c.stargate.core = .factory .coreum config)
    (calls : List Call) :
    NftsPlaced (c.run calls) ∧ ClassesNamed (c.run calls) ∧
      (∀ more id cls, classes.load? (c.run calls) id = .ok (some cls) →
        classes.load? (c.run (calls ++ more)) id = .ok (some cls)) ∧
      ∀ first second value value' m m' r more,
        IssueClass.codec.decode value = .ok m → IssueClass.codec.decode value' = .ok m' →
        m.issuer = m'.issuer → Text.lowercase m.symbol = Text.lowercase m'.symbol →
        (c.executeTx first (.stargate IssueClass.typeUrl value) (c.run calls)).result = .ok r →
        ∃ e, (c.executeTx second (.stargate IssueClass.typeUrl value')
          (c.run (calls ++ .tx first (.stargate IssueClass.typeUrl value) :: more))).result =
            .error e := by
  refine ⟨run_nftsPlaced hcore calls, run_classesNamed hcore calls, ?_, ?_⟩
  · intro more id cls hcls
    rw [run_append]
    exact runFrom_load?_class hcore more hcls
  · intro first second value value' m m' r more hm hm' hissuer hsymbol hr
    rcases executeTx_cases c first (.stargate IssueClass.typeUrl value) (c.run calls) with
      ⟨e, herror, -⟩ | ⟨r', t, hrun, -, hstore⟩
    · rw [herror] at hr
      cases hr
    · have hid : classIdOf m'.symbol m'.issuer = classIdOf m.symbol m.issuer := by
        unfold classIdOf
        rw [hissuer, hsymbol]
      have hkept := runFrom_load?_class hcore more (issueClass_runs hcore hm hrun).2
      rw [← hid, ← hstore] at hkept
      rw [run_append]
      exact issueClass_refused hcore hm' hkept

/-- A class that was issued under a symbol is not issued again under its lower-case form. -/
theorem referential_integrity_art :
    ∃ e, ((small .coreum).executeTx "a" (.stargate IssueClass.typeUrl
        [204, 97, 131, 97, 114, 116, 128, 128, 128, 128, 192, 192, 128])
      ((small .coreum).run smallGallery)).result = .error e := by
  obtain ⟨-, -, -, honce⟩ := referential_integrity (small .coreum) rfl []
  obtain ⟨r, hr⟩ : ∃ r, ((small .coreum).executeTx "a"
      (.stargate IssueClass.typeUrl smallClass) ((small .coreum).run [])).result = .ok r := ⟨_, rfl⟩
  exact honce "a" "a" _ _ ⟨"a", "ART", "", "", "", "", none, [], ""⟩
    ⟨"a", "art", "", "", "", "", none, [], ""⟩ r [] rfl rfl rfl (by decide +kernel) hr

end TokenLedger.Chain
