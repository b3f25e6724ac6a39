import TokenLedger.Proofs.Chain.Action
import TokenLedger.Proofs.Store.Place

/-!
# Footprints of actions

An action reads no more than some keys if it has the same result on stores that agree on them, and
leaves stores that still agree (`Action.Reads`).  Together with the keys that it may write this is
its footprint.  Two actions of which neither writes what the other reads can be run in either order:
each has the result it has alone, and the store in the end is the same (`Footprint.commute`).
-/

namespace TokenLedger.Action

variable {α β : Type} {keys keys' written written' : Set Bytes}

/-! ### What an action reads -/

/-- On stores that agree on some keys, an action has the same result, and it leaves stores that
agree on them. -/
def Reads (keys : Set Bytes) (x : Action α) : Prop :=
  ∀ s t, Store.SameOn keys s t →
    (x t).result = (x s).result ∧ Store.SameOn keys (x s).store (x t).store

theorem reads_bind {x : Action α} {f : α → Action β} (hx : x.Reads keys)
    (hf : ∀ a, (f a).Reads keys) : (x >>= f).Reads keys := by
  intro s t h
  obtain ⟨hresult, hstore⟩ := hx s t h
  show (Action.bind x f t).result = (Action.bind x f s).result ∧
    Store.SameOn keys (Action.bind x f s).store (Action.bind x f t).store
  unfold Action.bind
  cases hs : (x s).result with
  | error e => simpa only [hs, hresult.trans hs, true_and] using hstore
  | ok a => simpa only [hs, hresult.trans hs] using hf a _ _ hstore

theorem reads_pure {a : α} : (pure a : Action α).Reads keys := fun _ _ h => ⟨rfl, h⟩

theorem reads_fail {e : Fault} : (fail e : Action α).Reads keys := fun _ _ h => ⟨rfl, h⟩

theorem reads_ofExcept {x : Except Fault α} : (ofExcept x).Reads keys := fun _ _ h => ⟨rfl, h⟩

theorem reads_read {f : Store → Except Fault α} (hf : ∀ s t, Store.SameOn keys s t → f t = f s) :
    (read f).Reads keys := fun s t h => ⟨hf s t h, h⟩

theorem reads_log {source text : String} {members : List (String × Json)} :
    (log source members text).Reads keys := fun _ _ h => ⟨rfl, h⟩

theorem reads_require {condition : Bool} {e : Fault} : (require condition e).Reads keys := by
  cases condition with
  | false => exact reads_fail
  | true => exact reads_pure

/-- What is saved may replace one of the keys that are read. -/
theorem reads_save {K V : Type} {m : RecordMap K V} {k : K} {v : V} :
    (write fun s => m.save s k v).Reads keys := by
  intro s t h
  unfold write RecordMap.save
  cases m.fullKey k with
  | error e => exact ⟨rfl, h⟩
  | ok b =>
    refine ⟨rfl, fun b' hb' => ?_⟩
    show (t.set b _).get? b' = (s.set b _).get? b'
    rw [Store.get?_set, Store.get?_set, h b' hb']

theorem reads_delete {K V : Type} {m : RecordMap K V} {k : K} :
    (write fun s => m.delete s k).Reads keys := by
  intro s t h
  unfold write RecordMap.delete
  cases m.fullKey k with
  | error e => exact ⟨rfl, h⟩
  | ok b =>
    refine ⟨rfl, fun b' hb' => ?_⟩
    show (t.remove b).get? b' = (s.remove b).get? b'
    rw [Store.get?_remove, Store.get?_remove, h b' hb']

/-- What is undone when it fails reads nothing more. -/
theorem Reads.orUndo {x : Action α} (hx : x.Reads keys) : x.orUndo.Reads keys := by
  intro s t h
  obtain ⟨hresult, hstore⟩ := hx s t h
  refine ⟨by rw [result_orUndo, result_orUndo, hresult], ?_⟩
  unfold Action.orUndo
  cases hs : (x s).result with
  | error e => simpa only [hs, hresult.trans hs] using h
  | ok a => simpa only [hs, hresult.trans hs] using hstore

/-! ### Footprints -/

/-- What an action reads, and what it writes of that. -/
structure Footprint (x : Action α) (keys written : Set Bytes) : Prop where
  reads : x.Reads keys
  writes : ∀ s, Store.SameBut written s (x s).store
  subset : written ⊆ keys

namespace Footprint

variable {x : Action α} {y : Action β}

/-- What another action writes does not matter to an action that does not read it. -/
theorem result_eq (hx : x.Footprint keys written) (hy : y.Footprint keys' written')
    (hapart : ∀ k ∈ keys, k ∉ written') (s : Store) : (x (y s).store).result = (x s).result :=
  (hx.reads s _ ((hy.writes s).sameOn hapart)).1

/-- Where an action writes, what another one has written before does not matter. -/
theorem get?_eq (hx : x.Footprint keys written) (hy : y.Footprint keys' written')
    (hapart : ∀ k ∈ keys, k ∉ written') (s : Store) {k : Bytes} (hk : k ∈ written) :
    (x (y s).store).store.get? k = (x s).store.get? k :=
  (hx.reads s _ ((hy.writes s).sameOn hapart)).2 k (hx.subset hk)

/-- Actions of which neither writes what the other reads can be run in either order. -/
theorem commute (hx : x.Footprint keys written) (hy : y.Footprint keys' written')
    (hapart : ∀ k ∈ keys, k ∉ written') (hapart' : ∀ k ∈ keys', k ∉ written) (s : Store) :
    (x (y s).store).result = (x s).result ∧ (y (x s).store).result = (y s).result ∧
      (y (x s).store).store = (x (y s).store).store := by
  refine ⟨hx.result_eq hy hapart s, hy.result_eq hx hapart' s, Store.ext_get? fun k => ?_⟩
  by_cases hk : k ∈ written
  · -- only `x` may have written the key
    have hother : k ∉ written' := hapart k (hx.subset hk)
    rw [hy.writes _ k hother, hx.get?_eq hy hapart s hk]
  · by_cases hk' : k ∈ written'
    · rw [hx.writes _ k hk, hy.get?_eq hx hapart' s hk']
    · rw [hy.writes _ k hk', hx.writes _ k hk, hx.writes _ k hk, hy.writes _ k hk']

end Footprint

end TokenLedger.Action
