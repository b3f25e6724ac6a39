import TokenLedger.Proofs.Chain.Transactions
import TokenLedger.Proofs.Store.Memory

/-!
# Transactions on a memory

A store that is written in place cannot be handed back as it was: a transaction takes a snapshot,
carries out its message or order with writes in place, and goes back to the snapshot if that fails.
Whatever writes are made, as long as they lead to the store that the message or order leaves, a
memory goes through the stores of `Chain.history`, that is of `executeTx` and `executeSudoTx`, in
which a failure hands back the store it was given (`history_of_ranOn`).
-/

namespace TokenLedger

/-! ### Writes in place -/

/-- A write in place: a key gets a value, or it is taken away. -/
abbrev Write := Bytes × Option Bytes

/-- What a write asks of a memory. -/
def Write.call : Write → Memory.Call
  | (k, some v) => .set k v
  | (k, none) => .remove k

namespace Store

variable {s t : Store} {k : Bytes} {o : Option Bytes} {ws : List Write}

/-- The store after a write. -/
def write (s : Store) : Write → Store
  | (k, some v) => s.set k v
  | (k, none) => s.remove k

theorem get?_write (s : Store) (w : Write) (k : Bytes) :
    (s.write w).get? k = if k = w.1 then w.2 else s.get? k := by
  obtain ⟨k', o⟩ := w
  cases o with
  | some v => exact s.get?_set k' v k
  | none => exact s.get?_remove k' k

/-- Writes of what stands in a store come to that store under the keys that are written. -/
theorem get?_foldl_write (h : ∀ w ∈ ws, t.get? w.1 = w.2) (s : Store) (k : Bytes) :
    (ws.foldl write s).get? k = if k ∈ ws.map (·.1) then t.get? k else s.get? k := by
  induction ws generalizing s with
  | nil => rfl
  | cons w ws ih =>
    obtain ⟨hw, hws⟩ := List.forall_mem_cons.mp h
    rw [List.foldl_cons, ih hws, get?_write, List.map_cons]
    by_cases hlater : k ∈ ws.map (·.1)
    · rw [if_pos hlater, if_pos (List.mem_cons_of_mem _ hlater)]
    · rw [if_neg hlater]
      by_cases hk : k = w.1
      · rw [if_pos hk, if_pos (hk ▸ List.mem_cons_self), hk, hw]
      · rw [if_neg hk, if_neg (List.not_mem_cons_of_ne_of_not_mem hk hlater)]

/-- The changes between two stores are the keys whose values differ, with the later ones. -/
theorem mem_changes : (k, o) ∈ changes s t ↔ t.get? k = o ∧ s.get? k ≠ o := by
  simp only [changes, List.mem_mergeSort, List.mem_append, List.mem_map, List.mem_filter,
    Prod.exists, mem_entries_iff, Prod.mk.injEq, bne_iff_ne, Option.isNone_iff_eq_none]
  constructor
  · rintro (⟨k', v, ⟨hlater, hne⟩, rfl, rfl⟩ | ⟨k', v, ⟨hearlier, hnone⟩, rfl, rfl⟩)
    · exact ⟨hlater, hne⟩
    · exact ⟨hnone, fun heq => Option.some_ne_none v (hearlier.symm.trans heq)⟩
  · rintro ⟨hlater, hne⟩
    cases o with
    | some v => exact Or.inl ⟨k, v, ⟨hlater, hne⟩, rfl, rfl⟩
    | none =>
      obtain ⟨v, hearlier⟩ := Option.ne_none_iff_exists'.mp hne
      exact Or.inr ⟨k, v, ⟨hearlier, hlater⟩, rfl, rfl⟩

/-- To write the changes is one way from a store to another. -/
theorem foldl_write_changes (s t : Store) : (changes s t).foldl write s = t := by
  refine ext_get? fun k => ?_
  rw [get?_foldl_write fun w hw => (mem_changes.mp hw).1]
  by_cases hk : k ∈ (changes s t).map (·.1)
  · rw [if_pos hk]
  · rw [if_neg hk]
    by_contra hne
    exact hk (List.mem_map.mpr ⟨(k, t.get? k), mem_changes.mpr ⟨rfl, hne⟩, rfl⟩)

end Store

/-! ### One transaction -/

namespace Memory.Session

variable {x : Session} {h : History Store}

/-- The store with the entries of the current sheet. -/
def store (x : Session) : Store := x.memory.sheet.toStore

/-- The session after writes in place. -/
def write (x : Session) (ws : List Write) : Session := ws.foldl (fun x w => x.call w.call) x

/-- The session after a transaction: a snapshot, then writes, and then the way back to the snapshot
unless the transaction succeeds. -/
def transact (x : Session) (ws : List Write) (succeeds : Bool) : Session :=
  let written := (x.call .snapshot).write ws
  if succeeds then written else written.call (.restore x.taken.length)

/-- After any writes, also in the middle of a transaction, the current sheet has the entries of the
store that they come to. -/
theorem Tracks.write (hx : x.Tracks h) (ws : List Write) :
    (x.write ws).Tracks ⟨ws.foldl Store.write h.now, h.taken⟩ := by
  induction ws generalizing x h with
  | nil => exact hx
  | cons w ws ih =>
    have hw : (x.call w.call).Tracks ⟨h.now.write w, h.taken⟩ := by
      obtain ⟨k, o⟩ := w
      cases o with
      | some v => exact hx.call (.set k v)
      | none => exact hx.call (.remove k)
    exact ih hw

/-- The snapshot is the last one taken, so that the way back leads to the store that there was. -/
theorem Tracks.transact (hx : x.Tracks h) (ws : List Write) (succeeds : Bool) :
    (x.transact ws succeeds).Tracks
      ⟨if succeeds then ws.foldl Store.write h.now else h.now, h.taken ++ [h.now]⟩ := by
  have hbegun : (x.call .snapshot).Tracks ⟨h.now, h.taken ++ [h.now]⟩ := hx.call .snapshot
  have hwritten := hbegun.write ws
  cases succeeds with
  | true => exact hwritten
  | false =>
    have hlength : x.taken.length = h.taken.length := hx.taken.length_eq
    have hback := hwritten.call (.restore x.taken.length)
    rw [History.call, hlength, List.getD_eq_getElem?_getD, List.getElem?_concat_length] at hback
    rw [← hlength] at hback
    exact hback

/-- What was written before the failure is gone with it. -/
example :
    let x := Session.run [.set [1] [2]]
    (x.transact [([1], some [3]), ([4], some [5])] true).memory.sheet.get? [1] = some [3] ∧
      (x.transact [([1], some [3]), ([4], some [5])] false).memory.sheet.get? [1] = some [2] := by
  decide

end Memory.Session

/-! ### Histories -/

namespace Chain

open Memory

variable {c : Chain} {x y : Session} {h : History Store} {tx : Transaction}
  {txs : List Transaction} {results : List (Except Fault Response)} {ws : List Write}

/-- Transactions are run on a memory, one after another, with some results. -/
inductive RanOn (c : Chain) :
    Session → List Transaction → List (Except Fault Response) → Session → Prop
  | nil (x : Session) : RanOn c x [] [] x
  | cons {x y : Session} {tx : Transaction} {txs : List Transaction}
      {results : List (Except Fault Response)} {ws : List Write}
      (written : ws.foldl Store.write x.store = (c.perform tx x.store).store)
      (rest : RanOn c (x.transact ws (c.perform tx x.store).result.isOk) txs results y) :
      RanOn c x (tx :: txs) ((c.perform tx x.store).result :: results) y

/-- A transaction on a memory comes to what the transaction comes to on its store. -/
theorem tracks_transact (hx : x.Tracks h)
    (written : ws.foldl Store.write x.store = (c.perform tx x.store).store) :
    (x.transact ws (c.perform tx x.store).result.isOk).Tracks
        ⟨(c.transact tx x.store).store, h.taken ++ [x.store]⟩ ∧
      (c.transact tx x.store).result = (c.perform tx x.store).result := by
  have hnow : x.store = h.now := hx.now
  have htracks := hx.transact ws (c.perform tx x.store).result.isOk
  rw [← hnow, written] at htracks
  rcases transact_cases c x.store tx with
    ⟨r, t, ⟨hresult, hstore⟩, ⟨hresult', hstore'⟩⟩ | ⟨e, herror, herror', hstore'⟩
  · rw [hresult, hstore] at htracks
    rw [hstore', hresult', hresult]
    exact ⟨htracks, rfl⟩
  · rw [herror] at htracks
    rw [hstore', herror', herror]
    exact ⟨htracks, rfl⟩

/-- A run on a memory has the results of the history on its store and leaves the same entries. -/
theorem history_eq_of_ranOn (hran : c.RanOn x txs results y) (hx : x.Tracks h) :
    c.history x.store txs = (results, y.store) := by
  induction hran generalizing h with
  | nil x => rfl
  | @cons x y tx txs results ws written rest ih =>
    obtain ⟨htracks, hresult⟩ := tracks_transact hx written
    have hstore : (x.transact ws (c.perform tx x.store).result.isOk).store =
        (c.transact tx x.store).store := htracks.now
    have hlater := ih htracks
    rw [hstore] at hlater
    rw [history_cons, hlater, hresult]

/-- Any transactions can be run: to write the changes is one way to write them. -/
theorem exists_ranOn (c : Chain) (x : Session) (txs : List Transaction) :
    ∃ results y, c.RanOn x txs results y := by
  induction txs generalizing x with
  | nil => exact ⟨[], x, .nil x⟩
  | cons tx txs ih =>
    have written := Store.foldl_write_changes x.store (c.perform tx x.store).store
    obtain ⟨results, y, hrest⟩ := ih (x.transact (Store.changes x.store (c.perform tx x.store).store)
      (c.perform tx x.store).result.isOk)
    exact ⟨_, y, .cons written hrest⟩

/-- **A memory runs transactions as they are defined on stores.**  After any calls to a memory, any
transactions can be run on it with snapshots, writes in place and ways back.  Whatever is written
in place, the results are those of the history on the store, and what the memory answers in the end
is what the store in the end answers; what a failed transaction has written is not in it. -/
theorem history_of_ranOn (c : Chain) (calls : List Memory.Call) (txs : List Transaction) :
    (∃ results y, c.RanOn (Session.run calls) txs results y) ∧
      ∀ results y, c.RanOn (Session.run calls) txs results y →
        (c.history (stores calls).now txs).1 = results ∧
          y.memory.sheet.get? = (c.history (stores calls).now txs).2.get? ∧
          y.memory.sheet.range = (c.history (stores calls).now txs).2.range := by
  refine ⟨exists_ranOn c (Session.run calls) txs, fun results y hran => ?_⟩
  have hx := Session.tracks_run calls
  have hnow : (Session.run calls).store = (stores calls).now := hx.now
  have hhistory := history_eq_of_ranOn hran hx
  rw [hnow] at hhistory
  rw [hhistory]
  refine ⟨rfl, funext fun k => Sheet.get?_toStore .., ?_⟩
  funext start stop order
  exact Sheet.range_toStore ..

end Chain

end TokenLedger
