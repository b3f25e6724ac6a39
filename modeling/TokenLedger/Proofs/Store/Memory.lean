import Mathlib.Data.List.Forall2
import Mathlib.Data.List.Induction
import Mathlib.Logic.Function.Basic
import TokenLedger.Proofs.Store.Sheet

/-!
# A memory is a map with snapshots

What calls come to is told three times: of a map (`contents`), of a store (`stores`) and of a memory,
which has nothing but numbers of sheets to tell its snapshots by.  No snapshot is ever the sheet that
is written (`Memory.Keeps`), so that a memory goes through the same stores, and these through the
same maps (`refines_map`).
-/

namespace TokenLedger

/-! ### Histories -/

/-- Something that calls change, with what it was when each snapshot was taken. -/
structure History (α : Type) where
  now : α
  taken : List α

namespace History

variable {α β : Type}

/-- The history after a call: what is restored is what it was, and what is taken stays as it is. -/
def call (set : Bytes → Bytes → α → α) (remove : Bytes → α → α) (h : History α) :
    Memory.Call → History α
  | .set k v => { h with now := set k v h.now }
  | .remove k => { h with now := remove k h.now }
  | .snapshot => { h with taken := h.taken ++ [h.now] }
  | .restore i => { h with now := h.taken.getD i h.now }

/-- The history that calls come to. -/
def run (set : Bytes → Bytes → α → α) (remove : Bytes → α → α) (a : α) (calls : List Memory.Call) :
    History α :=
  calls.foldl (call set remove) ⟨a, []⟩

/-- A history as it is seen through a function. -/
def map (f : α → β) (h : History α) : History β := ⟨f h.now, h.taken.map f⟩

variable {set : Bytes → Bytes → α → α} {remove : Bytes → α → α} {set' : Bytes → Bytes → β → β}
  {remove' : Bytes → β → β} {f : α → β}

theorem run_concat (a : α) (calls : List Memory.Call) (c : Memory.Call) :
    run set remove a (calls ++ [c]) = (run set remove a calls).call set remove c :=
  List.foldl_concat ..

theorem map_call (hset : ∀ k v a, f (set k v a) = set' k v (f a))
    (hremove : ∀ k a, f (remove k a) = remove' k (f a)) (h : History α) (c : Memory.Call) :
    (h.call set remove c).map f = (h.map f).call set' remove' c := by
  cases c with
  | set k v => simp only [call, map, hset]
  | remove k => simp only [call, map, hremove]
  | snapshot => simp [call, map]
  | restore i => simp only [call, map, List.getD_eq_getElem?_getD, List.getElem?_map, Option.getD_map]

/-- What a function sees of each change it sees of a whole history. -/
theorem map_run (hset : ∀ k v a, f (set k v a) = set' k v (f a))
    (hremove : ∀ k a, f (remove k a) = remove' k (f a)) (a : α) (calls : List Memory.Call) :
    (run set remove a calls).map f = run set' remove' (f a) calls := by
  induction calls using List.reverseRecOn with
  | nil => rfl
  | append_singleton calls c ih =>
    rw [run_concat, run_concat, map_call hset hremove, ih]

/-- A history is only ever added to. -/
theorem isPrefix_taken (h : History α) (calls : List Memory.Call) :
    h.taken <+: (calls.foldl (call set remove) h).taken := by
  induction calls generalizing h with
  | nil => exact List.prefix_rfl
  | cons c calls ih =>
    refine List.IsPrefix.trans ?_ (ih (h.call set remove c))
    cases c with
    | snapshot => exact List.prefix_append _ _
    | set k v => exact List.prefix_rfl
    | remove k => exact List.prefix_rfl
    | restore i => exact List.prefix_rfl

theorem length_taken_run (a : α) (calls : List Memory.Call) :
    (run set remove a calls).taken.length = calls.count .snapshot := by
  induction calls using List.reverseRecOn with
  | nil => rfl
  | append_singleton calls c ih =>
    rw [List.count_append, ← ih, run_concat]
    cases c <;> simp [call]

/-- Whatever is called in between, a snapshot restores what there was when it was taken. -/
theorem now_restore (a : α) (calls between : List Memory.Call) :
    (run set remove a
      (calls ++ .snapshot :: (between ++ [.restore (calls.count .snapshot)]))).now =
      (run set remove a calls).now := by
  let before := run set remove a calls
  let after := between.foldl (call set remove) (before.call set remove .snapshot)
  obtain ⟨later, hlater⟩ : before.taken ++ [before.now] <+: after.taken :=
    isPrefix_taken (before.call set remove .snapshot) between
  have hrun : run set remove a
      (calls ++ .snapshot :: (between ++ [.restore (calls.count .snapshot)])) =
      after.call set remove (.restore (calls.count .snapshot)) := by
    rw [run, List.foldl_append, List.foldl_cons, List.foldl_concat]
    rfl
  have hlength : before.taken.length = calls.count .snapshot := length_taken_run a calls
  rw [hrun]
  show after.taken.getD (calls.count .snapshot) after.now = before.now
  rw [← hlater, ← hlength, List.getD_eq_getElem?_getD, List.append_assoc,
    List.getElem?_append_right (Nat.le_refl _), Nat.sub_self]
  rfl

end History

/-! ### Maps and stores -/

/-- What stands under every key. -/
abbrev Contents := Bytes → Option Bytes

/-- What calls come to in a map, from nothing on. -/
def contents (calls : List Memory.Call) : History Contents :=
  .run (fun k v f => Function.update f k (some v)) (fun k f => Function.update f k none)
    (fun _ => none) calls

/-- What calls come to in a store, where a snapshot is the store itself. -/
def stores (calls : List Memory.Call) : History Store :=
  .run (fun k v s => s.set k v) (fun k s => s.remove k) .empty calls

/-- A reader answers as a map says: a value is what stands under the key, and a listing has the keys
at or above the one bound and below the other, in ascending order and therefore each once, with what
stands under them, or the same from its end. -/
structure Contents.ShownBy (f : Contents) (get? : Bytes → Option Bytes)
    (range : Option Bytes → Option Bytes → Store.Order → List Entry) : Prop where
  get : ∀ k, get? k = f k
  mem : ∀ start stop k v, (k, v) ∈ range start stop .ascending ↔
    f k = some v ∧ (∀ b ∈ start, b ≤ k) ∧ ∀ b ∈ stop, k < b
  ascending : ∀ start stop, Ascending (range start stop .ascending)
  descending : ∀ start stop, range start stop .descending = (range start stop .ascending).reverse

theorem Store.inBounds_iff {start stop : Option Bytes} {k : Bytes} :
    inBounds start stop k = true ↔ (∀ b ∈ start, b ≤ k) ∧ ∀ b ∈ stop, k < b := by
  have hle : ∀ b : Bytes, (!decide (k < b)) = true ↔ b ≤ k := fun b => by
    rw [Bool.not_eq_true', decide_eq_false_iff_not]
    exact Iff.rfl
  cases start <;> cases stop <;>
    simp only [inBounds, Option.all_none, Option.all_some, Bool.and_eq_true, hle, decide_eq_true_eq,
      Option.mem_def, Option.some.injEq, forall_eq', reduceCtorEq, false_implies, implies_true]

theorem Store.shown (s : Store) : Contents.ShownBy s.get? s.get? s.range where
  get _ := rfl
  mem start stop k v := by
    show (k, v) ∈ s.entries.filter _ ↔ _
    rw [List.mem_filter, mem_entries_iff, inBounds_iff]
  ascending start stop := s.ascending.filter _
  descending _ _ := rfl

/-- The maps that a store goes through are those that the calls come to. -/
theorem map_stores (calls : List Memory.Call) : (stores calls).map Store.get? = contents calls := by
  refine History.map_run (fun k v s => funext fun k' => ?_) (fun k s => funext fun k' => ?_) _ calls
  · rw [Store.get?_set, Function.update_apply]
  · rw [Store.get?_remove, Function.update_apply]

namespace Memory

variable {m : Memory} {n : Nat} {s : Store}

/-! ### What a memory keeps -/

theorem getElem?_current (m : Memory) : m.sheets[m.current]? = some m.sheet :=
  List.getElem?_eq_getElem m.isSheet

@[simp] theorem sheet_write (m : Memory) (f : Sheet → Sheet) : (m.write f).sheet = f m.sheet := by
  have hwritten := (m.write f).getElem?_current
  have hcurrent : (m.write f).sheets[(m.write f).current]? = some (f m.sheet) := by
    show (m.sheets.modify m.current f)[m.current]? = _
    rw [List.getElem?_modify_eq, getElem?_current]
    rfl
  exact Option.some.inj (hwritten.symm.trans hcurrent)

@[simp] theorem sheet_snapshot (m : Memory) : m.snapshot.1.sheet = m.sheet := by
  have hcurrent : m.snapshot.1.sheets[m.snapshot.1.current]? = some m.sheet := by
    show (m.sheets ++ [m.sheet])[m.current]? = _
    rw [List.getElem?_append_left m.isSheet, getElem?_current]
  exact Option.some.inj (m.snapshot.1.getElem?_current.symm.trans hcurrent)

/-- A sheet that is not the current one has the entries of a store. -/
structure Keeps (m : Memory) (n : Nat) (s : Store) : Prop where
  apart : n ≠ m.current
  sheet : (m.sheets[n]?).map Sheet.toStore = some s

theorem Keeps.lt (h : m.Keeps n s) : n < m.sheets.length := by
  obtain ⟨t, ht, -⟩ := Option.map_eq_some_iff.mp h.sheet
  exact (List.getElem?_eq_some_iff.mp ht).1

/-- What is written is not what is kept. -/
theorem Keeps.write (h : m.Keeps n s) (f : Sheet → Sheet) : (m.write f).Keeps n s where
  apart := h.apart
  sheet := by
    show ((m.sheets.modify m.current f)[n]?).map Sheet.toStore = some s
    rw [List.getElem?_modify_ne _ _ h.apart.symm]
    exact h.sheet

theorem Keeps.snapshot (h : m.Keeps n s) : m.snapshot.1.Keeps n s where
  apart := h.apart
  sheet := by
    show ((m.sheets ++ [m.sheet])[n]?).map Sheet.toStore = some s
    rw [List.getElem?_append_left h.lt]
    exact h.sheet

theorem keeps_snapshot (m : Memory) : m.snapshot.1.Keeps m.snapshot.2 m.sheet.toStore where
  apart := Nat.ne_of_gt m.isSheet
  sheet := by
    show ((m.sheets ++ [m.sheet])[m.sheets.length]?).map Sheet.toStore = _
    rw [List.getElem?_concat_length]
    rfl

/-- What is restored is copied behind the sheets that there are, and gone on with. -/
theorem restore_of_getElem? {t : Sheet} (h : m.sheets[n]? = some t) :
    (m.restore n).sheets = m.sheets ++ [t] ∧ (m.restore n).current = m.sheets.length := by
  unfold restore
  split
  · rename_i heq
    obtain rfl := Option.some.inj (heq.symm.trans h)
    exact ⟨rfl, rfl⟩
  · rename_i heq
    rw [h] at heq
    cases heq

/-- The sheet that is gone on with is a new one. -/
theorem Keeps.restore (h : m.Keeps n s) {n' : Nat} {s' : Store} (h' : m.Keeps n' s') :
    (m.restore n').Keeps n s := by
  obtain ⟨t, ht, -⟩ := Option.map_eq_some_iff.mp h'.sheet
  obtain ⟨hsheets, hcurrent⟩ := restore_of_getElem? ht
  refine ⟨hcurrent ▸ Nat.ne_of_lt h.lt, ?_⟩
  rw [hsheets, List.getElem?_append_left h.lt]
  exact h.sheet

theorem Keeps.toStore_restore (h : m.Keeps n s) : (m.restore n).sheet.toStore = s := by
  obtain ⟨t, ht, hs⟩ := Option.map_eq_some_iff.mp h.sheet
  obtain ⟨hsheets, hcurrent⟩ := restore_of_getElem? ht
  have hsheet := (m.restore n).getElem?_current
  rw [hsheets, hcurrent, List.getElem?_concat_length] at hsheet
  rw [← hs, ← Option.some.inj hsheet]

/-! ### Sessions -/

/-- The current sheet has the entries of the store of a history, and every snapshot is kept. -/
structure Session.Tracks (x : Session) (h : History Store) : Prop where
  now : x.memory.sheet.toStore = h.now
  taken : List.Forall₂ x.memory.Keeps x.taken h.taken

namespace Session

variable {x : Session} {h : History Store}

theorem tracks_start : start.Tracks ⟨.empty, []⟩ := ⟨rfl, .nil⟩

theorem Tracks.taken_cases (hx : x.Tracks h) (i : Nat) :
    (x.taken[i]? = none ∧ h.taken[i]? = none) ∨
      ∃ n s, x.taken[i]? = some n ∧ h.taken[i]? = some s ∧ x.memory.Keeps n s := by
  by_cases hi : i < x.taken.length
  · have hi' : i < h.taken.length := hx.taken.length_eq ▸ hi
    exact Or.inr ⟨_, _, List.getElem?_eq_getElem hi, List.getElem?_eq_getElem hi',
      hx.taken.get hi hi'⟩
  · have hi' : ¬ i < h.taken.length := hx.taken.length_eq ▸ hi
    exact Or.inl ⟨List.getElem?_eq_none (Nat.le_of_not_lt hi),
      List.getElem?_eq_none (Nat.le_of_not_lt hi')⟩

/-- A call is to a memory what it is to a store. -/
theorem Tracks.call (hx : x.Tracks h) (c : Call) :
    (x.call c).Tracks (h.call (fun k v s => s.set k v) (fun k s => s.remove k) c) := by
  cases c with
  | set k v =>
    refine ⟨?_, hx.taken.imp fun _ _ hn => hn.write _⟩
    show (x.memory.write (·.set k v)).sheet.toStore = h.now.set k v
    rw [sheet_write, Sheet.toStore_set, hx.now]
  | remove k =>
    refine ⟨?_, hx.taken.imp fun _ _ hn => hn.write _⟩
    show (x.memory.write (·.remove k)).sheet.toStore = h.now.remove k
    rw [sheet_write, Sheet.toStore_remove, hx.now]
  | snapshot =>
    refine ⟨?_, List.rel_append (hx.taken.imp fun _ _ hn => hn.snapshot) (.cons ?_ .nil)⟩
    · show x.memory.snapshot.1.sheet.toStore = h.now
      rw [sheet_snapshot, hx.now]
    · rw [← hx.now]
      exact x.memory.keeps_snapshot
  | restore i =>
    simp only [Session.call, History.call]
    rcases hx.taken_cases i with ⟨hnone, hnone'⟩ | ⟨n, s, hn, hs, hkeeps⟩
    · rw [hnone, List.getD_eq_getElem?_getD, hnone']
      exact hx
    · rw [hn, List.getD_eq_getElem?_getD, hs]
      exact ⟨hkeeps.toStore_restore, hx.taken.imp fun _ _ hkept => hkept.restore hkeeps⟩

theorem tracks_run (calls : List Call) : (run calls).Tracks (stores calls) := by
  induction calls using List.reverseRecOn with
  | nil => exact tracks_start
  | append_singleton calls c ih =>
    rw [run, stores, List.foldl_concat, History.run_concat]
    exact ih.call c

end Session

/-- **A memory refines an ordered map with snapshots.**  After any calls it answers as the map says
that the calls come to, and so does the store that the rest of the library goes on with, which has
the same entries.  Going back to a snapshot undoes whatever was called since it was taken. -/
theorem refines_map (calls : List Call) :
    (contents calls).now.ShownBy (Session.run calls).memory.sheet.get?
        (Session.run calls).memory.sheet.range ∧
      (contents calls).now.ShownBy (stores calls).now.get? (stores calls).now.range ∧
      (Session.run calls).memory.sheet.toStore = (stores calls).now ∧
      ∀ between, (Session.run
        (calls ++ .snapshot :: (between ++ [.restore (calls.count .snapshot)]))).memory.sheet.get? =
          (Session.run calls).memory.sheet.get? := by
  have hnow : ∀ calls, (Session.run calls).memory.sheet.toStore = (stores calls).now :=
    fun calls => (Session.tracks_run calls).now
  have hget : ∀ calls, (Session.run calls).memory.sheet.get? = (stores calls).now.get? :=
    fun calls => funext fun k => by rw [Sheet.get?_toStore, hnow]
  have hrange : (Session.run calls).memory.sheet.range = (stores calls).now.range := by
    funext start stop order
    rw [Sheet.range_toStore, hnow]
  have hshown : (contents calls).now.ShownBy (stores calls).now.get? (stores calls).now.range := by
    rw [← map_stores]
    exact (stores calls).now.shown
  refine ⟨?_, hshown, hnow calls, fun between => ?_⟩
  · rw [hget, hrange]
    exact hshown
  · rw [hget, hget, stores, History.now_restore]
    rfl

/-- The older of two snapshots is gone back to after the newer one, and the newer one again. -/
example :
    let calls : List Call :=
      [.set [1] [2], .snapshot, .set [1] [3], .snapshot, .remove [1], .restore 1, .restore 0]
    (Session.run calls).memory.sheet.get? [1] = some [2] ∧
      (Session.run (calls ++ [.restore 1])).memory.sheet.get? [1] = some [3] := by decide

end Memory

end TokenLedger
