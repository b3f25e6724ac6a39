import Mathlib.Logic.Function.Basic
import TokenLedger.Proofs.Store.Listing

/-!
# Record maps do not disturb each other

Record maps of different names share a store as if each had a table of its own.  A table tells what
stands under every key, and a change of it is a map's save or delete (`Change.on`).  A change that is
carried out on one map is seen by that map as the change of its table (`Reflects.change`) and by no
other (`Reflects.congr`), so that after any changes of any of the maps each one shows the table that
its own changes come to, and its listing is exactly that table.
-/

namespace TokenLedger

/-! ### Tables -/

/-- What stands under every key. -/
abbrev Table (K V : Type) := K → Option V

/-- A change of a table: a value under a key, or nothing there. -/
inductive Change (K V : Type)
  | save (k : K) (v : V)
  | delete (k : K)
deriving DecidableEq, Repr

namespace Change

variable {K V : Type}

/-- The key that is changed. -/
def key : Change K V → K
  | .save k _ | .delete k => k

/-- What stands under the key afterwards. -/
def value? : Change K V → Option V
  | .save _ v => some v
  | .delete _ => none

/-- The table after a change. -/
def on [DecidableEq K] (f : Table K V) (x : Change K V) : Table K V :=
  Function.update f x.key x.value?

end Change

/-- The table that changes of an empty one come to. -/
def Table.after {K V : Type} [DecidableEq K] (xs : List (Change K V)) : Table K V :=
  xs.foldl Change.on fun _ => none

namespace RecordMap

section OneMap

variable {K V : Type} {m : RecordMap K V} {s t : Store} {f : Table K V} {x : Change K V}

/-- The store after a change of a map. -/
def change (m : RecordMap K V) (s : Store) : Change K V → Except Fault Store
  | .save k v => m.save s k v
  | .delete k => m.delete s k

/-- A change that a map can carry out: its key can be written, and a value is read back. -/
structure Admits (m : RecordMap K V) (x : Change K V) : Prop where
  key : ∃ b, m.key.encode x.key = .ok b
  value : ∀ v, x.value? = some v → m.ReadsBack v

/-- A map shows a table: whatever key is asked for, what stands under it is found and loaded, and a
listing has what stands in the table, each key once, in the order of the bytes of the keys or from
its end. -/
structure Shows (m : RecordMap K V) (f : Table K V) (s : Store) : Prop where
  has : ∀ k b, m.key.encode k = .ok b → m.has s k = .ok (f k).isSome
  load : ∀ k b, m.key.encode k = .ok b → m.load? s k = .ok (f k)
  listing : ∃ all, m.entries s .ascending = .ok all ∧ m.entries s .descending = .ok all.reverse ∧
    (∀ k v, (k, v) ∈ all ↔ f k = some v) ∧
    all.Pairwise fun r r' =>
      ∃ b b', m.key.encode r.1 = .ok b ∧ m.key.encode r'.1 = .ok b' ∧ b < b'

/-! ### What one map sees -/

/-- What stands under a map are records, and they are those of a table. -/
structure Reflects (m : RecordMap K V) (f : Table K V) (s : Store) : Prop where
  holds : m.Holds (fun _ _ => True) s
  load : ∀ k v, m.load? s k = .ok (some v) ↔ f k = some v

theorem reflects_empty : m.Reflects (fun _ => none) .empty where
  holds := holds_empty
  load k v := by
    constructor
    · intro h
      obtain ⟨b, hk⟩ := fullKey_of_load? h
      obtain ⟨raw, hb, -⟩ := (load?_eq_some_iff hk).mp h
      cases hb
    · intro h
      cases h

/-- A map does not see what changes elsewhere. -/
theorem Reflects.congr (h : m.Reflects f s) (hsame : Store.SameUnder m.root s t) :
    m.Reflects f t where
  holds := h.holds.congr hsame
  load k v := by rw [load?_congr hsame, h.load]

theorem exists_change (hx : m.Admits x) (s : Store) : ∃ t, m.change s x = .ok t := by
  obtain ⟨b, hb⟩ := hx.key
  have hk : m.fullKey x.key = .ok (m.root ++ b) := fullKey_eq_ok.mpr ⟨b, hb, rfl⟩
  cases x with
  | save k v => exact ⟨_, save_eq_ok.mpr ⟨_, hk, rfl⟩⟩
  | delete k => exact ⟨_, delete_eq_ok.mpr ⟨_, hk, rfl⟩⟩

theorem sameOutside_change (h : m.change s x = .ok t) : Store.SameOutside m.root s t := by
  cases x with
  | save k v => exact sameOutside_save h
  | delete k => exact sameOutside_delete h

theorem load?_change (hx : m.Admits x) (h : m.change s x = .ok t) :
    m.load? t x.key = .ok x.value? := by
  cases x with
  | save k v => exact load?_save (hx.value v rfl) h
  | delete k => exact load?_delete h

theorem Holds.change {P : K → V → Prop} (hs : m.Holds P s) (hx : m.Admits x)
    (hP : ∀ v, x.value? = some v → P x.key v) (h : m.change s x = .ok t) : m.Holds P t := by
  cases x with
  | save k v => exact hs.save (hx.value v rfl) (hP v rfl) h
  | delete k => exact hs.delete h

variable [m.key.Lawful]

theorem load?_change_of_ne {k : K} (hne : k ≠ x.key) (h : m.change s x = .ok t) :
    m.load? t k = m.load? s k := by
  cases x with
  | save k' v => exact load?_save_of_ne hne h
  | delete k' => exact load?_delete_of_ne hne h

/-- A change of a map is the change of its table. -/
theorem Reflects.change [DecidableEq K] (hs : m.Reflects f s) (hx : m.Admits x)
    (h : m.change s x = .ok t) : m.Reflects (x.on f) t where
  holds := hs.holds.change hx (fun _ _ => trivial) h
  load k v := by
    unfold Change.on
    by_cases hk : k = x.key
    · subst hk
      rw [load?_change hx h, Function.update_self, Except.ok.injEq]
    · rw [load?_change_of_ne hk h, Function.update_of_ne hk, hs.load]

/-- A table that a map reflects is the one that it shows. -/
theorem Reflects.shows (h : m.Reflects f s) : m.Shows f s := by
  have hload : ∀ k b, m.key.encode k = .ok b → m.load? s k = .ok (f k) := by
    intro k b hb
    have hk : m.fullKey k = .ok (m.root ++ b) := fullKey_eq_ok.mpr ⟨b, hb, rfl⟩
    rcases h.holds.cases_load? hk with ⟨-, hnone⟩ | ⟨v, -, hsome, -⟩
    · cases hf : f k with
      | none => exact hnone
      | some v =>
        rw [(h.load k v).mpr hf] at hnone
        cases Except.ok.inj hnone
    · rw [hsome, (h.load k v).mp hsome]
  refine ⟨fun k b hb => ?_, hload, ?_⟩
  · have hk := hload k b hb
    cases hf : f k with
    | none => exact has_of_load?_eq_none (hk.trans (congrArg Except.ok hf))
    | some v => exact has_of_load? (hk.trans (congrArg Except.ok hf))
  · obtain ⟨all, hall, hmem, hbelow⟩ := h.holds.listing
    refine ⟨all, hall, entries_descending hall, fun k v => ?_, hbelow.imp Below.encode_lt⟩
    rw [hmem, h.load]

end OneMap

/-! ### Several maps in one store -/

section Maps

variable {ι : Type} {K V : ι → Type}

/-- The store after changes of several maps, one after another. -/
def changes (m : (i : ι) → RecordMap (K i) (V i)) (s : Store)
    (xs : List ((i : ι) × Change (K i) (V i))) : Except Fault Store :=
  xs.foldlM (fun s x => (m x.1).change s x.2) s

variable [DecidableEq ι]

/-- The changes of one of the maps. -/
def own (i : ι) (xs : List ((i : ι) × Change (K i) (V i))) : List (Change (K i) (V i)) :=
  xs.filterMap fun x => if h : x.1 = i then some (h ▸ x.2) else none

theorem own_cons_self (i : ι) (x : Change (K i) (V i)) (xs : List ((i : ι) × Change (K i) (V i))) :
    own i (⟨i, x⟩ :: xs) = x :: own i xs := by
  simp [own]

theorem own_cons_of_ne {i j : ι} (h : j ≠ i) (x : Change (K j) (V j))
    (xs : List ((i : ι) × Change (K i) (V i))) : own i (⟨j, x⟩ :: xs) = own i xs := by
  simp [own, h]

variable [∀ i, DecidableEq (K i)] {m : (i : ι) → RecordMap (K i) (V i)}
  [∀ i, (m i).key.Lawful] {s : Store} {xs : List ((i : ι) × Change (K i) (V i))}

/-- Changes of any of the maps can be carried out, and each map sees its own. -/
theorem exists_changes (hnames : Function.Injective fun i => (m i).name)
    (hxs : ∀ x ∈ xs, (m x.1).Admits x.2) {f : (i : ι) → Table (K i) (V i)}
    (hs : ∀ i, (m i).Reflects (f i) s) :
    ∃ t, changes m s xs = .ok t ∧ ∀ i, (m i).Reflects ((own i xs).foldl Change.on (f i)) t := by
  induction xs generalizing s f with
  | nil => exact ⟨s, rfl, hs⟩
  | cons x xs ih =>
    obtain ⟨j, x⟩ := x
    obtain ⟨hx, hxs⟩ := List.forall_mem_cons.mp hxs
    obtain ⟨u, hu⟩ := exists_change hx s
    -- only the table of the map that is changed is another one
    have hsees : ∀ i, (m i).Reflects (Function.update f j (x.on (f j)) i) u := by
      intro i
      by_cases hi : i = j
      · subst hi
        rw [Function.update_self]
        exact (hs i).change hx hu
      · rw [Function.update_of_ne hi]
        have hname : (m i).name ≠ (m j).name := fun heq => hi (hnames heq)
        exact (hs i).congr (sameUnder_of_sameOutside (sameOutside_change hu) hname)
    obtain ⟨t, ht, hall⟩ := ih hxs hsees
    refine ⟨t, ?_, fun i => ?_⟩
    · unfold changes at ht ⊢
      rw [List.foldlM_cons, hu]
      exact ht
    · have hi := hall i
      by_cases heq : i = j
      · subst heq
        rw [Function.update_self] at hi
        rwa [own_cons_self]
      · rw [Function.update_of_ne heq] at hi
        rwa [own_cons_of_ne (Ne.symm heq)]

/-- **Record maps in one store are independent.**  Maps of different names, whose keys are read back,
are changed one after another in an empty store, at keys that can be written and with values that are
read back.  Every change succeeds, and in the end each map shows the table that its own changes come
to. -/
theorem maps_independent (m : (i : ι) → RecordMap (K i) (V i)) [∀ i, (m i).key.Lawful]
    (hnames : Function.Injective fun i => (m i).name) (hxs : ∀ x ∈ xs, (m x.1).Admits x.2) :
    ∃ s, changes m .empty xs = .ok s ∧ ∀ i, (m i).Shows (Table.after (own i xs)) s := by
  obtain ⟨s, hs, hall⟩ := exists_changes hnames hxs fun _ => reflects_empty
  exact ⟨s, hs, fun i => (hall i).shows⟩

end Maps

/-! ### Two maps of which one name starts with the other -/

/-- Texts are the keys of one map, and pairs of texts those of the other. -/
def ShelfKey : Bool → Type
  | false => String
  | true => String × String

instance : (i : Bool) → DecidableEq (ShelfKey i)
  | false => inferInstanceAs (DecidableEq String)
  | true => inferInstanceAs (DecidableEq (String × String))

/-- Two maps of texts. -/
def shelf : (i : Bool) → RecordMap (ShelfKey i) String
  | false => ⟨"coin", Key.text, Shape.text, .str, by decide⟩
  | true => ⟨"coins", Key.pair, Shape.text, .str, by decide⟩

instance : (i : Bool) → (shelf i).key.Lawful
  | false => inferInstanceAs Key.text.Lawful
  | true => inferInstanceAs Key.pair.Lawful

/-- Changes of both maps: of what is saved, one text is taken away and one is replaced. -/
def shelfChanges : List ((i : Bool) × Change (ShelfKey i) String) :=
  [⟨false, .save "sa" "one"⟩, ⟨true, .save ("a", "b") "two"⟩, ⟨false, .save "b" "three"⟩,
    ⟨false, .delete "sa"⟩, ⟨true, .save ("a", "b") "four"⟩]

theorem readsBack_shelf (i : Bool) (v : String) : (shelf i).ReadsBack v := by
  cases i with
  | false => exact readsBack_of_plain (m := shelf false) trivial rfl
  | true => exact readsBack_of_plain (m := shelf true) trivial rfl

/-- A text that is taken away is gone, and what the other map has saved stays. -/
theorem maps_independent_shelf :
    (Function.Injective fun i => (shelf i).name) ∧
      (∀ x ∈ shelfChanges, (shelf x.1).Admits x.2) ∧
      ∃ s, changes shelf .empty shelfChanges = .ok s ∧
        (shelf false).has s "sa" = .ok false ∧
        (shelf false).load? s "b" = .ok (some "three") ∧
        (shelf true).load? s ("a", "b") = .ok (some "four") := by
  have hnames : Function.Injective fun i => (shelf i).name := by
    simp [Function.Injective, shelf]
  have hadmits : ∀ x ∈ shelfChanges, (shelf x.1).Admits x.2 := by
    have hkeys : ∀ x ∈ shelfChanges, ∃ b, (shelf x.1).key.encode x.2.key = .ok b := by
      simp only [shelfChanges, List.forall_mem_cons, List.not_mem_nil, false_implies, implies_true,
        and_true]
      exact ⟨⟨_, rfl⟩, ⟨_, rfl⟩, ⟨_, rfl⟩, ⟨_, rfl⟩, ⟨_, rfl⟩⟩
    exact fun x hx => ⟨hkeys x hx, fun v _ => readsBack_shelf x.1 v⟩
  obtain ⟨s, hs, hshows⟩ := maps_independent shelf hnames hadmits
  refine ⟨hnames, hadmits, s, hs, ?_, ?_, ?_⟩
  · exact (hshows false).has "sa" _ rfl
  · exact (hshows false).load "b" _ rfl
  · exact (hshows true).load ("a", "b") _ rfl

end RecordMap

end TokenLedger
