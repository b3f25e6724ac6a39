import Mathlib.Algebra.Order.BigOperators.Group.List
import Mathlib.Data.List.Sort
import Mathlib.Tactic.SplitIfs
import TokenLedger.Proofs.Except
import TokenLedger.Proofs.Json.Text
import TokenLedger.Proofs.Store.Key
import TokenLedger.Proofs.Store.Map
import TokenLedger.Store.RecordMap

/-!
# Record maps are maps

`Holds P` says that whatever stands in the part of a store that belongs to a map is a record under a
key with the property `P`, and can be read back.  Saving and deleting keep it, and what is loaded
afterwards is what a map would give (`load?_save`, `load?_delete`).  Maps with different names do
not touch each other (`sameUnder_of_sameOutside`).
-/

namespace TokenLedger

/-! ### Values that are read back -/

theorem Checked.forList_map {α β : Type} {f : α → Checked β} {g : β → α} {bs : List β}
    (h : ∀ b ∈ bs, f (g b) = .valid b) : Checked.forList f (bs.map g) = .valid bs := by
  induction bs with
  | nil => rfl
  | cons b bs ih =>
    obtain ⟨hb, hbs⟩ := List.forall_mem_cons.mp h
    rw [List.map_cons, Checked.forList, hb, ih hbs]
    rfl

/-- The bytes of plain JSON are read as the JSON is taken. -/
theorem Shape.readBytes_toBytes_eq {α : Type} {j : Json} (hp : j.Plain) (shape : Shape α)
    (typeName : String) : shape.readBytes typeName j.toBytes = (shape j).orFault typeName := by
  unfold Shape.readBytes Json.toBytes
  rw [Utf8.decode_encode, Json.parse_toText hp]

/-- Plain JSON of a shape is read back from its bytes. -/
theorem Shape.readBytes_toBytes {α : Type} {shape : Shape α} {j : Json} {v : α} (hp : j.Plain)
    (hv : shape j = .valid v) (typeName : String) :
    shape.readBytes typeName j.toBytes = .ok v := by
  rw [Shape.readBytes_toBytes_eq hp, hv]
  rfl

/-! ### Parts of a store -/

namespace Store

/-- Two stores agree on the keys that start with `root`. -/
def SameUnder (root : Bytes) (s t : Store) : Prop := ∀ k, root <+: k → t.get? k = s.get? k

/-- Two stores agree on the keys that do not start with `root`. -/
def SameOutside (root : Bytes) (s t : Store) : Prop := ∀ k, ¬ root <+: k → t.get? k = s.get? k

variable {root : Bytes} {s t u : Store}

theorem SameUnder.rfl : SameUnder root s s := fun _ _ => Eq.refl _

theorem SameUnder.trans (h : SameUnder root s t) (h' : SameUnder root t u) : SameUnder root s u :=
  fun k hk => (h' k hk).trans (h k hk)

theorem SameOutside.rfl : SameOutside root s s := fun _ _ => Eq.refl _

theorem SameOutside.trans (h : SameOutside root s t) (h' : SameOutside root t u) :
    SameOutside root s u := fun k hk => (h' k hk).trans (h k hk)

theorem sameOutside_set {k : Bytes} (hk : root <+: k) (v : Bytes) :
    SameOutside root s (s.set k v) := fun _ hk' =>
  get?_set_of_ne s v fun heq => hk' (heq ▸ hk)

theorem sameOutside_remove {k : Bytes} (hk : root <+: k) : SameOutside root s (s.remove k) :=
  fun _ hk' => get?_remove_of_ne s fun heq => hk' (heq ▸ hk)

end Store

namespace RecordMap

variable {K V K' V' : Type} {m : RecordMap K V} {m' : RecordMap K' V'} {P : K → V → Prop}
  {s t : Store} {k k' : K} {v : V} {b : Bytes}

/-- Nothing starts with the roots of maps of two names. -/
theorem name_eq_of_isPrefix (h : m.root <+: b) (h' : m'.root <+: b) : m.name = m'.name :=
  Utf8.encode_injective (Key.withLength_inj m.short m'.short h h')

/-- What changes under one map changes nothing under a map of another name. -/
theorem sameUnder_of_sameOutside (h : Store.SameOutside m.root s t)
    (hne : m'.name ≠ m.name) : Store.SameUnder m'.root s t := fun k hk =>
  h k fun hk' => hne (name_eq_of_isPrefix hk hk')

/-! ### Keys -/

theorem fullKey_eq_ok : m.fullKey k = .ok b ↔ ∃ c, m.key.encode k = .ok c ∧ m.root ++ c = b := by
  rw [fullKey, Except.map_eq_ok]

theorem root_isPrefix (h : m.fullKey k = .ok b) : m.root <+: b := by
  obtain ⟨c, -, rfl⟩ := fullKey_eq_ok.mp h
  exact List.prefix_append _ _

/-- Under a pair there is a key exactly if the first text of the pair is short enough. -/
theorem exists_fullKey_pair_iff {m : RecordMap (String × String) V} (hm : m.key = Key.pair)
    {x y : String} : (∃ b, m.fullKey (x, y) = .ok b) ↔ Key.IsShort x := by
  constructor
  · rintro ⟨b, hk⟩
    obtain ⟨c, hc, -⟩ := fullKey_eq_ok.mp hk
    rw [hm] at hc
    exact (Key.encode_pair_eq_ok.mp hc).1
  · intro hshort
    exact ⟨_, fullKey_eq_ok.mpr ⟨_, hm ▸ Key.encode_pair hshort y, rfl⟩⟩

theorem fullKey_inj [m.key.Lawful] (h : m.fullKey k = .ok b) (h' : m.fullKey k' = .ok b) :
    k = k' := by
  obtain ⟨c, hc, rfl⟩ := fullKey_eq_ok.mp h
  obtain ⟨c', hc', heq⟩ := fullKey_eq_ok.mp h'
  rw [List.append_cancel_left heq] at hc'
  exact KeyCodec.Lawful.encode_inj hc hc'

/-! ### Operations on one key -/

section OneKey

variable (hk : m.fullKey k = .ok b)
include hk

theorem load?_of_fullKey : m.load? s k =
    match s.get? b with
    | none => .ok none
    | some raw => some <$> m.readRecord raw := by
  unfold load?
  rw [hk]
  rfl

theorem load?_eq_none_iff : m.load? s k = .ok none ↔ s.get? b = none := by
  rw [load?_of_fullKey hk]
  cases s.get? b with
  | none => simp
  | some raw => cases h : m.readRecord raw <;> simp [Functor.map, Except.map, h]

theorem load?_eq_some_iff :
    m.load? s k = .ok (some v) ↔ ∃ raw, s.get? b = some raw ∧ m.readRecord raw = .ok v := by
  rw [load?_of_fullKey hk]
  cases s.get? b with
  | none => simp
  | some raw => cases h : m.readRecord raw <;> simp [Functor.map, Except.map, h]

end OneKey

/-- What a map loads depends on what stands under the key alone. -/
theorem load?_eq_of_get? (h : ∀ b, m.fullKey k = .ok b → t.get? b = s.get? b) :
    m.load? t k = m.load? s k := by
  cases hk : m.fullKey k with
  | error e =>
    unfold load?
    rw [hk]
    rfl
  | ok b => rw [load?_of_fullKey hk, load?_of_fullKey hk, h b hk]

theorem fullKey_of_load? {o : Option V} (h : m.load? s k = .ok o) : ∃ b, m.fullKey k = .ok b := by
  obtain ⟨b, hk, -⟩ := Except.bind_eq_ok.mp h
  exact ⟨b, hk⟩

theorem has_eq_ok {found : Bool} :
    m.has s k = .ok found ↔ ∃ b, m.fullKey k = .ok b ∧ (s.get? b).isSome = found := by
  simp only [has, Except.bind_eq_ok, Except.ok.injEq]

theorem save_eq_ok :
    m.save s k v = .ok t ↔ ∃ b, m.fullKey k = .ok b ∧ s.set b (m.toJson v).toBytes = t := by
  simp only [save, Except.bind_eq_ok, Except.ok.injEq]

theorem delete_eq_ok : m.delete s k = .ok t ↔ ∃ b, m.fullKey k = .ok b ∧ s.remove b = t := by
  simp only [delete, Except.bind_eq_ok, Except.ok.injEq]

theorem has_of_load? (h : m.load? s k = .ok (some v)) : m.has s k = .ok true := by
  obtain ⟨b, hk⟩ := fullKey_of_load? h
  obtain ⟨raw, hb, -⟩ := (load?_eq_some_iff hk).mp h
  exact has_eq_ok.mpr ⟨b, hk, by rw [hb]; rfl⟩

theorem has_of_load?_eq_none (h : m.load? s k = .ok none) : m.has s k = .ok false := by
  obtain ⟨b, hk⟩ := fullKey_of_load? h
  exact has_eq_ok.mpr ⟨b, hk, by rw [(load?_eq_none_iff hk).mp h]; rfl⟩

/-- A save changes what stands under its key and nothing else. -/
theorem get?_of_save (h : m.save s k v = .ok t) :
    ∃ b, m.fullKey k = .ok b ∧ ∀ b', b' ≠ b → t.get? b' = s.get? b' := by
  obtain ⟨b, hk, rfl⟩ := save_eq_ok.mp h
  exact ⟨b, hk, fun b' hne => Store.get?_set_of_ne s _ hne⟩

theorem get?_of_delete (h : m.delete s k = .ok t) :
    ∃ b, m.fullKey k = .ok b ∧ ∀ b', b' ≠ b → t.get? b' = s.get? b' := by
  obtain ⟨b, hk, rfl⟩ := delete_eq_ok.mp h
  exact ⟨b, hk, fun b' hne => Store.get?_remove_of_ne s hne⟩

theorem sameOutside_save (h : m.save s k v = .ok t) : Store.SameOutside m.root s t := by
  obtain ⟨b, hk, rfl⟩ := save_eq_ok.mp h
  exact Store.sameOutside_set (root_isPrefix hk) _

/-- A save leaves the records of a map of another name as they are. -/
theorem sameUnder_save (h : m.save s k v = .ok t) (hne : m'.name ≠ m.name) :
    Store.SameUnder m'.root s t := sameUnder_of_sameOutside (sameOutside_save h) hne

theorem sameOutside_delete (h : m.delete s k = .ok t) : Store.SameOutside m.root s t := by
  obtain ⟨b, hk, rfl⟩ := delete_eq_ok.mp h
  exact Store.sameOutside_remove (root_isPrefix hk)

/-! ### What is loaded after a change -/

/-- A value that is read back as it was saved. -/
def ReadsBack (m : RecordMap K V) (v : V) : Prop := m.readRecord (m.toJson v).toBytes = .ok v

/-- Plain JSON of the map's shape is read back. -/
theorem readsBack_of_plain (hp : (m.toJson v).Plain) (hv : m.shape (m.toJson v) = .valid v) :
    m.ReadsBack v := Shape.readBytes_toBytes hp hv m.name

theorem load?_save (hv : m.ReadsBack v) (h : m.save s k v = .ok t) :
    m.load? t k = .ok (some v) := by
  obtain ⟨b, hk, rfl⟩ := save_eq_ok.mp h
  exact (load?_eq_some_iff hk).mpr ⟨_, Store.get?_set_self s b _, hv⟩

theorem load?_delete (h : m.delete s k = .ok t) : m.load? t k = .ok none := by
  obtain ⟨b, hk, rfl⟩ := delete_eq_ok.mp h
  exact (load?_eq_none_iff hk).mpr (Store.get?_remove_self s b)

/-- Where two stores agree on a map, it loads the same. -/
theorem load?_congr (h : Store.SameUnder m.root s t) (k : K) : m.load? t k = m.load? s k :=
  load?_eq_of_get? fun b hk => h b (root_isPrefix hk)

/-! ### Properties of all records -/

/-- Whatever stands under the map is a record that is read back, under its key, with a property. -/
def Holds (m : RecordMap K V) (P : K → V → Prop) (s : Store) : Prop :=
  ∀ b raw, s.get? b = some raw → m.root <+: b →
    ∃ k v, m.fullKey k = .ok b ∧ raw = (m.toJson v).toBytes ∧ m.ReadsBack v ∧ P k v

variable {Q : K → V → Prop}

theorem holds_empty : m.Holds P Store.empty := fun _ _ h _ => absurd h (by simp)

theorem Holds.mono (hs : m.Holds P s) (h : ∀ k v, P k v → Q k v) : m.Holds Q s := by
  intro b raw hb hroot
  obtain ⟨k, v, hk, hraw, hv, hP⟩ := hs b raw hb hroot
  exact ⟨k, v, hk, hraw, hv, h k v hP⟩

theorem Holds.congr (hs : m.Holds P s) (h : Store.SameUnder m.root s t) : m.Holds P t := by
  intro b raw hb hroot
  rw [h b hroot] at hb
  exact hs b raw hb hroot

theorem Holds.save (hs : m.Holds P s) (hv : m.ReadsBack v) (hP : P k v)
    (h : m.save s k v = .ok t) : m.Holds P t := by
  obtain ⟨b, hk, rfl⟩ := save_eq_ok.mp h
  intro b' raw hb' hroot
  by_cases hne : b' = b
  · subst hne
    rw [Store.get?_set_self] at hb'
    injection hb' with hraw
    exact ⟨k, v, hk, hraw.symm, hv, hP⟩
  · rw [Store.get?_set_of_ne s _ hne] at hb'
    exact hs b' raw hb' hroot

theorem Holds.delete (hs : m.Holds P s) (h : m.delete s k = .ok t) : m.Holds P t := by
  obtain ⟨b, hk, rfl⟩ := delete_eq_ok.mp h
  intro b' raw hb' hroot
  rw [Store.get?_remove] at hb'
  split_ifs at hb' with hne
  exact hs b' raw hb' hroot

theorem load?_of_has_eq_false (h : m.has s k = .ok false) : m.load? s k = .ok none := by
  obtain ⟨b, hk, hb⟩ := has_eq_ok.mp h
  exact (load?_eq_none_iff hk).mpr (by simpa using hb)

/-! ### Listings -/

theorem range_root (s : Store) : s.range (some m.root) (Key.above m.root) .ascending =
    s.entries.filter fun e => m.root.isPrefixOf e.1 := by
  refine List.filter_congr fun e _ => Bool.eq_iff_iff.mpr ?_
  rw [Key.inBounds_iff_isPrefix, List.isPrefixOf_iff_prefix]

/-- A listing depends on the map's part of the store alone. -/
theorem entries_congr (h : Store.SameUnder m.root s t) :
    m.entries t .ascending = m.entries s .ascending := by
  have hsorted : ∀ u : Store, (u.entries.filter fun e => m.root.isPrefixOf e.1).Pairwise
      fun a b => a.1 < b.1 := fun u => u.ascending.filter _
  have hirrefl : Std.Irrefl fun a b : Entry => a.1 < b.1 := ⟨fun a => List.lt_irrefl a.1⟩
  unfold entries
  rw [range_root, range_root]
  refine congrArg (List.mapM m.readEntry) (List.Pairwise.eq_of_mem_iff (hsorted t) (hsorted s) ?_)
  rintro ⟨b, raw⟩
  simp only [List.mem_filter, List.isPrefixOf_iff_prefix, Store.mem_entries_iff]
  exact and_congr_left fun hroot => by rw [h b hroot]

/-- The weight of an entry: that of its record, if it belongs to the map. -/
def weigh (m : RecordMap K V) (f : K → V → Int) (e : Entry) : Int :=
  if m.root <+: e.1 then
    match m.readEntry e with
    | .ok (k, v) => f k v
    | .error _ => 0
  else 0

theorem mapM_readEntry (f : K → V → Int) {l : List Entry}
    (hread : ∀ e ∈ l, m.root <+: e.1 → ∃ k v, m.readEntry e = .ok (k, v)) :
    ∃ all, (l.filter fun e => m.root.isPrefixOf e.1).mapM m.readEntry = .ok all ∧
      (all.map fun e => f e.1 e.2).sum = (l.map (m.weigh f)).sum := by
  induction l with
  | nil => exact ⟨[], rfl, rfl⟩
  | cons e rest ih =>
    obtain ⟨all, hall, hsum⟩ := ih fun e' he' => hread e' (List.mem_cons_of_mem _ he')
    by_cases hroot : m.root <+: e.1
    · obtain ⟨k, v, he⟩ := hread e List.mem_cons_self hroot
      refine ⟨(k, v) :: all, ?_, ?_⟩
      · rw [List.filter_cons, if_pos (List.isPrefixOf_iff_prefix.mpr hroot), List.mapM_cons, he,
          hall]
        rfl
      · rw [List.map_cons, List.sum_cons, hsum, List.map_cons, List.sum_cons, weigh, if_pos hroot,
          he]
    · refine ⟨all, ?_, ?_⟩
      · rw [List.filter_cons, if_neg fun h => hroot (List.isPrefixOf_iff_prefix.mp h), hall]
      · rw [hsum, List.map_cons, List.sum_cons, weigh, if_neg hroot, Int.zero_add]

/-! ### Maps with faithful keys -/

variable [m.key.Lawful] (f : K → V → Int)

theorem load?_save_of_ne (hne : k' ≠ k) (h : m.save s k v = .ok t) :
    m.load? t k' = m.load? s k' := by
  obtain ⟨b, hk, rfl⟩ := save_eq_ok.mp h
  refine load?_eq_of_get? fun b' hk' => ?_
  have hb : b' ≠ b := fun heq => hne (fullKey_inj hk' (heq ▸ hk))
  exact Store.get?_set_of_ne s _ hb

theorem load?_delete_of_ne (hne : k' ≠ k) (h : m.delete s k = .ok t) :
    m.load? t k' = m.load? s k' := by
  obtain ⟨b, hk, rfl⟩ := delete_eq_ok.mp h
  refine load?_eq_of_get? fun b' hk' => ?_
  have hb : b' ≠ b := fun heq => hne (fullKey_inj hk' (heq ▸ hk))
  exact Store.get?_remove_of_ne s hb

/-- A record under a key is there and has the property, or there is none. -/
theorem Holds.cases_load? (hs : m.Holds P s) (hk : m.fullKey k = .ok b) :
    (s.get? b = none ∧ m.load? s k = .ok none) ∨
      ∃ v, s.get? b = some (m.toJson v).toBytes ∧ m.load? s k = .ok (some v) ∧
        m.ReadsBack v ∧ P k v := by
  cases hb : s.get? b with
  | none => exact Or.inl ⟨rfl, (load?_eq_none_iff hk).mpr hb⟩
  | some raw =>
    obtain ⟨k', v, hk', rfl, hv, hP⟩ := hs b raw hb (root_isPrefix hk)
    obtain rfl : k' = k := fullKey_inj hk' hk
    exact Or.inr ⟨v, rfl, (load?_eq_some_iff hk).mpr ⟨_, hb, hv⟩, hv, hP⟩

theorem Holds.of_load? (hs : m.Holds P s) (h : m.load? s k = .ok (some v)) :
    m.ReadsBack v ∧ P k v := by
  obtain ⟨b, hk⟩ := fullKey_of_load? h
  rcases hs.cases_load? hk with ⟨-, hnone⟩ | ⟨v', -, hsome, hv, hP⟩
  · rw [hnone] at h
    injection h with h
    contradiction
  · rw [hsome] at h
    injection h with h
    injection h with h
    exact h ▸ ⟨hv, hP⟩

theorem Holds.load?_of_has (hs : m.Holds P s) (h : m.has s k = .ok true) :
    ∃ v, m.load? s k = .ok (some v) := by
  obtain ⟨b, hk, hb⟩ := has_eq_ok.mp h
  rcases hs.cases_load? hk with ⟨hnone, -⟩ | ⟨v, -, hsome, -, -⟩
  · rw [hnone] at hb
    contradiction
  · exact ⟨v, hsome⟩

/-- What stands under the key of a record is determined by what the map loads. -/
theorem Holds.get?_of_load? {raw : Bytes} (hs : m.Holds P s) (ht : m.Holds Q t)
    (h : ∀ k, m.load? t k = m.load? s k) (hroot : m.root <+: b) (hb : s.get? b = some raw) :
    t.get? b = some raw := by
  obtain ⟨k, v, hk, hraw, hv, -⟩ := hs b raw hb hroot
  have hload : m.load? t k = .ok (some v) := by
    rw [h k, load?_eq_some_iff hk]
    exact ⟨raw, hb, hraw ▸ hv⟩
  rcases ht.cases_load? hk with ⟨-, hnone⟩ | ⟨v', hget, hsome, -⟩
  · rw [hnone] at hload
    cases Except.ok.inj hload
  · rw [hsome] at hload
    obtain rfl := Option.some.inj (Except.ok.inj hload)
    rw [hget, hraw]

/-- Two stores from which a map loads the same agree on it, byte for byte. -/
theorem Holds.sameUnder_of_load? (hs : m.Holds P s) (ht : m.Holds Q t)
    (h : ∀ k, m.load? t k = m.load? s k) : Store.SameUnder m.root s t := by
  intro b hroot
  ext raw
  constructor
  · intro hb
    exact ht.get?_of_load? hs (fun k => (h k).symm) hroot hb
  · intro hb
    exact hs.get?_of_load? ht h hroot hb

theorem readEntry_eq_ok {raw : Bytes} (hk : m.fullKey k = .ok b) (hv : m.readRecord raw = .ok v) :
    m.readEntry (b, raw) = .ok (k, v) := by
  obtain ⟨c, hc, rfl⟩ := fullKey_eq_ok.mp hk
  unfold readEntry
  rw [List.drop_left, KeyCodec.Lawful.decode_encode hc, hv]
  rfl

theorem weigh_eq {raw : Bytes} (hk : m.fullKey k = .ok b) (hv : m.readRecord raw = .ok v) :
    m.weigh f (b, raw) = f k v := by
  rw [weigh, if_pos (root_isPrefix hk), readEntry_eq_ok hk hv]

theorem weightAt_of_load? {o : Option V} (hk : m.fullKey k = .ok b) (h : m.load? s k = .ok o) :
    s.weightAt (m.weigh f) b = (o.map (f k)).getD 0 := by
  unfold Store.weightAt
  cases o with
  | none => rw [(load?_eq_none_iff hk).mp h]; rfl
  | some v =>
    obtain ⟨raw, hb, hv⟩ := (load?_eq_some_iff hk).mp h
    rw [hb]
    exact weigh_eq f hk hv

theorem total_save {o : Option V} (hv : m.ReadsBack v) (ho : m.load? s k = .ok o)
    (h : m.save s k v = .ok t) :
    t.total (m.weigh f) = s.total (m.weigh f) - (o.map (f k)).getD 0 + f k v := by
  obtain ⟨b, hk, rfl⟩ := save_eq_ok.mp h
  rw [Store.total_set, weightAt_of_load? f hk ho, weigh_eq f hk hv]

theorem total_delete {o : Option V} (ho : m.load? s k = .ok o) (h : m.delete s k = .ok t) :
    t.total (m.weigh f) = s.total (m.weigh f) - (o.map (f k)).getD 0 := by
  obtain ⟨b, hk, rfl⟩ := delete_eq_ok.mp h
  rw [Store.total_remove, weightAt_of_load? f hk ho]

/-- All records of a map can be listed, and a sum over the list is a sum over the store. -/
theorem Holds.entries (hs : m.Holds P s) : ∃ all, m.entries s .ascending = .ok all ∧
    (all.map fun e => f e.1 e.2).sum = s.total (m.weigh f) := by
  unfold RecordMap.entries Store.total
  rw [range_root]
  refine mapM_readEntry f ?_
  rintro ⟨b, raw⟩ he hroot
  obtain ⟨k, v, hk, rfl, hv, -⟩ := hs b raw (Store.mem_entries_iff.mp he) hroot
  exact ⟨k, v, readEntry_eq_ok hk hv⟩

theorem Holds.weigh_nonneg (hs : m.Holds P s) (hf : ∀ k v, P k v → 0 ≤ f k v) :
    ∀ e ∈ s.entries, 0 ≤ m.weigh f e := by
  rintro ⟨b, raw⟩ he
  by_cases hroot : m.root <+: b
  · obtain ⟨k, v, hk, rfl, hv, hP⟩ := hs b raw (Store.mem_entries_iff.mp he) hroot
    rw [weigh_eq f hk hv]
    exact hf k v hP
  · rw [weigh, if_neg hroot]

end RecordMap

end TokenLedger
