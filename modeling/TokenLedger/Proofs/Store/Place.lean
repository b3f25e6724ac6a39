import Mathlib.Data.Set.Basic
import TokenLedger.Proofs.Store.RecordMap

/-!
# Places of records

A record has a place in the store: the key it is kept under, if its name can be written as a key
(`RecordMap.place`).  Different records have different places (`notMem_place`,
`notMem_place_of_name`).  What a map loads depends on one place alone, and saving and deleting
change one place alone.
-/

namespace TokenLedger

/-! ### Stores that agree in places -/

namespace Store

variable {keys keys' : Set Bytes} {s t u : Store}

/-- Two stores agree on some keys. -/
def SameOn (keys : Set Bytes) (s t : Store) : Prop := ∀ k ∈ keys, t.get? k = s.get? k

/-- Two stores agree on all but some keys. -/
def SameBut (keys : Set Bytes) (s t : Store) : Prop := ∀ k ∉ keys, t.get? k = s.get? k

theorem SameOn.mono (h : SameOn keys s t) (hsub : keys' ⊆ keys) : SameOn keys' s t :=
  fun k hk => h k (hsub hk)

theorem SameBut.rfl : SameBut keys s s := fun _ _ => Eq.refl _

theorem SameBut.mono (h : SameBut keys s t) (hsub : keys ⊆ keys') : SameBut keys' s t :=
  fun k hk => h k fun hmem => hk (hsub hmem)

theorem SameBut.trans (h : SameBut keys s t) (h' : SameBut keys t u) : SameBut keys s u :=
  fun k hk => (h' k hk).trans (h k hk)

/-- What changes one after another changes what either changes. -/
theorem SameBut.union (h : SameBut keys s t) (h' : SameBut keys' t u) :
    SameBut (keys ∪ keys') s u :=
  (h.mono Set.subset_union_left).trans (h'.mono Set.subset_union_right)

/-- Away from what has changed two stores agree. -/
theorem SameBut.sameOn (h : SameBut keys s t) (hapart : ∀ k ∈ keys', k ∉ keys) :
    SameOn keys' s t := fun k hk => h k (hapart k hk)

end Store

/-! ### Places -/

namespace RecordMap

variable {K V K' V' : Type} {m : RecordMap K V} {m' : RecordMap K' V'} {s t : Store} {k k' : K}
  {v : V}

/-- The key that a record is kept under, if it has one. -/
def place (m : RecordMap K V) (k : K) : Set Bytes := {b | m.fullKey k = .ok b}

theorem notMem_place [m.key.Lawful] {b : Bytes} (hb : b ∈ m.place k) (hne : k ≠ k') :
    b ∉ m.place k' := fun hb' => hne (fullKey_inj hb hb')

theorem notMem_place_of_name {b : Bytes} {k' : K'} (hb : b ∈ m.place k) (hne : m.name ≠ m'.name) :
    b ∉ m'.place k' := fun hb' =>
  hne (name_eq_of_isPrefix (root_isPrefix hb) (root_isPrefix hb'))

theorem load?_of_sameOn (h : Store.SameOn (m.place k) s t) : m.load? t k = m.load? s k :=
  load?_eq_of_get? h

theorem has_of_sameOn (h : Store.SameOn (m.place k) s t) : m.has t k = m.has s k := by
  unfold has
  cases hk : m.fullKey k with
  | error e => rfl
  | ok b =>
    show Except.ok (t.get? b).isSome = Except.ok (s.get? b).isSome
    rw [h b hk]

theorem sameBut_save (h : m.save s k v = .ok t) : Store.SameBut (m.place k) s t := by
  obtain ⟨b, hk, hrest⟩ := get?_of_save h
  exact fun b' hb' => hrest b' fun heq => hb' (heq ▸ hk)

theorem sameBut_delete (h : m.delete s k = .ok t) : Store.SameBut (m.place k) s t := by
  obtain ⟨b, hk, hrest⟩ := get?_of_delete h
  exact fun b' hb' => hrest b' fun heq => hb' (heq ▸ hk)

end RecordMap

end TokenLedger
