import Mathlib.Algebra.BigOperators.Group.List.Basic
import Mathlib.Algebra.Ring.Int.Defs
import Mathlib.Data.List.Sort
import Mathlib.Tactic.SplitIfs
import TokenLedger.Store.Basic

/-!
# The store as a finite map

`get?` determines the entries (`mem_entries_iff`), and the operations change it at their key alone
(`get?_set`, `get?_remove`).  A sum over all entries therefore changes by the weight that goes and
the weight that comes (`total_set`, `total_remove`).
-/

namespace TokenLedger.Store

/-! ### Entries and values -/

theorem find?_eq_some_iff {entries : List Entry} (h : Ascending entries) {k v : Bytes} :
    (entries.find? (·.1 == k)).map (·.2) = some v ↔ (k, v) ∈ entries := by
  induction entries with
  | nil => simp
  | cons e rest ih =>
    obtain ⟨he, hrest⟩ := List.pairwise_cons.mp h
    by_cases hk : e.1 = k
    · subst hk
      have hnot : (e.1, v) ∉ rest := fun hmem =>
        List.lt_irrefl e.1 (he (e.1, v) hmem)
      simp [hnot, Prod.ext_iff, eq_comm]
    · have hne : (k, v) ≠ e := fun heq => hk (by rw [← heq])
      simp [hk, hne, ih hrest]

theorem mem_entries_iff {s : Store} {k v : Bytes} : (k, v) ∈ s.entries ↔ s.get? k = some v :=
  (find?_eq_some_iff s.ascending).symm

/-- Stores with the same values are the same store. -/
theorem ext_get? {s t : Store} (h : ∀ k, s.get? k = t.get? k) : s = t := by
  have hirrefl : Std.Irrefl fun a b : Entry => a.1 < b.1 := ⟨fun a => List.lt_irrefl a.1⟩
  refine Store.ext (List.Pairwise.eq_of_mem_iff s.ascending t.ascending ?_)
  rintro ⟨k, v⟩
  rw [mem_entries_iff, mem_entries_iff, h]

@[simp] theorem get?_empty (k : Bytes) : empty.get? k = none := rfl

theorem mem_insertEntry_iff {k v : Bytes} {e : Entry} {entries : List Entry}
    (h : Ascending entries) :
    e ∈ insertEntry k v entries ↔ e = (k, v) ∨ (e ∈ entries ∧ e.1 ≠ k) := by
  induction entries with
  | nil => simp [insertEntry]
  | cons x rest ih =>
    obtain ⟨hx, hrest⟩ := List.pairwise_cons.mp h
    rw [insertEntry]
    split_ifs with hlt heq
    · have hne : ∀ a ∈ x :: rest, a.1 ≠ k := by
        rintro a ha rfl
        rcases List.mem_cons.mp ha with rfl | ha
        · exact List.lt_irrefl _ hlt
        · exact List.lt_irrefl _ (List.lt_trans hlt (hx a ha))
      constructor
      · rintro he
        rcases List.mem_cons.mp he with he | he
        · exact Or.inl he
        · exact Or.inr ⟨he, hne e he⟩
      · rintro (he | ⟨he, -⟩)
        · exact he ▸ List.mem_cons_self
        · exact List.mem_cons_of_mem _ he
    · subst heq
      have hne : ∀ a ∈ rest, a.1 ≠ x.1 := fun a ha hax => List.lt_irrefl _ (hax ▸ hx a ha)
      constructor
      · intro he
        rcases List.mem_cons.mp he with he | he
        · exact Or.inl he
        · exact Or.inr ⟨List.mem_cons_of_mem _ he, hne e he⟩
      · rintro (he | ⟨he, hk⟩)
        · exact he ▸ List.mem_cons_self
        · rcases List.mem_cons.mp he with rfl | he
          · exact absurd rfl hk
          · exact List.mem_cons_of_mem _ he
    · have hxk : x.1 ≠ k := fun hk => heq hk.symm
      rw [List.mem_cons, List.mem_cons, ih hrest]
      constructor
      · rintro (rfl | he | ⟨he, hk⟩)
        · exact Or.inr ⟨Or.inl rfl, hxk⟩
        · exact Or.inl he
        · exact Or.inr ⟨Or.inr he, hk⟩
      · rintro (he | ⟨rfl | he, hk⟩)
        · exact Or.inr (Or.inl he)
        · exact Or.inl rfl
        · exact Or.inr (Or.inr ⟨he, hk⟩)

theorem mem_set_iff {s : Store} {k v : Bytes} {e : Entry} :
    e ∈ (s.set k v).entries ↔ e = (k, v) ∨ (e ∈ s.entries ∧ e.1 ≠ k) :=
  mem_insertEntry_iff s.ascending

theorem mem_remove_iff {s : Store} {k : Bytes} {e : Entry} :
    e ∈ (s.remove k).entries ↔ e ∈ s.entries ∧ e.1 ≠ k := by
  simp [remove]

theorem get?_set (s : Store) (k v k' : Bytes) :
    (s.set k v).get? k' = if k' = k then some v else s.get? k' := by
  ext w
  rw [← mem_entries_iff, mem_set_iff]
  split_ifs with hk
  · simp [hk, eq_comm]
  · simp [hk, mem_entries_iff]

@[simp] theorem get?_set_self (s : Store) (k v : Bytes) : (s.set k v).get? k = some v := by
  rw [get?_set, if_pos rfl]

theorem get?_set_of_ne (s : Store) {k k' : Bytes} (v : Bytes) (h : k' ≠ k) :
    (s.set k v).get? k' = s.get? k' := by
  rw [get?_set, if_neg h]

theorem get?_remove (s : Store) (k k' : Bytes) :
    (s.remove k).get? k' = if k' = k then none else s.get? k' := by
  ext w
  rw [← mem_entries_iff, mem_remove_iff]
  split_ifs with hk
  · simp [hk]
  · simp [hk, mem_entries_iff]

@[simp] theorem get?_remove_self (s : Store) (k : Bytes) : (s.remove k).get? k = none := by
  rw [get?_remove, if_pos rfl]

theorem get?_remove_of_ne (s : Store) {k k' : Bytes} (h : k' ≠ k) :
    (s.remove k).get? k' = s.get? k' := by
  rw [get?_remove, if_neg h]

/-! ### Sums over all entries -/

/-- The sum of the weights of all entries. -/
def total (w : Entry → Int) (s : Store) : Int := (s.entries.map w).sum

/-- The weight of what stands under a key. -/
def weightAt (w : Entry → Int) (s : Store) (k : Bytes) : Int :=
  ((s.get? k).map fun v => w (k, v)).getD 0

variable (w : Entry → Int)

theorem sum_eq_filter {entries : List Entry} (h : Ascending entries) (k : Bytes) :
    (entries.map w).sum =
      (((entries.find? (·.1 == k)).map (·.2)).map fun v => w (k, v)).getD 0 +
        ((entries.filter (·.1 != k)).map w).sum := by
  induction entries with
  | nil => rfl
  | cons e rest ih =>
    obtain ⟨he, hrest⟩ := List.pairwise_cons.mp h
    by_cases hk : e.1 = k
    · subst hk
      have hfilter : rest.filter (·.1 != e.1) = rest := by
        refine List.filter_eq_self.mpr fun a ha => ?_
        simpa using fun hae : a.1 = e.1 => List.lt_irrefl _ (hae ▸ he a ha)
      simp [hfilter]
    · rw [List.map_cons, List.sum_cons, ih hrest]
      simp [hk]
      omega

theorem total_eq_remove (s : Store) (k : Bytes) :
    s.total w = s.weightAt w k + (s.remove k).total w :=
  sum_eq_filter w s.ascending k

theorem total_remove (s : Store) (k : Bytes) :
    (s.remove k).total w = s.total w - s.weightAt w k := by
  rw [total_eq_remove w s k]
  omega

/-- What is set and removed was never there. -/
theorem remove_set (s : Store) (k v : Bytes) : (s.set k v).remove k = s.remove k := by
  refine Store.ext ?_
  show (insertEntry k v s.entries).filter (·.1 != k) = s.entries.filter (·.1 != k)
  induction s.entries with
  | nil => simp [insertEntry]
  | cons e rest ih =>
    rw [insertEntry]
    split_ifs with hlt heq
    · simp
    · simp [heq]
    · rw [List.filter_cons, List.filter_cons, ih]

theorem total_set (s : Store) (k v : Bytes) :
    (s.set k v).total w = s.total w - s.weightAt w k + w (k, v) := by
  rw [total_eq_remove w (s.set k v) k, remove_set, total_remove, weightAt, get?_set_self]
  simp only [Option.map_some, Option.getD_some]
  omega

end TokenLedger.Store
