import TokenLedger.Proofs.Store.Map
import TokenLedger.Proofs.Text.Hex
import TokenLedger.Store.Memory

/-!
# A sheet is a store

A sheet keeps its entries in the order in which their keys came, a store in the order of the keys;
`toStore` puts the one into the other.  Both have the same entries (`mem_entries_toStore`), so that
they answer alike (`get?_toStore`, `range_toStore`) and go on to do so after every change
(`toStore_set`, `toStore_remove`).
-/

namespace TokenLedger.Sheet

variable {t : Sheet} {k v : Bytes} {e : Entry}

/-! ### Names -/

theorem names_eq (t : Sheet) : t.slots.map (·.1) = (t.entries.map (·.1)).map Bytes.toHex := by
  rw [entries, List.map_map, List.map_map]
  exact List.map_congr_left t.named

/-- No two entries have one key. -/
theorem nodup_keys (t : Sheet) : (t.entries.map (·.1)).Nodup := by
  have hnames := t.distinct
  rw [names_eq] at hnames
  exact hnames.of_map _

/-- An entry is under the text of its key and under no other. -/
theorem mem_entries : e ∈ t.entries ↔ (e.1.toHex, e) ∈ t.slots := by
  rw [entries, List.mem_map]
  constructor
  · rintro ⟨x, hx, rfl⟩
    rw [← t.named x hx]
    exact hx
  · intro he
    exact ⟨_, he, rfl⟩

theorem find?_name_iff {slots : List (String × Entry)} (h : (slots.map (·.1)).Nodup) {name : String}
    {x : String × Entry} : slots.find? (·.1 == name) = some x ↔ x ∈ slots ∧ x.1 = name := by
  induction slots with
  | nil => simp
  | cons y rest ih =>
    obtain ⟨hy, hrest⟩ := List.nodup_cons.mp h
    by_cases hname : y.1 = name
    · subst hname
      have hnot : ∀ z ∈ rest, z.1 ≠ y.1 := fun z hz heq =>
        hy (List.mem_map.mpr ⟨z, hz, heq⟩)
      rw [List.find?_cons_of_pos (by simp), Option.some.injEq, List.mem_cons]
      constructor
      · rintro rfl
        exact ⟨Or.inl rfl, rfl⟩
      · rintro ⟨rfl | hx, heq⟩
        · rfl
        · exact absurd heq (hnot x hx)
    · rw [List.find?_cons_of_neg (by simpa using hname), ih hrest, List.mem_cons]
      refine and_congr_left fun hx => (or_iff_right ?_).symm
      rintro rfl
      exact hname hx

theorem mem_put_iff {slots : List (String × Entry)} (h : (slots.map (·.1)).Nodup) {name : String}
    {x : String × Entry} :
    x ∈ put name e slots ↔ x = (name, e) ∨ (x ∈ slots ∧ x.1 ≠ name) := by
  induction slots with
  | nil => simp [put]
  | cons y rest ih =>
    obtain ⟨hy, hrest⟩ := List.nodup_cons.mp h
    rw [put]
    split_ifs with hname
    · have hnot : ∀ z ∈ rest, z.1 ≠ name := fun z hz heq =>
        hy (List.mem_map.mpr ⟨z, hz, heq.trans hname.symm⟩)
      rw [List.mem_cons, List.mem_cons]
      refine or_congr_right ⟨fun hx => ⟨Or.inr hx, hnot x hx⟩, ?_⟩
      rintro ⟨rfl | hx, hne⟩
      · exact absurd hname hne
      · exact hx
    · rw [List.mem_cons, List.mem_cons, ih hrest]
      constructor
      · rintro (rfl | hx | ⟨hx, hne⟩)
        · exact Or.inr ⟨Or.inl rfl, hname⟩
        · exact Or.inl hx
        · exact Or.inr ⟨Or.inr hx, hne⟩
      · rintro (hx | ⟨rfl | hx, hne⟩)
        · exact Or.inr (Or.inl hx)
        · exact Or.inl rfl
        · exact Or.inr (Or.inr ⟨hx, hne⟩)

/-! ### Entries -/

theorem mem_entries_iff : (k, v) ∈ t.entries ↔ t.get? k = some v := by
  rw [mem_entries, get?, Option.map_eq_some_iff]
  simp only [find?_name_iff t.distinct]
  constructor
  · intro he
    exact ⟨_, ⟨he, rfl⟩, rfl⟩
  · rintro ⟨⟨name, k', v'⟩, ⟨hx, hname⟩, rfl⟩
    obtain rfl : k = k' := Bytes.toHex_injective (hname.symm.trans (t.named _ hx))
    obtain rfl : name = k.toHex := hname
    exact hx

theorem mem_entries_set :
    e ∈ (t.set k v).entries ↔ e = (k, v) ∨ (e ∈ t.entries ∧ e.1 ≠ k) := by
  have hentry : (e.1.toHex, e) = (k.toHex, ((k, v) : Entry)) ↔ e = (k, v) := by
    refine ⟨fun h => (Prod.mk.inj h).2, ?_⟩
    rintro rfl
    rfl
  rw [mem_entries, mem_entries, set, mem_put_iff t.distinct, hentry, ne_eq, Bytes.toHex_inj]

theorem mem_entries_remove : e ∈ (t.remove k).entries ↔ e ∈ t.entries ∧ e.1 ≠ k := by
  rw [mem_entries, mem_entries, remove, List.mem_filter, bne_iff_ne, ne_eq, Bytes.toHex_inj]

/-! ### The store of a sheet -/

/-- Entries with different keys are all found in the store that they are put into. -/
theorem mem_foldl_set {l : List Entry} (h : (l.map (·.1)).Nodup) (s : Store) :
    e ∈ (l.foldl (fun s e => s.set e.1 e.2) s).entries ↔
      e ∈ l ∨ (e ∈ s.entries ∧ e.1 ∉ l.map (·.1)) := by
  induction l generalizing s with
  | nil => simp
  | cons x l ih =>
    obtain ⟨hx, hl⟩ := List.nodup_cons.mp h
    rw [List.foldl_cons, ih hl, Store.mem_set_iff, List.mem_cons, List.map_cons, List.mem_cons,
      not_or]
    constructor
    · rintro (he | ⟨rfl | ⟨he, hne⟩, hnot⟩)
      · exact Or.inl (Or.inr he)
      · exact Or.inl (Or.inl rfl)
      · exact Or.inr ⟨he, hne, hnot⟩
    · rintro ((rfl | he) | ⟨he, hne, hnot⟩)
      · exact Or.inr ⟨Or.inl rfl, hx⟩
      · exact Or.inl he
      · exact Or.inr ⟨Or.inr ⟨he, hne⟩, hnot⟩

theorem mem_entries_toStore : e ∈ t.toStore.entries ↔ e ∈ t.entries := by
  rw [toStore, mem_foldl_set t.nodup_keys]
  simp [Store.empty]

/-- Stores with the same entries are the same store. -/
theorem toStore_eq {s : Store} (h : ∀ e, e ∈ t.entries ↔ e ∈ s.entries) : t.toStore = s := by
  refine Store.ext_get? fun k => Option.ext fun v => ?_
  rw [← Store.mem_entries_iff, ← Store.mem_entries_iff, mem_entries_toStore, h]

@[simp] theorem toStore_empty : empty.toStore = .empty := rfl

theorem toStore_set (t : Sheet) (k v : Bytes) : (t.set k v).toStore = t.toStore.set k v :=
  toStore_eq fun e => by rw [mem_entries_set, Store.mem_set_iff, mem_entries_toStore]

theorem toStore_remove (t : Sheet) (k : Bytes) : (t.remove k).toStore = t.toStore.remove k :=
  toStore_eq fun e => by rw [mem_entries_remove, Store.mem_remove_iff, mem_entries_toStore]

theorem get?_toStore (t : Sheet) (k : Bytes) : t.get? k = t.toStore.get? k :=
  Option.ext fun v => by
    rw [← mem_entries_iff, ← Store.mem_entries_iff, mem_entries_toStore]

/-! ### Listings -/

/-- Entries with different keys are in ascending order once they are sorted. -/
theorem ascending_mergeSort {l : List Entry} (h : (l.map (·.1)).Nodup) :
    Ascending (l.mergeSort fun a b => !decide (b.1 < a.1)) := by
  have hsorted : (l.mergeSort fun a b => !decide (b.1 < a.1)).Pairwise
      fun a b => (!decide (b.1 < a.1)) = true := by
    refine List.pairwise_mergeSort (fun a b c hab hbc => ?_) (fun a b => ?_) l
    · simp only [Bool.not_eq_true', decide_eq_false_iff_not] at hab hbc ⊢
      exact List.le_trans (α := UInt8) hab hbc
    · simp only [Bool.or_eq_true, Bool.not_eq_true', decide_eq_false_iff_not]
      exact List.le_total (α := UInt8) a.1 b.1
  have hkeys : ((l.mergeSort fun a b => !decide (b.1 < a.1)).map (·.1)).Nodup :=
    ((List.mergeSort_perm l _).map _).nodup_iff.mpr h
  refine (hsorted.and (List.pairwise_map.mp hkeys)).imp fun {a b} hab => ?_
  have hle : ¬ b.1 < a.1 := by simpa using hab.1
  exact Bytes.lt_of_not_lt_of_ne hle fun heq => hab.2 heq.symm

/-- What is sorted to be listed is listed as a store that was always sorted lists it. -/
theorem range_toStore (t : Sheet) (start stop : Option Bytes) (order : Store.Order) :
    t.range start stop order = t.toStore.range start stop order := by
  have hirrefl : Std.Irrefl fun a b : Entry => a.1 < b.1 := ⟨fun a => List.lt_irrefl a.1⟩
  have hnodup : ((t.entries.filter fun e => Store.inBounds start stop e.1).map (·.1)).Nodup :=
    t.nodup_keys.sublist (List.filter_sublist.map _)
  have hsorted : (t.entries.filter fun e => Store.inBounds start stop e.1).mergeSort
      (fun a b => !decide (b.1 < a.1)) =
      t.toStore.entries.filter fun e => Store.inBounds start stop e.1 := by
    refine List.Pairwise.eq_of_mem_iff (ascending_mergeSort hnodup)
      (t.toStore.ascending.filter _) fun e => ?_
    rw [List.mem_mergeSort, List.mem_filter, List.mem_filter, mem_entries_toStore]
  cases order with
  | ascending => exact hsorted
  | descending => exact congrArg List.reverse hsorted

end TokenLedger.Sheet
