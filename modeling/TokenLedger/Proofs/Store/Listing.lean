import TokenLedger.Proofs.Store.RecordMap

/-!
# Listings of record maps

A listing reads every entry behind the name of a map.  In a store where all of them are records it
does not fail, it has exactly the records that are loaded under their keys, and it has them in the
order of the bytes of their keys.
-/

namespace TokenLedger.RecordMap

variable {K V : Type} {m : RecordMap K V} {P : K → V → Prop} {s : Store} {l : List Entry}
  {e : Entry} {r r' : K × V} {all : List (K × V)}

/-! ### Entries and records -/

/-- A record and the entry of the store that it is read from. -/
def ReadFrom (m : RecordMap K V) (e : Entry) (r : K × V) : Prop :=
  m.fullKey r.1 = .ok e.1 ∧ m.readRecord e.2 = .ok r.2

/-- The key of one record is below that of another. -/
def Below (m : RecordMap K V) (r r' : K × V) : Prop :=
  ∃ b b', m.fullKey r.1 = .ok b ∧ m.fullKey r'.1 = .ok b' ∧ b < b'

theorem Below.ne (h : m.Below r r') : r.1 ≠ r'.1 := by
  obtain ⟨b, b', hb, hb', hlt⟩ := h
  intro heq
  rw [heq, hb'] at hb
  obtain rfl := Except.ok.inj hb
  exact List.lt_irrefl _ hlt

/-- The order of records is that of the bytes of their keys. -/
theorem Below.encode_lt (h : m.Below r r') :
    ∃ b b', m.key.encode r.1 = .ok b ∧ m.key.encode r'.1 = .ok b' ∧ b < b' := by
  obtain ⟨_, _, hb, hb', hlt⟩ := h
  obtain ⟨b, hk, rfl⟩ := fullKey_eq_ok.mp hb
  obtain ⟨b', hk', rfl⟩ := fullKey_eq_ok.mp hb'
  exact ⟨b, b', hk, hk', (Key.append_lt_append_iff _).mp hlt⟩

/-- A listing in descending order is the one in ascending order from its end. -/
theorem entries_descending (h : m.entries s .ascending = .ok all) :
    m.entries s .descending = .ok all.reverse := Except.mapM_reverse h

variable [m.key.Lawful]

theorem ReadFrom.unique (h : m.ReadFrom e r) (h' : m.ReadFrom e r') : r' = r := by
  have hkey : r'.1 = r.1 := fullKey_inj h'.1 h.1
  have hvalue : r'.2 = r.2 := Except.ok.inj (h'.2.symm.trans h.2)
  exact Prod.ext hkey hvalue

theorem ReadFrom.readEntry (h : m.ReadFrom e r) : m.readEntry e = .ok r := readEntry_eq_ok h.1 h.2

/-- Entries that are records are read one by one, and their order is that of the records. -/
theorem mapM_records (hl : Ascending l) (hread : ∀ e ∈ l, ∃ r, m.ReadFrom e r) :
    ∃ all, l.mapM m.readEntry = .ok all ∧ (∀ r, r ∈ all ↔ ∃ e ∈ l, m.ReadFrom e r) ∧
      all.Pairwise m.Below := by
  induction l with
  | nil => exact ⟨[], rfl, by simp, List.Pairwise.nil⟩
  | cons e l ih =>
    obtain ⟨he, hl⟩ := List.pairwise_cons.mp hl
    obtain ⟨⟨r, hr⟩, hread⟩ := List.forall_mem_cons.mp hread
    obtain ⟨all, hall, hmem, hbelow⟩ := ih hl hread
    refine ⟨r :: all, ?_, fun r' => ?_, List.pairwise_cons.mpr ⟨fun r' hr' => ?_, hbelow⟩⟩
    · rw [List.mapM_cons, hr.readEntry, hall]
      rfl
    · rw [List.mem_cons, hmem, List.exists_mem_cons_iff]
      have hhead : r' = r ↔ m.ReadFrom e r' := ⟨fun heq => heq ▸ hr, fun h => hr.unique h⟩
      rw [hhead]
    · obtain ⟨e', he', hread'⟩ := (hmem r').mp hr'
      exact ⟨e.1, e'.1, hr.1, hread'.1, he e' he'⟩

/-- A listing has the records that are loaded, each once and in the order of their keys. -/
theorem Holds.listing (hs : m.Holds P s) :
    ∃ all, m.entries s .ascending = .ok all ∧
      (∀ k v, (k, v) ∈ all ↔ m.load? s k = .ok (some v)) ∧ all.Pairwise m.Below := by
  unfold RecordMap.entries
  rw [range_root]
  have hread : ∀ e ∈ s.entries.filter fun e => m.root.isPrefixOf e.1, ∃ r, m.ReadFrom e r := by
    rintro ⟨b, raw⟩ he
    obtain ⟨hb, hroot⟩ := List.mem_filter.mp he
    obtain ⟨k, v, hk, rfl, hv, -⟩ :=
      hs b raw (Store.mem_entries_iff.mp hb) (List.isPrefixOf_iff_prefix.mp hroot)
    exact ⟨(k, v), hk, hv⟩
  obtain ⟨all, hall, hmem, hbelow⟩ := mapM_records (s.ascending.filter _) hread
  refine ⟨all, hall, fun k v => ?_, hbelow⟩
  rw [hmem]
  constructor
  · rintro ⟨⟨b, raw⟩, he, hk, hv⟩
    obtain ⟨hb, -⟩ := List.mem_filter.mp he
    exact (load?_eq_some_iff hk).mpr ⟨raw, Store.mem_entries_iff.mp hb, hv⟩
  · intro hload
    obtain ⟨b, hk⟩ := fullKey_of_load? hload
    obtain ⟨raw, hb, hv⟩ := (load?_eq_some_iff hk).mp hload
    refine ⟨(b, raw), List.mem_filter.mpr ⟨Store.mem_entries_iff.mpr hb, ?_⟩, hk, hv⟩
    exact List.isPrefixOf_iff_prefix.mpr (root_isPrefix hk)

end TokenLedger.RecordMap
