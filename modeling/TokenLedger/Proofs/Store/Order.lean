import TokenLedger.Proofs.Store.Listing

/-!
# The order of listings

A listing is in the order of the bytes of the keys.  For texts that is the order of their bytes; for
pairs it is first the order of the lengths of their first texts, which stand in front, and only then
that of the texts (`Key.Before`).  So a longer first text comes later, whatever it starts with.
-/

namespace TokenLedger

/-! ### Pairs -/

namespace Key

variable {a b x y c c' : Bytes} {k k' : String × String}

/-- The order of pairs: by the length of the first text in bytes, then by the bytes of the first
text, then by the bytes of the second. -/
def Before (k k' : String × String) : Prop :=
  let a := Utf8.encode k.1
  let b := Utf8.encode k'.1
  a.length < b.length ∨
    a.length = b.length ∧ (a < b ∨ a = b ∧ Utf8.encode k.2 < Utf8.encode k'.2)

instance : DecidableRel Before := fun _ _ => inferInstanceAs (Decidable (_ ∨ _))

/-- A shorter first text comes first, although it is the greater text. -/
example : Before ("art-b", "1") ("art-a1", "1") ∧ "art-a1" < "art-b" := by decide

/-- Of two pairs at most one comes before the other. -/
theorem Before.asymm (h : Before k k') : ¬ Before k' k := by
  intro h'
  rcases h with hlength | ⟨hlength, h⟩
  · rcases h' with hlength' | ⟨hlength', -⟩ <;> omega
  · rcases h' with hlength' | ⟨-, h'⟩
    · omega
    · rcases h with hfirst | ⟨hfirst, hsecond⟩
      · rcases h' with hfirst' | ⟨hfirst', -⟩
        · exact List.lt_asymm hfirst hfirst'
        · exact List.lt_irrefl _ (hfirst' ▸ hfirst)
      · rcases h' with hfirst' | ⟨-, hsecond'⟩
        · exact List.lt_irrefl _ (hfirst ▸ hfirst')
        · exact List.lt_asymm hsecond hsecond'

/-- Of two texts of the same length the greater one comes later, whatever follows it. -/
theorem append_lt_append_iff_of_length (h : a.length = b.length) :
    a ++ x < b ++ y ↔ a < b ∨ a = b ∧ x < y := by
  induction a generalizing b with
  | nil =>
    obtain rfl := List.eq_nil_of_length_eq_zero h.symm
    simp
  | cons u a ih =>
    obtain ⟨v, b, rfl⟩ := List.exists_cons_of_length_eq_add_one h.symm
    have hlength : a.length = b.length := Nat.succ.inj h
    rw [List.cons_append, List.cons_append, cons_lt_cons_iff, cons_lt_cons_iff, ih hlength,
      List.cons.injEq]
    tauto

/-- The two bytes in front are in the order of the lengths that they tell. -/
theorem withLength_append_lt_iff (ha : a.length ≤ maxSegment) (hb : b.length ≤ maxSegment) :
    withLength a ++ x < withLength b ++ y ↔
      a.length < b.length ∨ a.length = b.length ∧ (a < b ∨ a = b ∧ x < y) := by
  unfold maxSegment at ha hb
  simp only [withLength, List.cons_append, cons_lt_cons_iff, UInt8.lt_iff_toNat_lt,
    ← UInt8.toNat_inj]
  rw [Utf8.toNat_ofNat (by omega), Utf8.toNat_ofNat (by omega), Utf8.toNat_ofNat (by omega),
    Utf8.toNat_ofNat (by omega)]
  by_cases hlength : a.length = b.length
  · rw [hlength, append_lt_append_iff_of_length hlength]
    simp
  · simp only [hlength, false_and, or_false]
    omega

/-- The bytes of keys are in the order of the pairs. -/
theorem encode_lt_iff_before (hk : pair.encode k = .ok c) (hk' : pair.encode k' = .ok c') :
    c < c' ↔ Before k k' := by
  obtain ⟨hshort, rfl⟩ := encode_pair_eq_ok.mp hk
  obtain ⟨hshort', rfl⟩ := encode_pair_eq_ok.mp hk'
  exact withLength_append_lt_iff hshort hshort'

end Key

/-! ### Listings -/

namespace RecordMap

variable {K V : Type} {m : RecordMap K V} {P p : K → V → Prop} {s : Store} {all : List (K × V)}

theorem Below.encode_lt_of_text {m : RecordMap String V} (hm : m.key = Key.text)
    {r r' : String × V} (h : m.Below r r') : Utf8.encode r.1 < Utf8.encode r'.1 := by
  obtain ⟨b, b', hb, hb', hlt⟩ := h.encode_lt
  rw [hm] at hb hb'
  obtain rfl := Except.ok.inj hb
  obtain rfl := Except.ok.inj hb'
  exact hlt

theorem Below.before_of_pair {m : RecordMap (String × String) V} (hm : m.key = Key.pair)
    {r r' : (String × String) × V} (h : m.Below r r') : Key.Before r.1 r'.1 := by
  obtain ⟨b, b', hb, hb', hlt⟩ := h.encode_lt
  rw [hm] at hb hb'
  exact (Key.encode_lt_iff_before hb hb').mp hlt

/-- The records of a map that have a property, each once and in the order of their keys. -/
structure Lists (m : RecordMap K V) (s : Store) (p : K → V → Prop) (listed : List (K × V)) :
    Prop where
  mem : ∀ k v, (k, v) ∈ listed ↔ m.load? s k = .ok (some v) ∧ p k v
  ascending : listed.Pairwise m.Below

/-- What a listing keeps of all records. -/
theorem lists_filter [m.key.Lawful] (hs : m.Holds P s) (h : m.entries s .ascending = .ok all)
    {keep : K × V → Bool} (hkeep : ∀ k v, keep (k, v) = true ↔ p k v) :
    m.Lists s p (all.filter keep) where
  mem k v := by
    obtain ⟨all', hall, hmem, -⟩ := hs.listing
    obtain rfl := Except.ok.inj (hall.symm.trans h)
    rw [List.mem_filter, hmem, hkeep]
  ascending := by
    obtain ⟨all', hall, -, hbelow⟩ := hs.listing
    obtain rfl := Except.ok.inj (hall.symm.trans h)
    exact hbelow.filter _

end RecordMap

end TokenLedger
