import TokenLedger.Proofs.Store.Order

/-!
# Pairs of texts as keys

A pair can be a key exactly if its first text is short enough, and is read back from it.  The bytes of
keys are in the order of the pairs (`Before`), so that in any list of keys in order those with one
first text stand side by side (`exists_run_hasFirst`).  Bytes are no key exactly if they end before
the length in front of them is over.
-/

namespace TokenLedger.Key

variable {k : String × String} {raw x y z : Bytes} {a : String} {keys : List Bytes}

/-! ### Refusals -/

theorem encode_pair_eq_error {e : Fault} :
    pair.encode k = .error e ↔
      maxSegment < (Utf8.encode k.1).length ∧ e = fault (.longSegment (Utf8.encode k.1).length) := by
  by_cases hshort : IsShort k.1
  · rw [encode_pair hshort k.2]
    have hlength : ¬ maxSegment < (Utf8.encode k.1).length := Nat.not_lt.mpr hshort
    simp [hlength]
  · have hlength : maxSegment < (Utf8.encode k.1).length := Nat.not_le.mp hshort
    show (· ++ Utf8.encode k.2) <$> lengthPrefixed (Utf8.encode k.1) = .error e ↔ _
    rw [Except.map_eq_error, lengthPrefixed, if_pos hlength, Except.error.injEq, eq_comm]
    exact (and_iff_right hlength).symm

/-- The length that the two bytes in front tell. -/
def announced : Bytes → Nat
  | hi :: lo :: _ => hi.toNat * 256 + lo.toNat
  | _ => 0

theorem decode_pair_eq_error {e : Fault} :
    pair.decode raw = .error e ↔
      (raw.length < 2 ∧ e = fault .shortPair) ∨
        (2 ≤ raw.length ∧ raw.length < 2 + announced raw ∧ e = fault .truncatedPair) := by
  match raw with
  | [] => simp [pair, eq_comm]
  | [_] => simp [pair, eq_comm]
  | hi :: lo :: rest =>
    have hlength : (hi :: lo :: rest).length = 2 + rest.length := by
      simp only [List.length_cons]
      omega
    have hlong : ¬ 2 + rest.length < 2 := by omega
    have htwo : 2 ≤ 2 + rest.length := by omega
    rw [hlength, announced, pair]
    simp only [hlong, htwo, false_and, false_or, true_and, Nat.add_lt_add_iff_left]
    by_cases hrest : rest.length < hi.toNat * 256 + lo.toNat
    · simp only [hrest, if_true, Except.error.injEq, true_and, eq_comm]
    · simp only [hrest, if_false, reduceCtorEq, false_and]

/-! ### Runs -/

/-- The key of a pair with a given first text. -/
def HasFirst (a : String) (raw : Bytes) : Prop := ∃ b, pair.encode (a, b) = .ok raw

theorem HasFirst.isPrefix (h : HasFirst a raw) : withLength (Utf8.encode a) <+: raw := by
  obtain ⟨b, hb⟩ := h
  obtain ⟨-, rfl⟩ := encode_pair_eq_ok.mp hb
  exact List.prefix_append _ _

theorem hasFirst_of_isPrefix (ha : IsShort a) (h : pair.encode k = .ok raw)
    (hstarts : withLength (Utf8.encode a) <+: raw) : HasFirst a raw := by
  obtain ⟨hshort, rfl⟩ := encode_pair_eq_ok.mp h
  have hsame : Utf8.encode a = Utf8.encode k.1 :=
    withLength_inj ha hshort hstarts (List.prefix_append _ _)
  obtain rfl : a = k.1 := Utf8.encode_injective hsame
  exact ⟨k.2, h⟩

/-- What starts as its neighbours on both sides do starts so itself. -/
theorem isPrefix_of_between {p : Bytes} (hx : p <+: x) (hz : p <+: z) (hxy : x < y) (hyz : y < z) :
    p <+: y := by
  rw [isPrefix_iff] at hx hz ⊢
  refine ⟨fun hyp => hx.1 (List.lt_trans hxy hyp), fun stop hstop => ?_⟩
  exact List.lt_trans hyz (hz.2 stop hstop)

theorem HasFirst.between (hx : HasFirst a x) (hz : HasFirst a z) (hxy : x < y) (hyz : y < z)
    (hy : pair.encode k = .ok y) : HasFirst a y := by
  have ha : IsShort a := by
    obtain ⟨b, hb⟩ := hx
    exact (encode_pair_eq_ok.mp hb).1
  exact hasFirst_of_isPrefix ha hy (isPrefix_of_between hx.isPrefix hz.isPrefix hxy hyz)

/-- In a list in order, a property that passes to whatever stands between two members that have it
is had by one run of the list. -/
theorem exists_run {α : Type} {r : α → α → Prop} {p : α → Prop} {l : List α} (hl : l.Pairwise r)
    (hbetween : ∀ x ∈ l, ∀ y ∈ l, ∀ z ∈ l, r x y → r y z → p x → p z → p y) :
    ∃ before within after, l = before ++ within ++ after ∧ (∀ x ∈ within, p x) ∧
      ∀ x ∈ before ++ after, ¬ p x := by
  induction l with
  | nil => exact ⟨[], [], [], rfl, by simp, by simp⟩
  | cons x l ih =>
    obtain ⟨hx, hl'⟩ := List.pairwise_cons.mp hl
    obtain ⟨before, within, after, rfl, hwithin, hothers⟩ := ih hl' fun u hu v hv w hw =>
      hbetween u (List.mem_cons_of_mem x hu) v (List.mem_cons_of_mem x hv) w
        (List.mem_cons_of_mem x hw)
    by_cases hp : p x
    · -- the run begins here, unless there is none behind: then nothing stands before it
      cases within with
      | nil =>
        refine ⟨[], [x], before ++ after, by simp, by simpa using hp, ?_⟩
        simpa using hothers
      | cons z within =>
        cases before with
        | nil => exact ⟨[], x :: z :: within, after, by simp, by simpa [hp] using hwithin, hothers⟩
        | cons y before =>
          have hy : ¬ p y := hothers y (by simp)
          have hxy : r x y := hx y (by simp)
          have hyz : r y z := (List.pairwise_cons.mp hl').1 z (by simp)
          have hz : p z := hwithin z (by simp)
          exact absurd (hbetween x (by simp) y (by simp) z (by simp) hxy hyz hp hz) hy
    · refine ⟨x :: before, within, after, by simp, hwithin, ?_⟩
      simpa [hp] using hothers

/-- Keys with one first text stand side by side. -/
theorem exists_run_hasFirst (hkeys : keys.Pairwise (· < ·))
    (hpairs : ∀ raw ∈ keys, ∃ k, pair.encode k = .ok raw) (a : String) :
    ∃ before within after, keys = before ++ within ++ after ∧ (∀ raw ∈ within, HasFirst a raw) ∧
      ∀ raw ∈ before ++ after, ¬ HasFirst a raw := by
  refine exists_run hkeys fun x _ y hy z _ hxy hyz hx hz => ?_
  obtain ⟨k, hk⟩ := hpairs y hy
  exact hx.between hz hxy hyz hk

/-! ### Pairs -/

/-- **Pairs are faithful as keys, and in order.**  Of pairs whose first texts are short enough no two
have one key, and each is read back from its own; a pair has no key exactly if its first text is
longer than two bytes can tell.  Keys are in the order of the lengths of the first texts, then of the
first texts, then of the second ones, so that in order those with one first text stand side by side.
Bytes are no key exactly if they are too short for a length or for what it announces. -/
theorem pairs_faithful :
    (∀ a b c d, IsShort a → IsShort c → pair.encode (a, b) = pair.encode (c, d) →
      a = c ∧ b = d) ∧
    (∀ a b, IsShort a → ∃ raw, pair.encode (a, b) = .ok raw ∧ pair.decode raw = .ok (a, b)) ∧
    (∀ a b, (∃ e, pair.encode (a, b) = .error e) ↔ 65535 < (Utf8.encode a).length) ∧
    (∀ k k' raw raw', pair.encode k = .ok raw → pair.encode k' = .ok raw' →
      (raw < raw' ↔ Before k k')) ∧
    (∀ keys : List Bytes, keys.Pairwise (· < ·) → (∀ raw ∈ keys, ∃ k, pair.encode k = .ok raw) →
      ∀ a, ∃ before within after, keys = before ++ within ++ after ∧
        (∀ raw ∈ within, HasFirst a raw) ∧ ∀ raw ∈ before ++ after, ¬ HasFirst a raw) ∧
    ∀ raw, (∃ e, pair.decode raw = .error e) ↔ raw.length < 2 ∨ raw.length < 2 + announced raw := by
  refine ⟨fun a b c d ha _ heq => ?_, fun a b ha => ?_, fun a b => ?_,
    fun k k' raw raw' h h' => encode_lt_iff_before h h',
    fun keys hkeys hpairs a => exists_run_hasFirst hkeys hpairs a, fun raw => ?_⟩
  · have hleft := encode_pair ha b
    exact Prod.mk.inj (KeyCodec.Lawful.encode_inj hleft (heq ▸ hleft))
  · exact ⟨_, encode_pair ha b, KeyCodec.Lawful.decode_encode (encode_pair ha b)⟩
  · simp only [encode_pair_eq_error, exists_and_left, exists_eq, and_true]
    exact Iff.rfl
  · simp only [decode_pair_eq_error, exists_or, exists_and_left, exists_eq, and_true]
    omega

end TokenLedger.Key
