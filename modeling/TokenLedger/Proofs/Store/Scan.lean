import TokenLedger.Proofs.Store.RecordMap

/-!
# Scans behind a name

A record map lists what stands from its root up to `Key.above` of it.  Whatever bytes end the root,
these bounds hold exactly what starts with it (`scan_exact`), and what starts with the root of one map
never starts with that of a map of another name.
-/

namespace TokenLedger

namespace Key

variable {p stop : Bytes}

/-! ### The bound above -/

@[simp] theorem above_replicate (n : Nat) : above (List.replicate n 0xff) = none := by
  induction n with
  | zero => rfl
  | succ n ih => rw [List.replicate_succ, above, ih]; rfl

/-- The last byte that can grow grows, and what stands behind it goes. -/
theorem above_append_replicate (q : Bytes) {x : UInt8} (hx : x ≠ 0xff) (n : Nat) :
    above (q ++ x :: List.replicate n 0xff) = some (q ++ [x + 1]) := by
  induction q with
  | nil =>
    have hlt : x < 0xff := by
      have hle := x.toNat_lt
      have hne : x.toNat ≠ 255 := fun h => hx (UInt8.toNat_inj.mp h)
      rw [UInt8.lt_iff_toNat_lt]
      show x.toNat < 255
      omega
    rw [List.nil_append, above, above_replicate]
    exact if_pos hlt
  | cons y q ih => rw [List.cons_append, above, ih]; rfl

theorem isPrefix_iff_le (p k : Bytes) :
    p <+: k ↔ p ≤ k ∧ (above p = none ∨ ∃ stop, above p = some stop ∧ k < stop) := by
  rw [isPrefix_iff]
  refine and_congr Iff.rfl ?_
  cases above p with
  | none => simp
  | some stop => simp

/-- The bound is the least byte string above all that start with `p`. -/
theorem isLeast_above (h : above p = some stop) :
    (∀ k, p <+: k → k < stop) ∧ ∀ b : Bytes, (∀ k, p <+: k → k < b) → stop ≤ b := by
  refine ⟨fun k hk => ((isPrefix_iff p k).mp hk).2 stop h, fun b hb hlt => ?_⟩
  -- below the bound and above `p`, it would start with `p` and be above itself
  have hpb : ¬ b < p := fun hbp => List.lt_irrefl p (List.lt_trans (hb p List.prefix_rfl) hbp)
  have hstarts : p <+: b := (isPrefix_iff p b).mpr ⟨hpb, fun stop' h' => by
    obtain rfl := Option.some.inj (h'.symm.trans h)
    exact hlt⟩
  exact List.lt_irrefl b (hb b hstarts)

end Key

namespace RecordMap

variable {K V K' V' : Type} {m : RecordMap K V} {m' : RecordMap K' V'}

/-! ### Scans -/

/-- A scan finds every entry behind the root and no other. -/
theorem mem_range_root {s : Store} {e : Entry} {order : Store.Order} :
    e ∈ s.range (some m.root) (Key.above m.root) order ↔ e ∈ s.entries ∧ m.root <+: e.1 := by
  have hascending : e ∈ s.range (some m.root) (Key.above m.root) .ascending ↔
      e ∈ s.entries ∧ m.root <+: e.1 := by
    rw [range_root, List.mem_filter, List.isPrefixOf_iff_prefix]
  cases order with
  | ascending => exact hascending
  | descending => exact List.mem_reverse.trans hascending

theorem not_root_isPrefix (hname : m.name ≠ m'.name) {k : K} {b : Bytes}
    (hk : m.fullKey k = .ok b) : ¬ m'.root <+: b := fun hroot =>
  hname (name_eq_of_isPrefix (root_isPrefix hk) hroot)

/-- **The bounds of a scan are exact.**  A byte string starts with another one exactly if it is not
below it and, where there is a bound above that one, below the bound; bytes that cannot grow at the
end do not count, and where there are no others there is no bound.  So the scan of a map finds its
part of a store, and of two maps of different names neither has a key in the part of the other. -/
theorem scan_exact :
    (∀ p k : Bytes,
      p <+: k ↔ p ≤ k ∧ (Key.above p = none ∨ ∃ stop, Key.above p = some stop ∧ k < stop)) ∧
    (∀ n, Key.above (List.replicate n 0xff) = none) ∧
    (∀ (q : Bytes) (x : UInt8) (n : Nat), x ≠ 0xff →
      Key.above (q ++ x :: List.replicate n 0xff) = some (q ++ [x + 1])) ∧
    (∀ {K V : Type} (m : RecordMap K V) (s : Store) (order : Store.Order) (e : Entry),
      e ∈ s.range (some m.root) (Key.above m.root) order ↔ e ∈ s.entries ∧ m.root <+: e.1) ∧
    ∀ {K V K' V' : Type} (m : RecordMap K V) (m' : RecordMap K' V'), m.name ≠ m'.name →
      ∀ k b, m.fullKey k = .ok b → ¬ m'.root <+: b :=
  ⟨Key.isPrefix_iff_le, Key.above_replicate, fun q _ n hx => Key.above_append_replicate q hx n,
    fun _ _ _ _ => mem_range_root, fun _ _ hname _ _ hk => not_root_isPrefix hname hk⟩

end RecordMap

end TokenLedger
