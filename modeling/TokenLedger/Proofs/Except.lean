import TokenLedger.Fault

/-!
# Steps that may fail

A chain of steps gives a value if each step does.
-/

namespace TokenLedger

variable {ε α β : Type}

theorem Except.ok_bind (a : α) (f : α → Except ε β) : (.ok a >>= f : Except ε β) = f a := rfl

theorem Except.bind_eq_ok {x : Except ε α} {f : α → Except ε β} {b : β} :
    x >>= f = .ok b ↔ ∃ a, x = .ok a ∧ f a = .ok b := by
  cases x with
  | error e => simp [bind, Except.bind]
  | ok a => simp [bind, Except.bind]

theorem Except.map_eq_ok {x : Except ε α} {f : α → β} {b : β} :
    f <$> x = .ok b ↔ ∃ a, x = .ok a ∧ f a = b := by
  cases x with
  | error e => simp [Functor.map, Except.map]
  | ok a => simp [Functor.map, Except.map]

theorem Except.bind_eq_error {x : Except ε α} {f : α → Except ε β} {e : ε} :
    x >>= f = .error e ↔ x = .error e ∨ ∃ a, x = .ok a ∧ f a = .error e := by
  cases x with
  | error e' => simp [bind, Except.bind]
  | ok a => simp [bind, Except.bind]

theorem Except.map_eq_error {x : Except ε α} {f : α → β} {e : ε} :
    f <$> x = .error e ↔ x = .error e := by
  cases x with
  | error e' => simp [Functor.map, Except.map]
  | ok a => simp [Functor.map, Except.map]

/-- Behind a check there is a value if the check lets it pass. -/
theorem Except.exists_unless_eq_ok {c : Prop} [Decidable c] {e : ε} {x : Except ε α} :
    (∃ a, (if c then .error e else x) = .ok a) ↔ ¬ c ∧ ∃ a, x = .ok a := by
  by_cases hc : c
  · simp [hc]
  · simp [hc]

theorem Except.exists_ok_of_toOption {x : Except ε α} (h : x.toOption.isSome = true) :
    ∃ a, x = .ok a := by
  cases x with
  | error e => cases h
  | ok a => exact ⟨a, rfl⟩

theorem Except.eq_ok_of_toOption {x : Except ε α} {a : α} (h : x.toOption = some a) :
    x = .ok a := by
  cases x with
  | error e => cases h
  | ok b => exact congrArg Except.ok (Option.some.inj h)

theorem Except.ne_ok_of_toOption {x : Except ε α} (h : x.toOption = none) (a : α) :
    x ≠ .ok a := by
  rintro rfl
  cases h

/-- A list of steps stops at one that fails. -/
theorem Except.exists_of_mapM_eq_error {f : α → Except ε β} {l : List α} {e : ε}
    (h : l.mapM f = .error e) : ∃ a ∈ l, f a = .error e := by
  induction l with
  | nil => cases h
  | cons a l ih =>
    rw [List.mapM_cons] at h
    rcases Except.bind_eq_error.mp h with ha | ⟨b, -, hrest⟩
    · exact ⟨a, List.mem_cons_self, ha⟩
    · rcases Except.bind_eq_error.mp hrest with hl | ⟨bs, -, hcons⟩
      · obtain ⟨a', ha', hfail⟩ := ih hl
        exact ⟨a', List.mem_cons_of_mem a ha', hfail⟩
      · cases hcons

theorem Except.mapM_cons_eq_ok {f : α → Except ε β} {a : α} {l : List α} {bs : List β} :
    (a :: l).mapM f = .ok bs ↔ ∃ b rest, f a = .ok b ∧ l.mapM f = .ok rest ∧ bs = b :: rest := by
  rw [List.mapM_cons]
  constructor
  · intro h
    obtain ⟨b, hb, h⟩ := Except.bind_eq_ok.mp h
    obtain ⟨rest, hrest, h⟩ := Except.bind_eq_ok.mp h
    exact ⟨b, rest, hb, hrest, (Except.ok.inj h).symm⟩
  · rintro ⟨b, rest, hb, hrest, rfl⟩
    rw [hb, hrest]
    rfl

/-- What gives a value at each step has what such a step needs. -/
theorem Except.forall_of_mapM_eq_ok {f : α → Except ε β} {P : α → Prop}
    (hf : ∀ a b, f a = .ok b → P a) {l : List α} {bs : List β} (h : l.mapM f = .ok bs) :
    ∀ a ∈ l, P a := by
  induction l generalizing bs with
  | nil => exact fun a ha => absurd ha List.not_mem_nil
  | cons a l ih =>
    obtain ⟨b, rest, hb, hrest, rfl⟩ := Except.mapM_cons_eq_ok.mp h
    exact List.forall_mem_cons.mpr ⟨hf a b hb, ih hrest⟩

/-- A list of steps that all give a value can be taken from its end. -/
theorem Except.mapM_reverse {f : α → Except ε β} {l : List α} {bs : List β}
    (h : l.mapM f = .ok bs) : l.reverse.mapM f = .ok bs.reverse := by
  induction l generalizing bs with
  | nil =>
    obtain rfl := Except.ok.inj h
    rfl
  | cons a l ih =>
    obtain ⟨b, rest, hb, hrest, rfl⟩ := Except.mapM_cons_eq_ok.mp h
    rw [List.reverse_cons, List.mapM_append, ih hrest, List.mapM_cons, hb, List.reverse_cons]
    rfl

end TokenLedger
