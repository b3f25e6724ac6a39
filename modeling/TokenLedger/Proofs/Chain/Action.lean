import TokenLedger.Chain.Action

/-!
# What actions do

`Runs x s a t` says that an action succeeds on a store, with what result and on which store.  The
rules take an action apart into its steps: it runs if every step runs on the store that the one
before has left.  `Keeps` is about the store alone and also about actions that fail half-way.
-/

namespace TokenLedger.Action

variable {α β : Type} {s t u : Store} {a : α} {b : β}

/-- An action succeeds on a store with a result and leaves a store. -/
def Runs (x : Action α) (s : Store) (a : α) (t : Store) : Prop :=
  (x s).result = .ok a ∧ (x s).store = t

theorem Runs.unique {x : Action α} {a' : α} (h : x.Runs s a t) (h' : x.Runs s a' u) :
    a = a' ∧ t = u :=
  ⟨Except.ok.inj (h.1.symm.trans h'.1), h.2.symm.trans h'.2⟩

theorem not_runs_of_error {x : Action α} {e : Fault} (h : (x s).result = .error e) :
    ¬ x.Runs s a t := by
  rintro ⟨hok, -⟩
  rw [h] at hok
  cases hok

/-! ### Steps -/

theorem runs_bind {x : Action α} {f : α → Action β} :
    (x >>= f).Runs s b u ↔ ∃ a t, x.Runs s a t ∧ (f a).Runs t b u := by
  show (Action.bind x f s).result = .ok b ∧ (Action.bind x f s).store = u ↔ _
  unfold Action.bind Runs
  cases hx : (x s).result with
  | error e => simp [hx]
  | ok a =>
    simp only [hx, Except.ok.injEq]
    exact ⟨fun h => ⟨a, _, ⟨rfl, rfl⟩, h⟩, by rintro ⟨_, _, ⟨rfl, rfl⟩, h⟩; exact h⟩

theorem runs_pure {a' : α} : (pure a : Action α).Runs s a' t ↔ a' = a ∧ t = s := by
  show Except.ok a = Except.ok a' ∧ s = t ↔ _
  rw [Except.ok.injEq, eq_comm, eq_comm (a := s)]

theorem runs_ofExcept {x : Except Fault α} : (ofExcept x).Runs s a t ↔ x = .ok a ∧ t = s := by
  show x = .ok a ∧ s = t ↔ _
  rw [eq_comm (a := s)]

theorem not_runs_fail {e : Fault} : ¬ (fail e : Action α).Runs s a t := by
  rintro ⟨h, -⟩
  cases h

theorem runs_read {f : Store → Except Fault α} : (read f).Runs s a t ↔ f s = .ok a ∧ t = s := by
  show f s = .ok a ∧ s = t ↔ _
  rw [eq_comm (a := s)]

theorem runs_ask {f : Store → Noted α} : (ask f).Runs s a t ↔ (f s).result = .ok a ∧ t = s := by
  show (f s).result = .ok a ∧ s = t ↔ _
  rw [eq_comm (a := s)]

theorem runs_write {f : Store → Except Fault Store} {r : Unit} :
    (write f).Runs s r t ↔ f s = .ok t := by
  unfold Runs write
  cases f s with
  | error e => simp
  | ok t' => simp

theorem runs_note {n : Note} {r : Unit} : (note n).Runs s r t ↔ t = s := by
  show Except.ok () = Except.ok r ∧ s = t ↔ _
  simp [eq_comm]

theorem runs_log {source text : String} {members : List (String × Json)} {r : Unit} :
    (log source members text).Runs s r t ↔ t = s := runs_note

theorem runs_require {condition : Bool} {e : Fault} {r : Unit} :
    (require condition e).Runs s r t ↔ condition = true ∧ t = s := by
  unfold require
  cases condition with
  | false => simp [not_runs_fail]
  | true => simp [runs_pure]

/-- What follows a check matters only for what the check may find. -/
theorem ofExcept_bind_congr {x : Except Fault α} {f g : α → Action β}
    (h : ∀ a, x = .ok a → f a = g a) : ofExcept x >>= f = ofExcept x >>= g := by
  cases x with
  | error e => rfl
  | ok a =>
    show Action.bind (ofExcept (.ok a)) f = Action.bind (ofExcept (.ok a)) g
    unfold Action.bind ofExcept
    dsimp only
    rw [h a rfl]

/-! ### Failures -/

/-- An action fails on a store. -/
def Fails (x : Action α) (s : Store) (e : Fault) : Prop := (x s).result = .error e

variable {e e' : Fault}

/-- A sequence fails at its first step, or at a later one on the store that the first has left. -/
theorem fails_bind {x : Action α} {f : α → Action β} :
    (x >>= f).Fails s e ↔ x.Fails s e ∨ ∃ a t, x.Runs s a t ∧ (f a).Fails t e := by
  show (Action.bind x f s).result = .error e ↔ _
  unfold Action.bind Fails Runs
  cases hx : (x s).result with
  | error e => simp [hx]
  | ok a =>
    simp only [hx, Except.ok.injEq, reduceCtorEq, false_or]
    exact ⟨fun h => ⟨a, _, ⟨rfl, rfl⟩, h⟩, by rintro ⟨_, _, ⟨rfl, rfl⟩, h⟩; exact h⟩

theorem fails_ofExcept {x : Except Fault α} : (ofExcept x).Fails s e ↔ x = .error e := Iff.rfl

theorem fails_read {f : Store → Except Fault α} : (read f).Fails s e ↔ f s = .error e := Iff.rfl

theorem fails_write {f : Store → Except Fault Store} :
    (write f).Fails s e ↔ f s = .error e := by
  unfold Fails write
  cases f s with
  | error e => simp
  | ok t => simp

theorem fails_require {condition : Bool} :
    (require condition e').Fails s e ↔ condition = false ∧ e = e' := by
  unfold require
  cases condition with
  | false => simp [Fails, fail, eq_comm]
  | true => simp [Fails, pure, Action.pure]

theorem not_fails_pure : ¬ (pure a : Action α).Fails s e := by
  rintro ⟨⟩

theorem not_fails_log {source text : String} {members : List (String × Json)} :
    ¬ (log source members text).Fails s e := by
  rintro ⟨⟩

/-! ### What an action may fail with -/

/-- Whatever an action fails with has a property. -/
def FailsOnly (x : Action α) (Q : Fault → Prop) : Prop := ∀ s e, x.Fails s e → Q e

variable {P Q : Fault → Prop}

theorem FailsOnly.mono {x : Action α} (h : x.FailsOnly P) (hpq : ∀ e, P e → Q e) :
    x.FailsOnly Q := fun s e he => hpq e (h s e he)

theorem failsOnly_bind {x : Action α} {f : α → Action β} (hx : x.FailsOnly Q)
    (hf : ∀ a, (f a).FailsOnly Q) : (x >>= f).FailsOnly Q := by
  intro s e h
  rcases fails_bind.mp h with hfirst | ⟨a, t, -, hsecond⟩
  · exact hx s e hfirst
  · exact hf a t e hsecond

theorem failsOnly_pure : (pure a : Action α).FailsOnly Q :=
  fun _ _ h => absurd h not_fails_pure

theorem failsOnly_ofExcept {x : Except Fault α} (h : ∀ e, x = .error e → Q e) :
    (ofExcept x).FailsOnly Q := fun _ e he => h e (fails_ofExcept.mp he)

theorem failsOnly_ask {f : Store → Noted α} (h : ∀ s e, (f s).result = .error e → Q e) :
    (ask f).FailsOnly Q := h

theorem failsOnly_write {f : Store → Except Fault Store} (h : ∀ s e, f s = .error e → Q e) :
    (write f).FailsOnly Q := fun s e he => h s e (fails_write.mp he)

theorem failsOnly_require {condition : Bool} (h : Q e') : (require condition e').FailsOnly Q :=
  fun _ _ he => (fails_require.mp he).2 ▸ h

theorem failsOnly_log {source text : String} {members : List (String × Json)} :
    (log source members text).FailsOnly Q := fun _ _ h => absurd h not_fails_log

/-! ### Transactions -/

/-- What is undone when it fails has the same result. -/
theorem result_orUndo (x : Action α) (s : Store) : (x.orUndo s).result = (x s).result := by
  unfold orUndo
  cases h : (x s).result with
  | ok a => simp only [h]
  | error e => simp only [h]

/-- What undoes its changes when it fails either succeeds or changes nothing. -/
theorem orUndo_cases (x : Action α) (s : Store) :
    (∃ a t, x.Runs s a t ∧ x.orUndo.Runs s a t) ∨
      ∃ e, (x s).result = .error e ∧ (x.orUndo s).result = .error e ∧ (x.orUndo s).store = s := by
  unfold orUndo
  cases h : (x s).result with
  | ok a =>
    refine Or.inl ⟨a, (x s).store, ⟨h, rfl⟩, ?_⟩
    simp only [Runs, h, and_self]
  | error e =>
    refine Or.inr ⟨e, rfl, ?_⟩
    simp only [h, and_self]

/-! ### What is kept -/

/-- An action leaves a store with a property, whether it succeeds or not, if it starts on one. -/
def Keeps (x : Action α) (P : Store → Prop) : Prop := ∀ s, P s → P (x s).store

variable {P : Store → Prop}

theorem keeps_bind {x : Action α} {f : α → Action β} (hx : x.Keeps P)
    (hf : ∀ a, (f a).Keeps P) : (x >>= f).Keeps P := by
  intro s hs
  have hxs := hx s hs
  show P (Action.bind x f s).store
  unfold Action.bind
  cases h : (x s).result with
  | error e => simpa only [h] using hxs
  | ok a => simpa only [h] using hf a _ hxs

theorem keeps_pure : (pure a : Action α).Keeps P := fun _ hs => hs

theorem keeps_ofExcept {x : Except Fault α} : (ofExcept x).Keeps P := fun _ hs => hs

theorem keeps_fail {e : Fault} : (fail e : Action α).Keeps P := fun _ hs => hs

theorem keeps_read {f : Store → Except Fault α} : (read f).Keeps P := fun _ hs => hs

theorem keeps_write {f : Store → Except Fault Store} (h : ∀ s t, P s → f s = .ok t → P t) :
    (write f).Keeps P := by
  intro s hs
  unfold write
  cases ht : f s with
  | error e => exact hs
  | ok t => exact h s t hs ht

theorem keeps_ask {f : Store → Noted α} : (ask f).Keeps P := fun _ hs => hs

theorem keeps_log {source text : String} {members : List (String × Json)} :
    (log source members text).Keeps P := fun _ hs => hs

theorem keeps_require {condition : Bool} {e : Fault} : (require condition e).Keeps P := by
  cases condition with
  | false => exact keeps_fail
  | true => exact keeps_pure

/-- What follows a check may rely on what the check has found. -/
theorem keeps_ofExcept_bind {x : Except Fault α} {f : α → Action β}
    (hf : ∀ a, x = .ok a → (f a).Keeps P) : (ofExcept x >>= f).Keeps P := by
  cases x with
  | error e => exact fun s hs => hs
  | ok a => exact hf a rfl

theorem Keeps.of_runs {x : Action α} (h : x.Keeps P) (hs : P s) (hr : x.Runs s a t) : P t :=
  hr.2 ▸ h s hs

/-! ### What failures keep

A failure keeps a property if every step that may fail comes before the first one that does not keep
it.  Such a step may be a write, which either succeeds or changes nothing, if all that follows it
succeeds.
-/

/-- An action that fails leaves a store with a property if it starts on one. -/
def KeepsOnFailure (x : Action α) (P : Store → Prop) : Prop :=
  ∀ s e, P s → (x s).result = .error e → P (x s).store

/-- An action succeeds on every store. -/
def Total (x : Action α) : Prop := ∀ s, ∃ a, (x s).result = .ok a

theorem Keeps.keepsOnFailure {x : Action α} (h : x.Keeps P) : x.KeepsOnFailure P :=
  fun s _ hs _ => h s hs

theorem keepsOnFailure_bind {x : Action α} {f : α → Action β} (hx : x.Keeps P)
    (hf : ∀ a, (f a).KeepsOnFailure P) : (x >>= f).KeepsOnFailure P := by
  intro s e hs
  have hxs := hx s hs
  show (Action.bind x f s).result = .error e → P (Action.bind x f s).store
  unfold Action.bind
  cases h : (x s).result with
  | error e' => exact fun _ => by simpa only [h] using hxs
  | ok a => simpa only [h] using hf a _ e hxs

theorem keepsOnFailure_write {g : Store → Except Fault Store} {f : Unit → Action β}
    (hf : (f ()).Total) : (write g >>= f).KeepsOnFailure P := by
  intro s e hs
  show (Action.bind (write g) f s).result = .error e → P (Action.bind (write g) f s).store
  unfold Action.bind write
  cases g s with
  | error e' => exact fun _ => hs
  | ok t =>
    obtain ⟨a, ha⟩ := hf t
    intro herror
    have hok : (f () t).result = .error e := herror
    rw [ha] at hok
    cases hok

theorem total_pure : (pure a : Action α).Total := fun _ => ⟨a, rfl⟩

theorem total_ofExcept {x : Except Fault α} (h : x = .ok a) : (ofExcept x).Total :=
  fun _ => ⟨a, h⟩

theorem total_log {source text : String} {members : List (String × Json)} :
    (log source members text).Total := fun _ => ⟨(), rfl⟩

theorem total_bind {x : Action α} {f : α → Action β} (hx : x.Total) (hf : ∀ a, (f a).Total) :
    (x >>= f).Total := by
  intro s
  obtain ⟨a, ha⟩ := hx s
  obtain ⟨b, hb⟩ := hf a (x s).store
  refine ⟨b, ?_⟩
  show (Action.bind x f s).result = .ok b
  unfold Action.bind
  simpa only [ha] using hb

end TokenLedger.Action
