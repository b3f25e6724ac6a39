import TokenLedger.Proofs.Chain.Run

/-!
# Failed transactions are invisible

A transaction succeeds exactly if its message or order does, with the same response and on the same
store; otherwise it leaves the store as it was (`transact_cases`).  By induction over a history, the
transactions that failed in it can be left out: the others answer what they answered, and the store
in the end is the same.  That a store which is written in place comes to the same, with snapshots
and ways back to them, is `history_of_ranOn`.
-/

namespace TokenLedger.Chain

/-! ### Transactions -/

/-- A message of a sender, or a privileged order. -/
inductive Transaction
  | message (sender : String) (message : Message)
  | order (order : SudoMessage)
deriving DecidableEq, Repr

/-- Carries out what a transaction asks for.  A failure leaves what was written before it. -/
def perform (c : Chain) : Transaction → Action Response
  | .message sender message => c.execute sender message
  | .order order => c.executeSudo order

/-- Runs a transaction. -/
def transact (c : Chain) : Transaction → Action Response
  | .message sender message => c.executeTx sender message
  | .order order => c.executeSudoTx order

variable (c : Chain) (s : Store) (x : Transaction) (xs : List Transaction)

/-- A transaction does what it asks for, or it fails for the same reason and changes nothing. -/
theorem transact_cases :
    (∃ r t, (c.perform x).Runs s r t ∧ (c.transact x).Runs s r t) ∨
      ∃ e, (c.perform x s).result = .error e ∧ (c.transact x s).result = .error e ∧
        (c.transact x s).store = s := by
  cases x with
  | message sender message => exact Action.orUndo_cases (c.execute sender message) s
  | order order => exact Action.orUndo_cases (c.executeSudo order) s

theorem transact_runs_iff {r : Response} {t : Store} :
    (c.transact x).Runs s r t ↔ (c.perform x).Runs s r t := by
  rcases transact_cases c s x with ⟨r', t', hperform, htransact⟩ | ⟨e, hperform, htransact, -⟩
  · constructor
    · intro h
      obtain ⟨rfl, rfl⟩ := htransact.unique h
      exact hperform
    · intro h
      obtain ⟨rfl, rfl⟩ := hperform.unique h
      exact htransact
  · constructor
    · intro h
      exact absurd h (Action.not_runs_of_error htransact)
    · intro h
      exact absurd h (Action.not_runs_of_error hperform)

/-! ### Histories -/

/-- The results of transactions, one after another, and the store in the end. -/
def history (c : Chain) : Store → List Transaction → List (Except Fault Response) × Store
  | s, [] => ([], s)
  | s, x :: xs =>
    let o := c.transact x s
    let later := c.history o.store xs
    (o.result :: later.1, later.2)

/-- The transactions of a history that succeed in it. -/
def succeeding (c : Chain) (s : Store) (xs : List Transaction) : List Transaction :=
  ((xs.zip (c.history s xs).1).filter fun entry => entry.2.isOk).map (·.1)

theorem history_cons : c.history s (x :: xs) =
    ((c.transact x s).result :: (c.history (c.transact x s).store xs).1,
      (c.history (c.transact x s).store xs).2) := rfl

theorem succeeding_cons_of_ok {r : Response} (h : (c.transact x s).result = .ok r) :
    c.succeeding s (x :: xs) = x :: c.succeeding (c.transact x s).store xs := by
  unfold succeeding
  rw [history_cons, h, List.zip_cons_cons, List.filter_cons_of_pos rfl, List.map_cons]

theorem succeeding_cons_of_error {e : Fault} (h : (c.transact x s).result = .error e) :
    c.succeeding s (x :: xs) = c.succeeding (c.transact x s).store xs := by
  unfold succeeding
  rw [history_cons, h, List.zip_cons_cons, List.filter_cons_of_neg Bool.false_ne_true]

/-- The history of the transactions that succeed is that of all, less the failures. -/
theorem history_succeeding : c.history s (c.succeeding s xs) =
    ((c.history s xs).1.filter Except.isOk, (c.history s xs).2) := by
  induction xs generalizing s with
  | nil => rfl
  | cons x xs ih =>
    rcases transact_cases c s x with ⟨r, t, -, hok, -⟩ | ⟨e, -, herror, hstore⟩
    · rw [succeeding_cons_of_ok c s x xs hok, history_cons, history_cons, ih, hok,
        List.filter_cons_of_pos rfl]
    · -- the failure has left `s` itself, on which the rest goes on
      rw [succeeding_cons_of_error c s x xs herror, history_cons, hstore, ih, herror,
        List.filter_cons_of_neg Bool.false_ne_true]

/-- **Failed transactions are invisible.**  Without them every other transaction answers the same
and the store is the same in the end, and one that succeeds does what its message or order does when
it is carried out without a transaction. -/
theorem failed_transactions_invisible :
    c.history s (c.succeeding s xs) =
        ((c.history s xs).1.filter Except.isOk, (c.history s xs).2) ∧
      ∀ x t r u, (c.transact x).Runs t r u ↔ (c.perform x).Runs t r u :=
  ⟨history_succeeding c s xs, fun x t _ _ => transact_runs_iff c t x⟩

end TokenLedger.Chain
