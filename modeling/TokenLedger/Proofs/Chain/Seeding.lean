import TokenLedger.Proofs.Bank.Seeding
import TokenLedger.Proofs.Chain.Books

/-!
# Seeding accounts

An account is seeded by replacing its balances.  This overwrites the balances of that account and
nothing else in the store (`Overwritten`), so that of several seedings the last one for an account
counts.
-/

namespace TokenLedger

open Bank

namespace Chain

variable {s t u : Store} {a : String} {coins : List Coin} {given : List (String × List Coin)}

/-! ### One account -/

/-- Coins with which an account can be seeded: the address is valid and fits in a key, no amount is
negative, and of no denom the coins come to more than a balance can be. -/
structure Seedable (a : String) (coins : List Coin) : Prop where
  valid : Address.validate a = .ok a
  short : Key.IsShort a
  nonNegative : NonNegativeCoins coins
  fits : ∀ d, amountOf coins d ≤ maxAmount

/-- The balances of an account are what coins come to, denom by denom, and everything else is as it
was. -/
structure Overwritten (a : String) (coins : List Coin) (s t : Store) : Prop where
  named : ∀ d, balance t a d = .ok (amountOf coins d)
  others : ∀ a', a' ≠ a → ∀ d, balance t a' d = balance s a' d
  outside : Store.SameOutside balances.root s t

theorem initBalance_runs_iff (h : Address.validate a = .ok a) :
    (initBalance a coins).Runs s () t ↔ (Bank.initBalance a coins).Runs s () t := by
  simp only [initBalance, Action.runs_bind, Action.runs_ofExcept, h]
  constructor
  · rintro ⟨_, _, ⟨ha, rfl⟩, hrun⟩
    exact Except.ok.inj ha ▸ hrun
  · intro hrun
    exact ⟨a, s, ⟨rfl, rfl⟩, hrun⟩

/-- Seeding succeeds, and overwrites the account. -/
theorem initBalance_overwrites (hs : WellFormed s) (h : Seedable a coins) :
    ∃ t, (initBalance a coins).Runs s () t ∧ WellFormed t ∧ Overwritten a coins s t := by
  obtain ⟨t, hrun, hbooked⟩ := initBalance_booked hs h.short h.nonNegative h.fits
  refine ⟨t, (initBalance_runs_iff h.valid).mpr hrun, hbooked.wellFormed, ?_, ?_, hbooked.outside⟩
  · intro d
    rw [hbooked.wellFormed.balance h.short, hbooked.held_self]
    exact congrArg Except.ok (by omega)
  · exact fun a' hne => hbooked.balance_of_ne hs hne

/-! ### Many accounts -/

/-- The coins that an account is given last. -/
def LastGiven (given : List (String × List Coin)) (a : String) (coins : List Coin) : Prop :=
  ∃ before after, given = before ++ (a, coins) :: after ∧ ∀ e ∈ after, e.1 ≠ a

theorem not_lastGiven_nil : ¬ LastGiven [] a coins := by
  rintro ⟨before, after, h, -⟩
  cases before <;> cases h

/-- What is given last is given in the rest, or at once and not again. -/
theorem LastGiven.of_cons {e : String × List Coin} (h : LastGiven (e :: given) a coins) :
    LastGiven given a coins ∨ e = (a, coins) ∧ ∀ e ∈ given, e.1 ≠ a := by
  obtain ⟨before, after, hgiven, hafter⟩ := h
  cases before with
  | nil =>
    obtain ⟨rfl, rfl⟩ := List.cons.inj hgiven
    exact Or.inr ⟨rfl, hafter⟩
  | cons first before =>
    obtain ⟨-, rfl⟩ := List.cons.inj hgiven
    exact Or.inl ⟨before, after, rfl, hafter⟩

/-- Accounts have what they were given last, and everything else is as it was. -/
structure SeededWith (given : List (String × List Coin)) (s t : Store) : Prop where
  named : ∀ a coins, LastGiven given a coins → ∀ d, balance t a d = .ok (amountOf coins d)
  others : ∀ a, (∀ e ∈ given, e.1 ≠ a) → ∀ d, balance t a d = balance s a d
  outside : Store.SameOutside balances.root s t

theorem SeededWith.nil (s : Store) : SeededWith [] s s where
  named _ _ h := absurd h not_lastGiven_nil
  others _ _ _ := rfl
  outside := .rfl

theorem SeededWith.cons (hfirst : Overwritten a coins s u) (hrest : SeededWith given u t) :
    SeededWith ((a, coins) :: given) s t where
  named a' coins' h d := by
    rcases h.of_cons with hagain | ⟨heq, hnever⟩
    · exact hrest.named a' coins' hagain d
    · obtain ⟨rfl, rfl⟩ := Prod.mk.inj heq
      rw [hrest.others a hnever, hfirst.named]
  others a' h d := by
    obtain ⟨hne, hgiven⟩ := List.forall_mem_cons.mp h
    rw [hrest.others a' hgiven, hfirst.others a' hne.symm]
  outside := hfirst.outside.trans hrest.outside

theorem seed_cons_runs {r : Unit} : (seed ((a, coins) :: given)).Runs s r t ↔
    ∃ u, (initBalance a coins).Runs s () u ∧ (seed given).Runs u r t := by
  simp only [seed, Action.runs_bind]
  constructor
  · rintro ⟨⟨⟩, u, hfirst, hrest⟩
    exact ⟨u, hfirst, hrest⟩
  · rintro ⟨u, hfirst, hrest⟩
    exact ⟨(), u, hfirst, hrest⟩

/-- Seeding accounts one after another succeeds, and the last coins count. -/
theorem seed_seededWith (hs : WellFormed s) (h : ∀ e ∈ given, Seedable e.1 e.2) :
    ∃ t, (seed given).Runs s () t ∧ SeededWith given s t := by
  induction given generalizing s with
  | nil => exact ⟨s, Action.runs_pure.mpr ⟨rfl, rfl⟩, SeededWith.nil s⟩
  | cons e given ih =>
    obtain ⟨a, coins⟩ := e
    obtain ⟨hfirst, hgiven⟩ := List.forall_mem_cons.mp h
    obtain ⟨u, hrun, hu, hoverwritten⟩ := initBalance_overwrites hs hfirst
    obtain ⟨t, hrest, hseeded⟩ := ih hu hgiven
    exact ⟨t, seed_cons_runs.mpr ⟨u, hrun, hrest⟩, SeededWith.cons hoverwritten hseeded⟩

/-! ### Chains -/

/-- **Seeding overwrites the named account.**  After any steps without negative amounts an account
can be given new balances: they are then what the coins come to, denom by denom, and nothing else in
the store is touched.  So a chain can be set up with balances for any accounts, each has what it is
given last, and all others have nothing. -/
theorem seeding_overwrites (c : Chain) {steps : List Step} (hsteps : ∀ x ∈ steps, x.NonNegative) :
    (∀ a coins, Seedable a coins → ∃ t, (initBalance a coins).Runs (c.after steps) () t ∧
        Overwritten a coins (c.after steps) t) ∧
      ∀ given, (∀ e ∈ given, Seedable e.1 e.2) → ∃ t, (seed given).Runs .empty () t ∧
        (∀ a coins, LastGiven given a coins → ∀ d, balance t a d = .ok (amountOf coins d)) ∧
        (∀ a, Key.IsShort a → (∀ e ∈ given, e.1 ≠ a) → ∀ d, balance t a d = .ok 0) ∧
        Store.SameOutside balances.root .empty t := by
  refine ⟨fun a coins h => ?_, fun given h => ?_⟩
  · obtain ⟨t, hrun, -, hoverwritten⟩ := initBalance_overwrites (after_wellFormed hsteps) h
    exact ⟨t, hrun, hoverwritten⟩
  · obtain ⟨t, hrun, hseeded⟩ := seed_seededWith wellFormed_empty h
    refine ⟨t, hrun, hseeded.named, fun a ha hnever d => ?_, hseeded.outside⟩
    obtain ⟨b, hb⟩ := fullKey_balances ha d
    have hnothing : held .empty a d = 0 :=
      held_of_load? ((RecordMap.load?_eq_none_iff hb).mpr rfl)
    rw [hseeded.others a hnever, wellFormed_empty.balance ha, hnothing]

/-- Two accounts that have something, the first of two denoms. -/
def funding : List Step :=
  [.initBalance "a" [⟨"ucore", 7⟩, ⟨"atom", 3⟩], .initBalance "b" [⟨"ucore", 5⟩]]

theorem funding_nonNegative : ∀ x ∈ funding, x.NonNegative := by
  simp [funding, Step.NonNegative, NonNegativeCoins]

/-- Coins of which one is split and one is nothing. -/
def change : List Coin := [⟨"ucore", 2⟩, ⟨"ufoo", 0⟩, ⟨"ucore", 1⟩]

theorem seedable_change : Seedable "a" change where
  valid := rfl
  short := by decide
  nonNegative := by simp [change, NonNegativeCoins]
  fits d := by
    simp only [change, amountOf]
    split_ifs <;> decide

theorem seedable_nil : Seedable "a" [] where
  valid := rfl
  short := by decide
  nonNegative := List.forall_mem_nil _
  fits d := Int.natCast_nonneg maxAmount

/-- The first account has the change afterwards and no atoms, the second what it had; and who is
given nothing last has nothing. -/
theorem seeding_overwrites_funding :
    (∀ x ∈ funding, x.NonNegative) ∧
      (∃ t, (initBalance "a" change).Runs ((small .coreum).after funding) () t ∧
        balance t "a" "ucore" = .ok 3 ∧ balance t "a" "atom" = .ok 0 ∧
        balance t "b" "ucore" = .ok 5) ∧
      ∃ t, (seed [("a", change), ("a", [])]).Runs .empty () t ∧ balance t "a" "ucore" = .ok 0 := by
  obtain ⟨hone, hmany⟩ := seeding_overwrites (small .coreum) funding_nonNegative
  refine ⟨funding_nonNegative, ?_, ?_⟩
  · obtain ⟨t, hrun, hnew⟩ := hone "a" change seedable_change
    have hb : balance ((small .coreum).after funding) "b" "ucore" = .ok 5 :=
      Except.eq_ok_of_toOption (by decide +kernel)
    exact ⟨t, hrun, hnew.named "ucore", hnew.named "atom",
      (hnew.others "b" (by decide) "ucore").trans hb⟩
  · have hgiven : ∀ e ∈ [("a", change), ("a", [])], Seedable e.1 e.2 :=
      List.forall_mem_cons.mpr ⟨seedable_change, List.forall_mem_singleton.mpr seedable_nil⟩
    obtain ⟨t, hrun, hlast, -⟩ := hmany _ hgiven
    have hnothing : LastGiven [("a", change), ("a", [])] "a" [] :=
      ⟨[("a", change)], [], rfl, List.forall_mem_nil _⟩
    exact ⟨t, hrun, hlast "a" [] hnothing "ucore"⟩

end Chain

end TokenLedger
