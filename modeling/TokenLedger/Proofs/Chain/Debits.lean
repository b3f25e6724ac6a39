import TokenLedger.Proofs.Chain.Run

/-!
# Who can lose funds

A stargate message takes coins from its sender and from nobody else, whatever its type and payload
are: fees and burnt coins are the sender's own, and what is minted only adds.
-/

namespace TokenLedger.Chain

open Bank

variable {s : Store} {calls : List Call} {sender account : String}

/-- What a stargate transaction leaves to others, on a well-formed store. -/
theorem held_le_held_executeTx (c : Chain) (hs : WellFormed s) (hne : account ≠ sender)
    (typeUrl : String) (value : Bytes) (denom : String) :
    WellFormed (c.executeTx sender (.stargate typeUrl value) s).store ∧
      held s account denom ≤
        held (c.executeTx sender (.stargate typeUrl value) s).store account denom := by
  rcases executeTx_cases c sender (.stargate typeUrl value) s with
    ⟨e, -, hstore⟩ | ⟨r, t, hrun, -, hstore⟩
  · rw [hstore]
    exact ⟨hs, Int.le_refl _⟩
  · obtain ⟨minted, hsettled⟩ := c.stargate.execute_settled hs hrun
    rw [hstore]
    exact ⟨hsettled.wellFormed, hsettled.held account denom hne⟩

/-- After any calls without negative amounts, a stargate transaction leaves every account but its
sender's with at least the balance it had, whether it succeeds or fails. -/
theorem balance_le_balance_executeTx (c : Chain) (hcalls : ∀ call ∈ calls, call.NonNegative)
    (hne : account ≠ sender) (hshort : Key.IsShort account) (typeUrl : String) (value : Bytes)
    (denom : String) :
    ∃ before after, balance (c.run calls) account denom = .ok before ∧
      balance (c.executeTx sender (.stargate typeUrl value) (c.run calls)).store account denom =
        .ok after ∧ before ≤ after := by
  have hs := run_wellFormed (c := c) hcalls
  obtain ⟨ht, hle⟩ := held_le_held_executeTx c hs hne typeUrl value denom
  exact ⟨_, _, hs.balance hshort denom, ht.balance hshort denom, hle⟩

/-- One account issues a token and pays for it; the other keeps what it had. -/
theorem balance_le_balance_executeTx_issue :
    (∀ call ∈ smallAccounts, call.NonNegative) ∧ "b" ≠ "a" ∧ Key.IsShort "b" ∧
      ∃ before after, balance ((small .coreum).run smallAccounts) "b" "ucore" = .ok before ∧
        balance ((small .coreum).executeTx "a" (.stargate IssueToken.typeUrl smallIssue)
          ((small .coreum).run smallAccounts)).store "b" "ucore" = .ok after ∧ before ≤ after :=
  ⟨smallAccounts_nonNegative, by decide, by decide,
    balance_le_balance_executeTx (small .coreum) smallAccounts_nonNegative (by decide) (by decide)
      _ _ _⟩

end TokenLedger.Chain
