import TokenLedger.Proofs.Bank.Answers
import TokenLedger.Proofs.Bank.Ledger

/-!
# The books have one form

In a well-formed store every record of a balance stands under the key of one account and denom and
is the JSON string of a positive amount without leading zeros.  So the records are determined by the
balances they tell (`SameBalances.sameUnder`), and no view of the bank can fail to read
them.
-/

namespace TokenLedger

/-- The account that is asked about can have balances: its address fits in a key. -/
def BankQuery.HasShortAddress : BankQuery → Prop
  | .balance address _ | .allBalances address => Key.IsShort address
  | .supply _ => True

namespace Bank

variable {s t : Store} {b raw : Bytes} {a d : String}

/-! ### Records -/

/-- A record of a balance in its one form. -/
structure CanonicalRecord (b raw : Bytes) : Prop where
  key : ∃! k : String × String, balances.fullKey k = .ok b
  value : ∃ n : Nat, 0 < n ∧ n < 2 ^ 128 ∧ raw = (Json.str n.repr).toBytes

/-- Every record of a balance is in its one form. -/
def Canonical (s : Store) : Prop :=
  ∀ b raw, s.get? b = some raw → balances.root <+: b → CanonicalRecord b raw

theorem WellFormed.canonical (hs : WellFormed s) : Canonical s := by
  intro b raw hb hroot
  obtain ⟨k, n, hk, hraw, -, hpos, hmax⟩ := hs b raw hb hroot
  obtain ⟨m, rfl⟩ := Int.eq_ofNat_of_zero_le (Int.le_of_lt hpos)
  have hbound : maxAmount < 2 ^ 128 := by decide
  refine ⟨⟨k, hk, fun k' hk' => RecordMap.fullKey_inj hk' hk⟩, m, ?_, ?_, hraw⟩
  · exact Int.natCast_pos.mp hpos
  · exact Nat.lt_of_le_of_lt (Int.ofNat_le.mp hmax) hbound

/-- Two stores tell the same balances of every account that can have any. -/
def SameBalances (s t : Store) : Prop :=
  ∀ a d, Key.IsShort a → balance t a d = balance s a d

theorem isShort_of_fullKey (h : balances.fullKey (a, d) = .ok b) : Key.IsShort a :=
  (RecordMap.exists_fullKey_pair_iff rfl).mp ⟨b, h⟩

/-- An account that can have no balances has none in any store. -/
theorem load?_eq_of_not_isShort (ha : ¬ Key.IsShort a) (s t : Store) (d : String) :
    balances.load? t (a, d) = balances.load? s (a, d) :=
  RecordMap.load?_eq_of_get? fun _ hb => absurd (isShort_of_fullKey hb) ha

/-- A balance has a record exactly if it is not zero. -/
theorem WellFormed.load?_eq (hs : WellFormed s) (ha : Key.IsShort a) (d : String) :
    balances.load? s (a, d) = .ok (if held s a d = 0 then none else some (held s a d)) := by
  rcases hs.load? a d with ⟨e, he⟩ | hnone | ⟨n, hn, hpos, -⟩
  · obtain ⟨b, hk⟩ := fullKey_balances ha d
    rw [hk] at he
    cases he
  · rw [held_of_load? hnone, hnone]
    rfl
  · have hne : n ≠ 0 := by omega
    rw [held_of_load? hn, hn, Option.getD_some, if_neg hne]

theorem SameBalances.load?_eq (h : SameBalances s t) (hs : WellFormed s) (ht : WellFormed t)
    (k : String × String) : balances.load? t k = balances.load? s k := by
  obtain ⟨a, d⟩ := k
  by_cases ha : Key.IsShort a
  · have hheld : held t a d = held s a d := by
      refine held_of_balance ?_
      rw [h a d ha, hs.balance ha d]
    rw [hs.load?_eq ha d, ht.load?_eq ha d, hheld]
  · exact load?_eq_of_not_isShort ha s t d

/-- Stores that tell the same balances have the same records of them, byte for byte. -/
theorem SameBalances.sameUnder (h : SameBalances s t) (hs : WellFormed s) (ht : WellFormed t) :
    Store.SameUnder balances.root s t :=
  RecordMap.Holds.sameUnder_of_load? hs ht (h.load?_eq hs ht)

/-! ### Views -/

theorem WellFormed.allBalances (hs : WellFormed s) (a : String) :
    ∃ coins, allBalances s a = .ok coins := by
  obtain ⟨all, hall, -⟩ := hs.entries (share "")
  unfold Bank.allBalances
  rw [hall]
  exact ⟨_, rfl⟩

/-- Every query of the bank has an answer. -/
theorem WellFormed.query (hs : WellFormed s) {q : BankQuery} (hq : q.HasShortAddress) :
    ∃ answer, query s q = .ok answer := by
  cases q with
  | balance address denom => exact ⟨_, query_balance (hs.balance hq denom)⟩
  | allBalances address =>
    obtain ⟨coins, hcoins⟩ := hs.allBalances address
    exact ⟨_, query_allBalances hcoins⟩
  | supply denom => exact ⟨_, query_supply (hs.supply denom)⟩

end Bank

end TokenLedger
