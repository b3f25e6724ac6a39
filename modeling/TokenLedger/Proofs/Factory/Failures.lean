import TokenLedger.Factory.Coreum
import TokenLedger.Factory.Generic
import TokenLedger.Proofs.Factory.Rules

/-!
# Failed messages write nothing of their own

A factory's handler first checks and reads, then calls its host, and then writes one record of its
own, behind which nothing fails.  So a message that fails has done nothing to the store but what the
host has done: it keeps every property of the store that burning and minting a coin keeps, whatever
else the host does.
-/

namespace TokenLedger

/-- What a host does to the store to burn or mint a coin keeps a property of the store, also when it
fails half-way. -/
structure Host.Keeps (host : Host) (P : Store → Prop) : Prop where
  burn : ∀ sender coin, 0 ≤ coin.amount → (host.execute sender (.burn [coin])).Keeps P
  mint : ∀ recipient coin, 0 ≤ coin.amount → (host.mint ⟨recipient, [coin]⟩).Keeps P

namespace Factory

variable {host : Host} {P : Store → Prop}

/-! ### Calls to the host -/

theorem ensureNoSupply_keeps (host : Host) (denom : String) :
    (ensureNoSupply host denom).Keeps P := by
  refine Action.keeps_bind ?_ fun supply => Action.keeps_require
  exact Action.keeps_bind Action.keeps_ask fun raw => Action.keeps_ofExcept

/-- The fee is read as a coin, so that its amount is not negative. -/
theorem chargeFee_keeps (hhost : host.Keeps P) (config : FactoryConfig) (variant : Variant)
    (sender : String) : (chargeFee host config variant sender).Keeps P :=
  Action.keeps_ofExcept_bind fun fee hfee => hhost.burn sender fee (amount_nonneg_of_ofText hfee)

theorem burnCoin_keeps (hhost : host.Keeps P) (sender denom : String) (amount : Nat) :
    (burnCoin host sender ⟨denom, amount⟩).Keeps P :=
  hhost.burn sender ⟨denom, amount⟩ (Int.natCast_nonneg amount)

theorem mintCoin_keeps (hhost : host.Keeps P) (recipient denom : String) (amount : Nat) :
    (mintCoin host recipient ⟨denom, amount⟩).Keeps P :=
  hhost.mint recipient ⟨denom, amount⟩ (Int.natCast_nonneg amount)

variable {config : FactoryConfig} {sender : String}

/-! ### The generic factory -/

namespace Generic

theorem create_keepsOnFailure (hhost : host.Keeps P) (m : CreateDenom) :
    (create config host sender m).KeepsOnFailure P := by
  refine Action.keepsOnFailure_bind Action.keeps_ofExcept fun _ => ?_
  refine Action.keepsOnFailure_bind (ensureNoSupply_keeps host _) fun _ => ?_
  refine Action.keepsOnFailure_bind (chargeFee_keeps hhost config .generic sender) fun _ => ?_
  -- the denom is recorded; the answer that is put into bytes behind it is one text
  refine Action.keepsOnFailure_write ?_
  refine Action.total_bind Action.total_log fun _ => ?_
  exact Action.total_bind (Action.total_ofExcept rfl) fun data => Action.total_pure

theorem mint_keeps (hhost : host.Keeps P) (m : MintDenom) :
    (mint config host sender m).Keeps P := by
  refine Action.keeps_bind Action.keeps_ofExcept fun coin => ?_
  refine Action.keeps_bind Action.keeps_ofExcept fun _ => ?_
  refine Action.keeps_bind Action.keeps_read fun created => ?_
  refine Action.keeps_bind Action.keeps_require fun _ => ?_
  refine Action.keeps_bind Action.keeps_ofExcept fun amount => ?_
  refine Action.keeps_bind (mintCoin_keeps hhost _ coin.denom amount) fun _ => ?_
  exact Action.keeps_bind Action.keeps_log fun _ => Action.keeps_pure

theorem burn_keeps (hhost : host.Keeps P) (m : BurnDenom) :
    (burn config host sender m).Keeps P := by
  refine Action.keeps_bind Action.keeps_ofExcept fun coin => ?_
  refine Action.keeps_bind Action.keeps_ofExcept fun _ => ?_
  refine Action.keeps_bind Action.keeps_ofExcept fun amount => ?_
  refine Action.keeps_bind (burnCoin_keeps hhost sender coin.denom amount) fun _ => ?_
  exact Action.keeps_bind Action.keeps_log fun _ => Action.keeps_pure

theorem execute_keepsOnFailure (hhost : host.Keeps P) (typeUrl : String) (value : Bytes) :
    (execute config host sender typeUrl value).KeepsOnFailure P := by
  refine Action.keepsOnFailure_bind Action.keeps_ofExcept fun message => ?_
  cases message with
  | create m => exact create_keepsOnFailure hhost m
  | mint m => exact (mint_keeps hhost m).keepsOnFailure
  | burn m => exact (burn_keeps hhost m).keepsOnFailure

end Generic

/-! ### The Coreum factory -/

namespace Coreum

theorem mintInitial_keeps (hhost : host.Keeps P) (denom : String) (m : IssueToken) :
    (mintInitial host denom m).Keeps P := by
  unfold mintInitial
  split_ifs
  · exact Action.keeps_pure
  · refine Action.keeps_bind Action.keeps_ofExcept fun amount => ?_
    split_ifs
    · exact Action.keeps_pure
    · have hmint := mintCoin_keeps hhost m.issuer denom amount
      exact Action.keeps_bind hmint fun response => Action.keeps_pure

theorem issue_keepsOnFailure (hhost : host.Keeps P) (m : IssueToken) :
    (issue config host sender m).KeepsOnFailure P := by
  refine Action.keepsOnFailure_bind Action.keeps_ofExcept fun _ => ?_
  refine Action.keepsOnFailure_bind Action.keeps_ofExcept fun _ => ?_
  refine Action.keepsOnFailure_bind Action.keeps_ofExcept fun _ => ?_
  refine Action.keepsOnFailure_bind (ensureNoSupply_keeps host _) fun _ => ?_
  refine Action.keepsOnFailure_bind (chargeFee_keeps hhost config .coreum sender) fun _ => ?_
  refine Action.keepsOnFailure_bind (mintInitial_keeps hhost _ m) fun minted => ?_
  refine Action.keepsOnFailure_write ?_
  exact Action.total_bind Action.total_log fun _ => Action.total_pure

theorem requireIssued_keeps (denom : String) (action : TokenAction) :
    (requireIssued denom action).Keeps P :=
  Action.keeps_bind Action.keeps_read fun _ => Action.keeps_require

theorem mint_keeps (hhost : host.Keeps P) (m : MintToken) : (mint host sender m).Keeps P := by
  refine Action.keeps_bind Action.keeps_ofExcept fun coin => ?_
  refine Action.keeps_bind Action.keeps_ofExcept fun _ => ?_
  refine Action.keeps_bind (requireIssued_keeps coin.denom .mint) fun _ => ?_
  refine Action.keeps_bind Action.keeps_ofExcept fun amount => ?_
  refine Action.keeps_bind (mintCoin_keeps hhost _ coin.denom amount) fun response => ?_
  exact Action.keeps_bind Action.keeps_log fun _ => Action.keeps_pure

theorem burn_keeps (hhost : host.Keeps P) (m : BurnToken) : (burn host sender m).Keeps P := by
  refine Action.keeps_bind Action.keeps_ofExcept fun coin => ?_
  refine Action.keeps_bind Action.keeps_ofExcept fun _ => ?_
  refine Action.keeps_bind (requireIssued_keeps coin.denom .burn) fun _ => ?_
  refine Action.keeps_bind Action.keeps_ofExcept fun amount => ?_
  refine Action.keeps_bind (burnCoin_keeps hhost sender coin.denom amount) fun response => ?_
  exact Action.keeps_bind Action.keeps_log fun _ => Action.keeps_pure

theorem issueClass_keepsOnFailure (m : IssueClass) : (issueClass sender m).KeepsOnFailure P := by
  refine Action.keepsOnFailure_bind Action.keeps_require fun _ => ?_
  refine Action.keepsOnFailure_bind Action.keeps_read fun taken => ?_
  refine Action.keepsOnFailure_bind Action.keeps_require fun _ => ?_
  refine Action.keepsOnFailure_write ?_
  exact Action.total_bind Action.total_log fun _ => Action.total_pure

theorem mintNft_keepsOnFailure (m : MintNft) : (mintNft sender m).KeepsOnFailure P := by
  refine Action.keepsOnFailure_bind Action.keeps_require fun _ => ?_
  refine Action.keepsOnFailure_bind Action.keeps_read fun c => ?_
  refine Action.keepsOnFailure_bind Action.keeps_require fun _ => ?_
  refine Action.keepsOnFailure_bind Action.keeps_read fun taken => ?_
  refine Action.keepsOnFailure_bind Action.keeps_require fun _ => ?_
  refine Action.keepsOnFailure_write ?_
  exact Action.total_bind Action.total_log fun _ => Action.total_pure

theorem burnNft_keepsOnFailure (m : BurnNft) : (burnNft sender m).KeepsOnFailure P := by
  refine Action.keepsOnFailure_bind Action.keeps_require fun _ => ?_
  refine Action.keepsOnFailure_bind Action.keeps_read fun live => ?_
  refine Action.keepsOnFailure_bind Action.keeps_log fun _ => ?_
  refine Action.keepsOnFailure_bind Action.keeps_require fun _ => ?_
  exact Action.keepsOnFailure_write Action.total_pure

theorem sendNft_keepsOnFailure (m : SendNft) : (sendNft sender m).KeepsOnFailure P := by
  refine Action.keepsOnFailure_bind Action.keeps_read fun live => ?_
  refine Action.keepsOnFailure_bind Action.keeps_ofExcept fun _ => ?_
  refine Action.keepsOnFailure_bind Action.keeps_require fun _ => ?_
  refine Action.keepsOnFailure_write ?_
  exact Action.total_bind Action.total_log fun _ => Action.total_pure

theorem execute_keepsOnFailure (hhost : host.Keeps P) (typeUrl : String) (value : Bytes) :
    (execute config host sender typeUrl value).KeepsOnFailure P := by
  refine Action.keepsOnFailure_bind Action.keeps_ofExcept fun message => ?_
  cases message with
  | issue m => exact issue_keepsOnFailure hhost m
  | mint m => exact (mint_keeps hhost m).keepsOnFailure
  | burn m => exact (burn_keeps hhost m).keepsOnFailure
  | issueClass m => exact issueClass_keepsOnFailure m
  | mintNft m => exact mintNft_keepsOnFailure m
  | burnNft m => exact burnNft_keepsOnFailure m
  | sendNft m => exact sendNft_keepsOnFailure m

end Coreum

end Factory

end TokenLedger
