import Mathlib.Data.Rat.Defs
import TokenLedger.Config.Factory
import TokenLedger.Proofs.Json.Shape

/-!
# Accepted configurations

What the shape of a configuration lets through: the limits are at least one, the native denom is not
empty, and the fee has digits in front and no blanks.  Whether the fee can be read as a coin is not
looked at.
-/

namespace TokenLedger

variable {α : Type}

/-! ### Numbers -/

/-- A number that is an integer and not smaller than one. -/
theorem Number.one_le_toInt? {n : Number} (hint : n.isInteger = true) (hlow : n.ltInt 1 = false) :
    1 ≤ (n.toInt?.getD 0).toNat := by
  cases n with
  | infinite negative => cases hint
  | finite q =>
    have hden : q.den = 1 := by simpa [Number.isInteger] using hint
    have hle : ¬ q < (1 : Int) := by simpa [Number.ltInt] using hlow
    have hnum : (q.num : Rat) = q := (Rat.den_eq_one_iff q).mp hden
    have hone : 1 ≤ q.num := by
      by_contra hlt
      apply hle
      rw [← hnum]
      exact Rat.intCast_lt_intCast.mpr (Int.not_le.mp hlt)
    rw [Number.toInt?, if_pos hden, Option.getD_some]
    omega

/-! ### Members of a configuration -/

namespace FactoryConfig

variable {variant : Variant} {config : FactoryConfig} {overrides : List (String × Json)}
  {members : List (String × Json)} {name : String}

theorem lengthLimit_valid {j : Json} {n : Nat} (h : lengthLimit j = .valid n) : 1 ≤ n := by
  obtain ⟨x, hx, rfl⟩ := Checked.map_eq_valid.mp h
  obtain ⟨-, htests⟩ := Checked.ensure_eq_valid.mp hx
  obtain ⟨hint, hrest⟩ := List.forall_mem_cons.mp htests
  obtain ⟨hlow, -⟩ := List.forall_mem_cons.mp hrest
  exact Number.one_le_toInt? hint (by simpa using hlow)

theorem fee_valid {j : Json} {s : String} (h : fee j = .valid s) : isFeeForm s = true := by
  obtain ⟨-, htests⟩ := Checked.ensure_eq_valid.mp h
  exact (List.forall_mem_cons.mp htests).1

theorem someText_valid {j : Json} {s : String} (h : someText j = .valid s) : s ≠ "" := by
  obtain ⟨-, htests⟩ := Checked.ensure_eq_valid.mp h
  exact bne_iff_ne.mp (List.forall_mem_cons.mp htests).1

theorem member_valid {shape : Shape α} {a : α} (h : Shape.member name shape members = .valid a) :
    ∃ j, shape j = .valid a := by
  obtain ⟨j, -, hj⟩ := Shape.member_eq_valid.mp h
  exact ⟨j, hj⟩

/-! ### Configurations -/

/-- A configuration that has passed the checks. -/
structure Accepted (config : FactoryConfig) : Prop where
  subdenom : 1 ≤ config.maxSubdenomLength
  creator : 1 ≤ config.maxCreatorLength
  fee : isFeeForm config.creationFee = true
  feeDenom : config.feeDenom ≠ ""

theorem accepted_of_shape {j : Json} (h : shape j = .valid config) : config.Accepted := by
  obtain ⟨members, -, hread⟩ := Shape.object_eq_valid.mp h
  obtain ⟨_, feeDenom, hfour, hfeeDenom, rfl⟩ := Checked.seq_eq_valid.mp hread
  obtain ⟨_, creationFee, hthree, hfee, rfl⟩ := Checked.seq_eq_valid.mp hfour
  obtain ⟨_, creator, htwo, hcreator, rfl⟩ := Checked.seq_eq_valid.mp hthree
  obtain ⟨_, subdenom, hone, hsubdenom, rfl⟩ := Checked.seq_eq_valid.mp htwo
  obtain ⟨denomPrefix, -, rfl⟩ := Checked.map_eq_valid.mp hone
  obtain ⟨_, hfeeDenom⟩ := member_valid hfeeDenom
  obtain ⟨_, hfee⟩ := member_valid hfee
  obtain ⟨_, hcreator⟩ := member_valid hcreator
  obtain ⟨_, hsubdenom⟩ := member_valid hsubdenom
  exact ⟨lengthLimit_valid hsubdenom, lengthLimit_valid hcreator, fee_valid hfee,
    someText_valid hfeeDenom⟩

/-- Whatever is overridden, a configuration that is accepted has passed the checks. -/
theorem accepted_of_resolve (h : resolve variant overrides = .ok config) : config.Accepted := by
  unfold resolve at h
  dsimp only at h
  split at h
  · rename_i resolved hvalid
    obtain rfl := Except.ok.inj h
    exact accepted_of_shape hvalid
  · cases h

/-! ### An overridden fee -/

theorem fee_str (text : String) :
    fee (.str text) = if isFeeForm text = true then .valid text else .invalid [.feeForm] := by
  show Checked.ensure (.valid text) _ = _
  by_cases h : isFeeForm text = true
  · rw [if_pos h, Checked.ensure_eq_valid]
    refine ⟨rfl, fun test htest => ?_⟩
    rw [List.mem_singleton.mp htest]
    exact h
  · simp [Checked.ensure, Checked.andThen, h]

/-- The form of a fee is all that decides whether it is accepted. -/
theorem resolve_fee (variant : Variant) (text : String) :
    resolve variant [("denomCreationFee", .str text)] =
      if isFeeForm text = true then .ok { standard variant with creationFee := text }
      else .error (.invalid (.config variant.name [.feeForm])) := by
  have hshape : shape (.obj (([("denomCreationFee", Json.str text)].foldl
      (fun acc m => Json.setMember acc m.1 m.2) (standard variant).members))) =
      (fun s => { standard variant with creationFee := s }) <$> fee (.str text) := by
    cases variant with
    | generic =>
      show _ <*> fee (.str text) <*> _ = _
      cases fee (.str text) <;> rfl
    | coreum =>
      show _ <*> fee (.str text) <*> _ = _
      cases fee (.str text) <;> rfl
  unfold resolve
  dsimp only
  rw [hshape, fee_str]
  by_cases h : isFeeForm text = true
  · rw [if_pos h, if_pos h]
    rfl
  · rw [if_neg h, if_neg h]
    rfl

end FactoryConfig

end TokenLedger
