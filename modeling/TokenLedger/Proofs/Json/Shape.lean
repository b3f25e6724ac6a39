import Mathlib.Data.List.Forall2
import TokenLedger.Json.Shape

/-!
# What shapes let through

A shape lets a value through, as what it reads of it.  Of an object only the named members are
looked at, or, for a record, all members but those with a reserved name: a record is blind to them.
-/

namespace TokenLedger

variable {α β : Type}

/-! ### Checked values -/

namespace Checked

theorem map_eq_valid {f : α → β} {x : Checked α} {b : β} :
    f <$> x = .valid b ↔ ∃ a, x = .valid a ∧ f a = b := by
  show Checked.map f x = .valid b ↔ _
  cases x <;> simp [Checked.map]

theorem seq_eq_valid {f : Checked (α → β)} {x : Checked α} {b : β} :
    f <*> x = .valid b ↔ ∃ g a, f = .valid g ∧ x = .valid a ∧ g a = b := by
  show Checked.seq f x = .valid b ↔ _
  cases f <;> cases x <;> simp [Checked.seq]

theorem andThen_eq_valid {x : Checked α} {f : α → Checked β} {b : β} :
    x.andThen f = .valid b ↔ ∃ a, x = .valid a ∧ f a = .valid b := by
  cases x <;> simp [Checked.andThen]

/-- A value that is let through has passed every test. -/
theorem ensure_eq_valid {x : Checked α} {tests : α → List (Bool × Issue)} {a : α} :
    x.ensure tests = .valid a ↔ x = .valid a ∧ ∀ test ∈ tests a, test.1 = true := by
  unfold Checked.ensure
  rw [andThen_eq_valid]
  constructor
  · rintro ⟨a', ha, h⟩
    dsimp only at h
    split at h
    · rename_i hnone
      obtain rfl := Checked.valid.inj h
      refine ⟨ha, fun test htest => ?_⟩
      rw [List.isEmpty_iff, List.filterMap_eq_nil_iff] at hnone
      by_contra hfailed
      have hissue := hnone test htest
      rw [if_neg hfailed] at hissue
      cases hissue
    · cases h
  · rintro ⟨rfl, h⟩
    refine ⟨a, rfl, ?_⟩
    dsimp only
    rw [if_pos]
    rw [List.isEmpty_iff, List.filterMap_eq_nil_iff]
    intro test htest
    rw [if_pos (h test htest)]

theorem forList_eq_valid {f : α → Checked β} {as : List α} {bs : List β} :
    forList f as = .valid bs ↔ List.Forall₂ (fun a b => f a = .valid b) as bs := by
  induction as generalizing bs with
  | nil =>
    rw [List.forall₂_nil_left_iff]
    constructor
    · intro h
      exact (Checked.valid.inj h).symm
    · rintro rfl
      rfl
  | cons a as ih =>
    rw [List.forall₂_cons_left_iff, show forList f (a :: as) = List.cons <$> f a <*> forList f as
      from rfl, seq_eq_valid]
    constructor
    · rintro ⟨g, rest, hg, hrest, rfl⟩
      obtain ⟨b, hb, rfl⟩ := map_eq_valid.mp hg
      exact ⟨b, rest, hb, ih.mp hrest, rfl⟩
    · rintro ⟨b, rest, hb, hrest, rfl⟩
      exact ⟨List.cons b, rest, map_eq_valid.mpr ⟨b, hb, rfl⟩, ih.mpr hrest, rfl⟩

end Checked

/-! ### Shapes -/

namespace Shape

variable {shape : Shape α} {read : List (String × Json) → Checked α} {name s : String} {j : Json}
  {members : List (String × Json)} {a : α}

theorem text_eq_valid : text j = .valid s ↔ j = .str s := by
  cases j <;> simp [text, refuse]

theorem object_eq_valid :
    object read j = .valid a ↔ ∃ members, j.members? = some members ∧ read members = .valid a := by
  unfold object
  cases j.members? <;> simp [refuse]

theorem member_eq_valid :
    member name shape members = .valid a ↔
      ∃ j, Json.find? name members = some j ∧ shape j = .valid a := by
  unfold member
  cases Json.find? name members <;> simp

/-- A text that has to be there. -/
theorem member_text_eq_valid :
    member name text members = .valid s ↔ Json.find? name members = some (.str s) := by
  simp only [member_eq_valid, text_eq_valid, exists_eq_right]

theorem nullable_text_eq_valid {o : Option String} :
    nullable text j = .valid o ↔ j = o.elim .null .str := by
  cases j <;> cases o <;> simp [nullable, text, refuse, Checked.map_eq_valid]

/-- A text that may be missing or null. -/
theorem optionalMember_text_eq_valid {o : Option String} :
    optionalMember name text members = .valid o ↔
      (Json.find? name members = none ∧ o = none) ∨
        Json.find? name members = some (o.elim .null .str) := by
  unfold optionalMember
  cases Json.find? name members with
  | none => simp [eq_comm]
  | some j => simp [nullable_text_eq_valid]

/-- The members whose names are not reserved. -/
def kept (members : List (String × α)) : List (String × α) :=
  members.filter fun m => !reserved.contains m.1

theorem kept_kept (members : List (String × α)) : kept (kept members) = kept members := by
  unfold kept
  rw [List.filter_filter]
  simp only [Bool.and_self]

theorem mem_of_kept_eq_cons {members rest : List (String × α)} {m : String × α}
    (h : kept members = m :: rest) : m ∈ members :=
  List.mem_of_mem_filter (show m ∈ kept members from h ▸ List.mem_cons_self)

/-- A record of values of a shape has the kept members, each of the shape. -/
theorem record_eq_valid {xs : List (String × α)} :
    record shape j = .valid xs ↔
      ∃ members, j.members? = some members ∧
        List.Forall₂ (fun m x => m.1 = x.1 ∧ shape m.2 = .valid x.2) (kept members) xs := by
  unfold record
  rw [object_eq_valid]
  simp only [Checked.forList_eq_valid, Checked.map_eq_valid, kept]
  refine exists_congr fun members => and_congr_right fun _ => ?_
  have hstep (m : String × Json) (x : String × α) :
      (∃ a, shape m.2 = .valid a ∧ (m.1, a) = x) ↔ m.1 = x.1 ∧ shape m.2 = .valid x.2 := by
    obtain ⟨n, y⟩ := x
    simp [and_comm]
  simp only [hstep]

/-- A record of any values has the kept members. -/
theorem record_any_eq_valid {xs : List (String × Json)} :
    record any j = .valid xs ↔ ∃ members, j.members? = some members ∧ kept members = xs := by
  rw [record_eq_valid]
  have hany (m x : String × Json) : m.1 = x.1 ∧ any m.2 = .valid x.2 ↔ m = x := by
    simp [any, Prod.ext_iff]
  simp only [hany, List.forall₂_eq_eq_eq]

end Shape

end TokenLedger
