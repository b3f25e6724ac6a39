import TokenLedger.Bytes

/-!
# The store

A store maps byte strings to byte strings.  Its entries are kept in strictly ascending order of
their keys, so that two stores with the same contents are the same store, and a snapshot of a store
is the store itself.
-/

namespace TokenLedger

/-! ### The order of keys -/

namespace Bytes

/-- Of two different byte strings one is smaller. -/
theorem lt_of_not_lt_of_ne : ∀ {a b : Bytes}, ¬ a < b → a ≠ b → b < a
  | [], [], _, hne => absurd rfl hne
  | [], _ :: _, hlt, _ => absurd (List.nil_lt_cons _ _) hlt
  | _ :: _, [], _, _ => List.nil_lt_cons _ _
  | x :: a, y :: b, hlt, hne => by
    rw [List.cons_lt_cons_iff] at hlt ⊢
    by_cases hxy : x = y
    · subst hxy
      exact Or.inr ⟨rfl, lt_of_not_lt_of_ne (fun h => hlt (Or.inr ⟨rfl, h⟩))
        (fun h => hne (by rw [h]))⟩
    · rcases UInt8.lt_or_lt_of_ne hxy with h | h
      · exact absurd (Or.inl h) hlt
      · exact Or.inl h

end Bytes

/-- A key with its value. -/
abbrev Entry := Bytes × Bytes

/-- Entries are in order when each key is smaller than all later ones. -/
abbrev Ascending (entries : List Entry) : Prop := entries.Pairwise fun a b => a.1 < b.1

/-- A finite map from byte strings to byte strings. -/
structure Store where
  entries : List Entry
  ascending : Ascending entries

namespace Store

@[ext] theorem ext {s t : Store} (h : s.entries = t.entries) : s = t := by
  cases s; cases t; cases h; rfl

instance : Repr Store := ⟨fun s n => reprPrec s.entries n⟩

/-- The store without entries. -/
def empty : Store := ⟨[], .nil⟩

instance : Inhabited Store := ⟨empty⟩

/-! ### Entries in order -/

/-- Puts an entry in its place among entries in order. -/
def insertEntry (k v : Bytes) : List Entry → List Entry
  | [] => [(k, v)]
  | e :: rest =>
    if k < e.1 then (k, v) :: e :: rest
    else if k = e.1 then (k, v) :: rest
    else e :: insertEntry k v rest

theorem mem_insertEntry {k v : Bytes} {e : Entry} {entries : List Entry}
    (h : e ∈ insertEntry k v entries) : e = (k, v) ∨ e ∈ entries := by
  induction entries with
  | nil => exact Or.inl (by simpa [insertEntry] using h)
  | cons x rest ih =>
    rw [insertEntry] at h
    split at h
    · rcases List.mem_cons.mp h with h | h
      · exact Or.inl h
      · exact Or.inr h
    · split at h
      · rcases List.mem_cons.mp h with h | h
        · exact Or.inl h
        · exact Or.inr (List.mem_cons_of_mem _ h)
      · rcases List.mem_cons.mp h with h | h
        · exact Or.inr (h ▸ List.mem_cons_self)
        · exact (ih h).imp_right (List.mem_cons_of_mem _)

theorem ascending_insertEntry (k v : Bytes) {entries : List Entry} (h : Ascending entries) :
    Ascending (insertEntry k v entries) := by
  induction entries with
  | nil => simp [insertEntry, Ascending]
  | cons x rest ih =>
    obtain ⟨hx, hrest⟩ := List.pairwise_cons.mp h
    rw [insertEntry]
    split
    · rename_i hlt
      refine List.pairwise_cons.mpr ⟨fun e he => ?_, h⟩
      rcases List.mem_cons.mp he with rfl | he
      · exact hlt
      · exact List.lt_trans hlt (hx e he)
    · split
      · rename_i heq
        exact List.pairwise_cons.mpr ⟨fun e he => heq ▸ hx e he, hrest⟩
      · rename_i hlt hne
        refine List.pairwise_cons.mpr ⟨fun e he => ?_, ih hrest⟩
        rcases mem_insertEntry he with rfl | he
        · exact Bytes.lt_of_not_lt_of_ne hlt hne
        · exact hx e he

/-! ### Operations -/

/-- The value under a key. -/
def get? (s : Store) (k : Bytes) : Option Bytes := (s.entries.find? (·.1 == k)).map (·.2)

/-- Puts a value under a key. -/
def set (s : Store) (k v : Bytes) : Store :=
  ⟨insertEntry k v s.entries, ascending_insertEntry k v s.ascending⟩

/-- Takes a key away. -/
def remove (s : Store) (k : Bytes) : Store :=
  ⟨s.entries.filter (·.1 != k), s.ascending.filter _⟩

/-- The number of entries. -/
def size (s : Store) : Nat := s.entries.length

/-- A direction of listing. -/
inductive Order
  | ascending
  | descending
deriving DecidableEq, Repr

/-- Whether a key lies at or above a lower bound and below an upper one; a missing bound does not
bind. -/
def inBounds (start stop : Option Bytes) (k : Bytes) : Bool :=
  start.all (fun b => !decide (k < b)) && stop.all (fun b => decide (k < b))

/-- The entries within bounds, in ascending or descending order. -/
def range (s : Store) (start stop : Option Bytes) (order : Order) : List Entry :=
  let inside := s.entries.filter fun e => inBounds start stop e.1
  match order with
  | .ascending => inside
  | .descending => inside.reverse

/-! ### Differences -/

/-- The keys whose values differ, with their later values, in ascending order. -/
def changes (earlier later : Store) : List (Bytes × Option Bytes) :=
  let written : List Entry := later.entries.filter fun e => earlier.get? e.1 != some e.2
  let removed : List Entry := earlier.entries.filter fun e => (later.get? e.1).isNone
  let all : List (Bytes × Option Bytes) :=
    written.map (fun e => (e.1, some e.2)) ++ removed.map fun e => (e.1, none)
  all.mergeSort fun a b => !decide (b.1 < a.1)

end Store

end TokenLedger
