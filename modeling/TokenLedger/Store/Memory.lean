import TokenLedger.Store.Basic

/-!
# A store that is written in place

A sheet keeps entries under the hexadecimal texts of their keys, in the order in which the keys came,
and puts them into the order of the keys only to list them.  A memory has sheets of which one is
current and is written in place.  A snapshot is a copy of the current sheet, and to go back to it is
to go on with a copy of that copy, so that the snapshot itself is never written.
-/

namespace TokenLedger

/-! ### Sheets -/

/-- Entries under the texts of their keys. -/
structure Sheet where
  slots : List (String × Entry)
  named : ∀ x ∈ slots, x.1 = x.2.1.toHex
  distinct : (slots.map (·.1)).Nodup

namespace Sheet

/-- The sheet without entries. -/
def empty : Sheet := ⟨[], by simp, .nil⟩

instance : Inhabited Sheet := ⟨empty⟩

/-- Puts an entry under a name: in the place of that name, or at the end if it is new. -/
def put (name : String) (e : Entry) : List (String × Entry) → List (String × Entry)
  | [] => [(name, e)]
  | x :: rest => if x.1 = name then (name, e) :: rest else x :: put name e rest

theorem mem_of_mem_put {name : String} {e : Entry} {x : String × Entry} :
    ∀ {slots : List (String × Entry)}, x ∈ put name e slots → x = (name, e) ∨ x ∈ slots
  | [], h => Or.inl (List.mem_singleton.mp h)
  | y :: rest, h => by
    rw [put] at h
    split at h
    · exact (List.mem_cons.mp h).imp_right (List.mem_cons_of_mem y)
    · rcases List.mem_cons.mp h with rfl | h
      · exact Or.inr List.mem_cons_self
      · exact (mem_of_mem_put h).imp_right (List.mem_cons_of_mem y)

theorem nodup_put (name : String) (e : Entry) :
    ∀ {slots : List (String × Entry)}, (slots.map (·.1)).Nodup →
      ((put name e slots).map (·.1)).Nodup
  | [], _ => by simp [put]
  | x :: rest, h => by
    obtain ⟨hx, hrest⟩ := List.nodup_cons.mp h
    rw [put]
    split
    · rename_i heq
      exact heq ▸ h
    · rename_i hne
      refine List.nodup_cons.mpr ⟨fun hmem => ?_, nodup_put name e hrest⟩
      obtain ⟨y, hy, heq⟩ := List.mem_map.mp hmem
      rcases mem_of_mem_put hy with rfl | hy
      · exact hne heq.symm
      · exact hx (List.mem_map.mpr ⟨y, hy, heq⟩)

/-- The value under a key. -/
def get? (t : Sheet) (k : Bytes) : Option Bytes :=
  (t.slots.find? (·.1 == k.toHex)).map (·.2.2)

/-- The sheet with a value under a key. -/
def set (t : Sheet) (k v : Bytes) : Sheet where
  slots := put k.toHex (k, v) t.slots
  named x hx := by
    rcases mem_of_mem_put hx with rfl | hx
    · rfl
    · exact t.named x hx
  distinct := nodup_put _ _ t.distinct

/-- The sheet without a key. -/
def remove (t : Sheet) (k : Bytes) : Sheet where
  slots := t.slots.filter (·.1 != k.toHex)
  named x hx := t.named x (List.mem_filter.mp hx).1
  distinct := t.distinct.sublist (List.filter_sublist.map _)

/-- The number of entries. -/
def size (t : Sheet) : Nat := t.slots.length

/-- The entries in the order in which their keys came. -/
def entries (t : Sheet) : List Entry := t.slots.map (·.2)

/-- The entries within bounds, put into ascending or descending order. -/
def range (t : Sheet) (start stop : Option Bytes) (order : Store.Order) : List Entry :=
  let inside := t.entries.filter fun e => Store.inBounds start stop e.1
  let sorted := inside.mergeSort fun a b => !decide (b.1 < a.1)
  match order with
  | .ascending => sorted
  | .descending => sorted.reverse

/-- The store with the entries of a sheet. -/
def toStore (t : Sheet) : Store := t.entries.foldl (fun s e => s.set e.1 e.2) .empty

end Sheet

/-! ### Memories -/

/-- Numbered sheets, of which the current one is written. -/
structure Memory where
  sheets : List Sheet
  current : Nat
  isSheet : current < sheets.length

namespace Memory

/-- The memory with one sheet without entries. -/
def empty : Memory := ⟨[.empty], 0, Nat.one_pos⟩

/-- The current sheet. -/
def sheet (m : Memory) : Sheet := m.sheets.get ⟨m.current, m.isSheet⟩

/-- Writes the current sheet. -/
def write (m : Memory) (f : Sheet → Sheet) : Memory where
  sheets := m.sheets.modify m.current f
  current := m.current
  isSheet := by simpa using m.isSheet

/-- Keeps a copy of the current sheet, and tells the number of the copy. -/
def snapshot (m : Memory) : Memory × Nat :=
  ({ m with
      sheets := m.sheets ++ [m.sheet]
      isSheet := Nat.lt_of_lt_of_le m.isSheet (by simp) }, m.sheets.length)

/-- Goes on with a copy of a sheet. -/
def restore (m : Memory) (n : Nat) : Memory :=
  match m.sheets[n]? with
  | some t => ⟨m.sheets ++ [t], m.sheets.length, by simp⟩
  | none => m

/-! ### Calls -/

/-- What is asked of a memory; snapshots are counted in the order in which they are taken. -/
inductive Call
  | set (k v : Bytes)
  | remove (k : Bytes)
  | snapshot
  | restore (i : Nat)
deriving DecidableEq, Repr

/-- A memory with the numbers of the snapshots taken of it. -/
structure Session where
  memory : Memory
  taken : List Nat

namespace Session

/-- A session that begins with a memory without entries. -/
def start : Session := ⟨.empty, []⟩

/-- The session after a call.  A snapshot that was never taken cannot be restored. -/
def call (s : Session) : Call → Session
  | .set k v => { s with memory := s.memory.write (·.set k v) }
  | .remove k => { s with memory := s.memory.write (·.remove k) }
  | .snapshot =>
    let (memory, n) := s.memory.snapshot
    ⟨memory, s.taken ++ [n]⟩
  | .restore i =>
    match s.taken[i]? with
    | some n => { s with memory := s.memory.restore n }
    | none => s

/-- The session that calls come to. -/
def run (calls : List Call) : Session := calls.foldl call start

end Session

end Memory

end TokenLedger
