import TokenLedger.Proofs.Wire.Lawful

/-!
# Editions of a message type

A later edition of a message type has more fields behind those of an earlier one.  The later edition
reads the items of the earlier with zero for the fields that they lack, and the earlier edition
passes over the items that it does not know, in the message itself and in one that is nested in it.
What cannot be read back is not read in this way either, hence `ReadsBack` of what remains.
-/

namespace TokenLedger.Wire

open Rlp (Item)

variable {α β M : Type} {name t : String} {k : Nat} {items : List Item}

/-! ### Rows -/

namespace Layout

/-- The row with the fields behind the first `k` zero. -/
def keep : {α : Type} → Layout α → Nat → α → α
  | _, .nil, _, _ => ()
  | _, .cons head tail, 0, _ => (head.zero, tail.zero)
  | _, .cons _ tail, k + 1, (a, row) => (a, tail.keep k row)

variable {l : Layout α} {row : α}

theorem read_nil (l : Layout α) : l.read t [] = .ok l.zero := by
  induction l with
  | nil => rfl
  | cons head tail ih => exact read_cons_eq_ok.mpr ⟨rfl, ih⟩

theorem readsBack_zero (hl : l.Forall Field.Lawful) : l.ReadsBack l.zero := by
  induction l with
  | nil => trivial
  | cons head tail ih =>
    obtain ⟨hhead, htail⟩ := hl
    exact ⟨hhead.zero_readsBack, ih htail⟩

theorem write_keep (hl : l.Forall Field.Lawful) (h : l.write row = .ok items) (k : Nat) :
    ∃ items', l.write (l.keep k row) = .ok items' := by
  induction l generalizing items k with
  | nil => exact ⟨[], rfl⟩
  | cons head tail ih =>
    obtain ⟨a, row⟩ := row
    cases k with
    | zero =>
      obtain ⟨items', hwrite, -⟩ := read_write (readsBack_zero hl)
      exact ⟨items', hwrite⟩
    | succ k =>
      obtain ⟨item, rest, hitem, hrest, -⟩ := write_cons_eq_ok h
      obtain ⟨rest', hwrite⟩ := ih hl.2 hrest k
      refine ⟨item :: rest', ?_⟩
      show (head.write a >>= fun item => tail.write (tail.keep k row) >>= fun items =>
        .ok (item :: items)) = _
      rw [hitem, hwrite]
      rfl

/-- The first items of a row are read as the row with the other fields zero. -/
theorem read_take (h : l.write row = .ok items) (hback : l.ReadsBack (l.keep k row)) :
    l.read t (items.take k) = .ok (l.keep k row) := by
  induction l generalizing items k with
  | nil => rfl
  | cons head tail ih =>
    obtain ⟨a, row⟩ := row
    cases k with
    | zero => exact read_nil (.cons head tail)
    | succ k =>
      obtain ⟨item, rest, hitem, hrest, rfl⟩ := write_cons_eq_ok h
      obtain ⟨⟨item', hitem', hread⟩, htail⟩ := hback
      obtain rfl : item = item' := Except.ok.inj (hitem.symm.trans hitem')
      exact read_cons_eq_ok.mpr ⟨hread t, ih hrest htail⟩

theorem read_append (h : l.write row = .ok items) (hback : l.ReadsBack row) (more : List Item) :
    l.read t (items ++ more) = .ok row := by
  obtain ⟨items', hwrite, -, hread⟩ := read_write hback
  obtain rfl : items = items' := Except.ok.inj (h.symm.trans hwrite)
  exact hread t more

end Layout

/-- Another item at a place is read as another value there. -/
theorem Place.read_set {f : Field β} {l : Layout α} {row : α} {b : β} {item : Item}
    (p : Place f l) (h : l.write row = .ok items) (hback : l.ReadsBack (p.set row b))
    (hread : f.read t item = .ok b) :
    l.read t (items.set p.index item) = .ok (p.set row b) := by
  induction p generalizing items with
  | @here _ tail =>
    obtain ⟨a, row⟩ := row
    obtain ⟨item', rest, -, hrest, rfl⟩ := Layout.write_cons_eq_ok h
    have htail := Layout.read_append (t := t) hrest hback.2 []
    rw [List.append_nil] at htail
    exact Layout.read_cons_eq_ok.mpr ⟨hread, htail⟩
  | there p ih =>
    obtain ⟨a, row⟩ := row
    obtain ⟨item', rest, ha, hrest, rfl⟩ := Layout.write_cons_eq_ok h
    obtain ⟨⟨item'', ha', hread'⟩, htail⟩ := hback
    obtain rfl : item' = item'' := Except.ok.inj (ha.symm.trans ha')
    exact Layout.read_cons_eq_ok.mpr ⟨hread' t, ih hrest htail⟩

/-! ### Messages -/

namespace Schema

variable {s : Schema M} {m : M}

/-- The message with the fields behind the first `k` zero. -/
def keep (s : Schema M) (k : Nat) (m : M) : M := s.ofRow (s.layout.keep k (s.toRow m))

/-- The message with another value at a place. -/
def put {f : Field β} (s : Schema M) (p : Place f s.layout) (m : M) (b : β) : M :=
  s.ofRow (p.set (s.toRow m) b)

theorem toRow_keep (s : Schema M) (k : Nat) (m : M) :
    s.toRow (s.keep k m) = s.layout.keep k (s.toRow m) := s.toRow_ofRow _

theorem toRow_put {f : Field β} (s : Schema M) (p : Place f s.layout) (m : M) (b : β) :
    s.toRow (s.put p m b) = p.set (s.toRow m) b := s.toRow_ofRow _

theorem put_get {f : Field β} {p : Place f s.layout} {b : β} (h : p.get (s.toRow m) = b) :
    s.put p m b = m := by
  rw [put, ← h, p.set_get, s.ofRow_toRow]

theorem read_of_row {row : s.Row} (h : s.layout.read t items = .ok row) :
    s.read t items = .ok (s.ofRow row) := by
  rw [read, h]
  rfl

theorem write_keep (hl : s.layout.Forall Field.Lawful) (h : s.write m = .ok items) (k : Nat) :
    ∃ items', s.write (s.keep k m) = .ok items' := by
  obtain ⟨items', hwrite⟩ := Layout.write_keep hl h k
  rw [← s.toRow_keep] at hwrite
  exact ⟨items', hwrite⟩

/-- The first items of a message are read as the message with the other fields zero. -/
theorem read_take (h : s.write m = .ok items)
    (hback : s.layout.ReadsBack (s.toRow (s.keep k m))) :
    s.read t (items.take k) = .ok (s.keep k m) := by
  rw [s.toRow_keep] at hback
  exact read_of_row (Layout.read_take h hback)

/-- Items behind those of a message are passed over. -/
theorem read_append (h : s.write m = .ok items) (hback : s.layout.ReadsBack (s.toRow m))
    (more : List Item) : s.read t (items ++ more) = .ok m := by
  have hrow := read_of_row (t := t) (Layout.read_append h hback more)
  rwa [s.ofRow_toRow] at hrow

/-- Another item at a place of a message is read as another value there. -/
theorem read_set {f : Field β} {b : β} {item : Item} (p : Place f s.layout)
    (h : s.write m = .ok items) (hback : s.layout.ReadsBack (s.toRow (s.put p m b)))
    (hread : f.read t item = .ok b) : s.read t (items.set p.index item) = .ok (s.put p m b) := by
  rw [s.toRow_put] at hback
  exact read_of_row (p.read_set h hback hread)

/-- A list that has items is read as a present message. -/
theorem optional_read_list (hne : items ≠ [])
    (h : s.read (subtypeName t name) items = .ok m) :
    (s.optional name).read t (.list items) = .ok (some m) := by
  have hsome : ¬ items.isEmpty = true := fun hempty => hne (List.isEmpty_iff.mp hempty)
  show (if items.isEmpty = true then .ok none else
    some <$> s.read (subtypeName t name) items) = .ok (some m)
  rw [if_neg hsome, h]
  rfl

end Schema

end TokenLedger.Wire
