import TokenLedger.Proofs.Json.Numerals
import TokenLedger.Proofs.Text.Hex

/-!
# JSON text reads back

`Plain` values are those that their text determines: every number is an integer of at most 53 bits,
and the members of an object have different names, none of which is an array index.  The text of a
plain value is read back as that value (`parse_toText`).  Strings are not restricted: whatever
stands in one is escaped and comes back.
-/

namespace TokenLedger.Json

/-! ### Strings -/

/-- A character is read back from the way it stands in a string. -/
theorem readString_escape (reversed : List Nat) (c : Char) (rest : List Char) :
    readString reversed (escape c ++ rest) = readString (c.toNat :: reversed) rest := by
  unfold escape
  split_ifs with h1 h2 h3 h4 h5 h6 h7 h8
  · subst h1; rfl
  · subst h2; rfl
  · subst h3; rfl
  · subst h4; rfl
  · subst h5; rfl
  · rw [h6]; rfl
  · rw [h7]; rfl
  · have hu : unit? '0' '0' (Bytes.hexDigit (c.toNat / 16)) (Bytes.hexDigit (c.toNat % 16)) =
        some c.toNat := by
      have hz : Bytes.hexValue? '0' = some 0 := rfl
      simp only [unit?, hz, Bytes.hexValue?_hexDigit (c.toNat / 16) (by omega),
        Bytes.hexValue?_hexDigit (c.toNat % 16) (by omega), Option.bind_eq_bind, Option.bind_some]
      congr 1
      omega
    simp only [List.cons_append, List.nil_append, readString, hu]
  · rw [List.singleton_append, readString.eq_def reversed (c :: rest)]
    split <;> simp_all

theorem isHighSurrogate_toNat (c : Char) : isHighSurrogate c.toNat = false := by
  have hv : c.toNat < 0xd800 ∨ (0xdfff < c.toNat ∧ c.toNat < 0x110000) := c.valid
  simp only [isHighSurrogate, Bool.and_eq_false_imp, decide_eq_true_eq, decide_eq_false_iff_not]
  omega

theorem isLowSurrogate_toNat (c : Char) : isLowSurrogate c.toNat = false := by
  have hv : c.toNat < 0xd800 ∨ (0xdfff < c.toNat ∧ c.toNat < 0x110000) := c.valid
  simp only [isLowSurrogate, Bool.and_eq_false_imp, decide_eq_true_eq, decide_eq_false_iff_not]
  omega

/-- Characters are no halves of pairs, so that none of them are joined. -/
theorem joinSurrogates_map_toNat (cs out : List Char) :
    joinSurrogates (cs.map Char.toNat) out = cs.reverse ++ out := by
  induction cs generalizing out with
  | nil => rfl
  | cons c cs ih =>
    cases cs with
    | nil => simp [joinSurrogates, isHighSurrogate_toNat, isLowSurrogate_toNat]
    | cons d cs =>
      simp only [List.map_cons] at ih ⊢
      simp [joinSurrogates, isHighSurrogate_toNat, isLowSurrogate_toNat, ih]

theorem readString_escaped (before cs rest : List Char) :
    readString (before.map Char.toNat) (cs.flatMap escape ++ '"' :: rest) =
      .ok (String.ofList (before.reverse ++ cs), rest) := by
  induction cs generalizing before with
  | nil => simp [readString, joinSurrogates_map_toNat]
  | cons c cs ih =>
    rw [List.flatMap_cons, List.append_assoc, readString_escape]
    have h := ih (c :: before)
    rwa [List.reverse_cons, List.append_assoc] at h

/-- A string is read back from behind its opening quotation mark. -/
theorem readString_quoted (s : String) (rest : List Char) :
    readString [] (s.toList.flatMap escape ++ '"' :: rest) = .ok (s, rest) := by
  have h := readString_escaped [] s.toList rest
  simpa using h

/-! ### Plain values -/

mutual

/-- Values that their text determines. -/
def Plain : Json → Prop
  | .num x => x.IsSmallInteger
  | .arr items => PlainItems items
  | .obj members =>
    ((members.map (·.1)).Nodup ∧ ∀ name ∈ members.map (·.1), indexOf? name = none) ∧
      PlainMembers members
  | .null | .bool _ | .str _ => True

/-- Plain items of an array. -/
def PlainItems : List Json → Prop
  | [] => True
  | j :: rest => j.Plain ∧ PlainItems rest

/-- Plain values of the members of an object. -/
def PlainMembers : List (String × Json) → Prop
  | [] => True
  | (_, j) :: rest => j.Plain ∧ PlainMembers rest

end

theorem plainItems_iff {items : List Json} : PlainItems items ↔ ∀ j ∈ items, j.Plain := by
  induction items with
  | nil => simp [PlainItems]
  | cons j rest ih => simp [PlainItems, ih]

theorem plainItems_map {β : Type} {g : β → Json} {bs : List β} (h : ∀ b ∈ bs, (g b).Plain) :
    PlainItems (bs.map g) := by
  refine plainItems_iff.mpr fun j hj => ?_
  obtain ⟨b, hb, rfl⟩ := List.mem_map.mp hj
  exact h b hb

theorem setMember_of_notMem {members : List (String × Json)} {name : String} {value : Json}
    (h : name ∉ members.map (·.1)) : setMember members name value = members ++ [(name, value)] := by
  have hany : members.any (·.1 == name) = false := by
    rw [List.any_eq_false]
    intro m hm heq
    exact h (List.mem_map.mpr ⟨m, hm, by simpa using heq⟩)
  rw [setMember, hany]
  rfl

theorem foldl_setMember (done members : List (String × Json))
    (h : ((done ++ members).map (·.1)).Nodup) :
    members.foldl (fun acc m => setMember acc m.1 m.2) done = done ++ members := by
  induction members generalizing done with
  | nil => simp
  | cons m members ih =>
    have hm : m.1 ∉ done.map (·.1) := by
      rw [List.map_append, List.nodup_append] at h
      intro hmem
      exact h.2.2 m.1 hmem m.1 (by simp) rfl
    rw [List.foldl_cons, setMember_of_notMem hm, ih (done ++ [m]) (by simpa using h)]
    simp

/-- Members with different names that are no indices stay where they are. -/
theorem object_of_nodup {members : List (String × Json)} (hd : (members.map (·.1)).Nodup)
    (hi : ∀ name ∈ members.map (·.1), indexOf? name = none) : object members = .obj members := by
  have hall : members.all (fun m => (indexOf? m.1).isNone) = true := by
    rw [List.all_eq_true]
    intro m hm
    rw [hi m.1 (List.mem_map.mpr ⟨m, hm, rfl⟩)]
    rfl
  rw [object, foldl_setMember [] members (by simpa using hd), List.nil_append, indicesFirst,
    if_pos hall]

/-! ### Values -/

/-- Nothing or what may stand behind a value: a comma or a closing bracket or brace. -/
def EndsValue : List Char → Prop
  | [] => True
  | c :: _ => c = ',' ∨ c = ']' ∨ c = '\x7d'

theorem EndsValue.endsNumeral {rest : List Char} (h : EndsValue rest) :
    Number.EndsNumeral rest := by
  cases rest with
  | nil => trivial
  | cons c rest =>
    rcases h with rfl | rfl | rfl <;> exact ⟨by decide, by decide, by decide, by decide⟩

theorem EndsValue.skipBlank {rest : List Char} (h : EndsValue rest) : skipBlank rest = rest := by
  cases rest with
  | nil => rfl
  | cons c rest => rcases h with rfl | rfl | rfl <;> rfl

/-- The text of a value begins with neither a blank nor a closing bracket. -/
theorem chars_eq_cons {j : Json} (h : j.Plain) :
    ∃ c cs, chars j = c :: cs ∧ c ≠ ']' ∧ ∀ rest, skipBlank (c :: rest) = c :: rest := by
  have key : ∀ c : Char, c ≠ ']' ∧ c ≠ ' ' ∧ c ≠ '\t' ∧ c ≠ '\n' ∧ c ≠ '\r' →
      c ≠ ']' ∧ ∀ rest, skipBlank (c :: rest) = c :: rest := by
    rintro c ⟨h0, h1, h2, h3, h4⟩
    exact ⟨h0, fun rest => if_neg (by simp [h1, h2, h3, h4])⟩
  cases j with
  | null => exact ⟨'n', _, rfl, key _ (by decide)⟩
  | bool b => cases b <;> exact ⟨_, _, rfl, key _ (by decide)⟩
  | num x =>
    obtain ⟨c, cs, hcs, hc⟩ := numeral_eq_cons h
    refine ⟨c, cs, hcs, key c ⟨?_, ?_, ?_, ?_, ?_⟩⟩ <;> (rintro rfl; exact absurd hc (by decide))
  | str s => exact ⟨'"', _, rfl, key _ (by decide)⟩
  | arr items => exact ⟨'[', _, rfl, key _ (by decide)⟩
  | obj members => exact ⟨'\x7b', _, rfl, key _ (by decide)⟩

theorem readValue_quote (fuel : Nat) (cs : List Char) :
    readValue (fuel + 1) ('"' :: cs) =
      (readString [] cs).bind fun p => .ok (.str p.1, p.2) := rfl

/-- What follows the opening bracket of an array that is not empty. -/
theorem readValue_bracket (fuel : Nat) {c : Char} {body : List Char} (hc : c ≠ ']')
    (hb : skipBlank (c :: body) = c :: body) :
    readValue (fuel + 1) ('[' :: c :: body) =
      (readItems fuel (c :: body)).bind fun p => .ok (.arr p.1, p.2) := by
  have h : skipBlank ('[' :: c :: body) = '[' :: c :: body := if_neg (by decide)
  rw [readValue, h]
  simp only [hb]
  split
  · rename_i heq
    injection heq with heq
    exact absurd heq hc
  · rfl

theorem readValue_brace (fuel : Nat) (body : List Char) :
    readValue (fuel + 1) ('\x7b' :: '"' :: body) =
      (readMembers .firstName fuel ('"' :: body)).bind fun p => .ok (object p.1, p.2) := rfl

theorem readName_quoted (defect : Defect) (name : String) (rest : List Char) :
    readName defect (quoted name ++ ':' :: rest) = .ok (name, rest) := by
  have h : ∀ cs, skipBlank ('"' :: cs) = '"' :: cs := fun _ => if_neg (by decide)
  rw [quoted, List.cons_append, List.append_assoc, List.singleton_append, readName, h]
  simp only [readString_quoted]
  rfl

/-- What is read where a number stands. -/
theorem readValue_digit {fuel : Nat} {c : Char} {body : List Char}
    (hc : (c.isDigit || c == '-') = true) (hb : skipBlank (c :: body) = c :: body) :
    readValue (fuel + 1) (c :: body) = readNumber (c :: body) := by
  have hhead : ∀ {d : Char} {rest : List Char},
      c :: body = d :: rest → (d.isDigit || d == '-') = true := by
    intro d rest h
    injection h with h
    exact h ▸ hc
  rw [readValue, hb]
  split
  case h_7 heq =>
    rw [if_pos (hhead heq), heq]
  case h_8 heq => cases heq
  -- the other forms start with a character of their own
  all_goals exact absurd (hhead ‹_›) (by decide)

mutual

/-- A plain value is read back from its text, whatever may stand behind a value. -/
theorem readValue_chars : ∀ (j : Json), j.Plain → ∀ (fuel : Nat) (rest : List Char),
    2 * (chars j).length + 2 ≤ fuel → EndsValue rest →
    readValue fuel (chars j ++ rest) = .ok (j, rest)
  | _, _, 0, _, hf, _ => absurd hf (by omega)
  | .null, _, _ + 1, _, _, _ => rfl
  | .bool true, _, _ + 1, _, _, _ => rfl
  | .bool false, _, _ + 1, _, _, _ => rfl
  | .num x, h, fuel + 1, rest, _, hr => by
    obtain ⟨c, cs, hcs, hc⟩ := numeral_eq_cons h
    obtain ⟨c', cs', hcs', -, hb⟩ := chars_eq_cons (j := .num x) h
    have hread := readNumber_numeral h hr.endsNumeral
    rw [chars] at hcs' ⊢
    rw [hcs'] at hcs hread ⊢
    injection hcs with h1
    subst h1
    rw [List.cons_append] at hread ⊢
    rw [readValue_digit hc (hb _), hread]
  | .str s, _, fuel + 1, rest, _, _ => by
    rw [chars, quoted, List.cons_append, List.append_assoc, readValue_quote,
      List.singleton_append, readString_quoted]
    rfl
  | .arr [], _, _ + 1, _, _, _ => rfl
  | .arr (j :: items), h, fuel + 1, rest, hf, _ => by
    rw [Plain] at h
    have hi := readItems_chars (j :: items) (by simp) h fuel rest (by
      rw [chars] at hf
      simp only [List.length_cons, List.length_append, List.length_nil] at hf
      omega)
    obtain ⟨c, cs, hcs, hc, hb⟩ := chars_eq_cons h.1
    have hbody : ∃ body, itemsChars (j :: items) ++ ']' :: rest = c :: body := by
      cases items with
      | nil => exact ⟨cs ++ ']' :: rest, by rw [itemsChars, hcs]; rfl⟩
      | cons k items =>
        exact ⟨cs ++ ',' :: itemsChars (k :: items) ++ ']' :: rest, by
          rw [itemsChars, hcs, List.cons_append, List.cons_append]⟩
    obtain ⟨body, hbody⟩ := hbody
    rw [hbody] at hi
    rw [chars, List.cons_append, List.append_assoc, List.singleton_append, hbody,
      readValue_bracket fuel hc (hb _), hi]
    rfl
  | .obj [], _, _ + 1, _, _, _ => rfl
  | .obj ((name, j) :: members), h, fuel + 1, rest, hf, _ => by
    rw [Plain] at h
    have hi := readMembers_chars .firstName ((name, j) :: members) (by simp) h.2 fuel rest (by
      rw [chars] at hf
      simp only [List.length_cons, List.length_append, List.length_nil] at hf
      omega)
    have hbody : ∃ body, membersChars ((name, j) :: members) ++ '\x7d' :: rest = '"' :: body := by
      cases members with
      | nil => exact ⟨_, by rw [membersChars, quoted]; rfl⟩
      | cons m members => exact ⟨_, by rw [membersChars, quoted]; rfl⟩
    obtain ⟨body, hbody⟩ := hbody
    rw [hbody] at hi
    rw [chars, List.cons_append, List.append_assoc, List.singleton_append, hbody,
      readValue_brace, hi, Except.bind, object_of_nodup h.1.1 h.1.2]

/-- Plain items are read back up to the closing bracket. -/
theorem readItems_chars : ∀ (items : List Json), items ≠ [] → PlainItems items →
    ∀ (fuel : Nat) (rest : List Char), 2 * (itemsChars items).length + 3 ≤ fuel →
    readItems fuel (itemsChars items ++ ']' :: rest) = .ok (items, rest)
  | [], hne, _, _, _, _ => absurd rfl hne
  | _ :: _, _, _, 0, _, hf => absurd hf (by omega)
  | [j], _, h, fuel + 1, rest, hf => by
    have hend : EndsValue (']' :: rest) := Or.inr (Or.inl rfl)
    have hj := readValue_chars j h.1 fuel (']' :: rest) (by rw [itemsChars] at hf; omega) hend
    rw [itemsChars, readItems, hj]
    simp only [bind, Except.bind, hend.skipBlank]
  | j :: k :: items, _, h, fuel + 1, rest, hf => by
    rw [itemsChars, List.length_append, List.length_cons] at hf
    have hend : EndsValue (',' :: (itemsChars (k :: items) ++ ']' :: rest)) := Or.inl rfl
    have hj := readValue_chars j h.1 fuel _ (by omega) hend
    have hi := readItems_chars (k :: items) (by simp) h.2 fuel rest (by omega)
    rw [itemsChars, List.append_assoc, List.cons_append, readItems, hj]
    simp only [bind, Except.bind, hend.skipBlank, hi]

/-- Plain members are read back up to the closing brace. -/
theorem readMembers_chars : ∀ (defect : Defect) (members : List (String × Json)), members ≠ [] →
    PlainMembers members → ∀ (fuel : Nat) (rest : List Char),
    2 * (membersChars members).length + 3 ≤ fuel →
    readMembers defect fuel (membersChars members ++ '\x7d' :: rest) = .ok (members, rest)
  | _, [], hne, _, _, _, _ => absurd rfl hne
  | _, _ :: _, _, _, 0, _, hf => absurd hf (by omega)
  | defect, [(name, j)], _, h, fuel + 1, rest, hf => by
    have hend : EndsValue ('\x7d' :: rest) := Or.inr (Or.inr rfl)
    have hj := readValue_chars j h.1 fuel ('\x7d' :: rest)
      (by rw [membersChars, List.length_append, List.length_cons] at hf; omega) hend
    rw [membersChars, List.append_assoc, List.cons_append, readMembers, readName_quoted]
    simp only [bind, Except.bind, hj, hend.skipBlank]
  | defect, (name, j) :: m :: members, _, h, fuel + 1, rest, hf => by
    rw [membersChars, List.length_append, List.length_cons, List.length_append,
      List.length_cons] at hf
    have hend : EndsValue (',' :: (membersChars (m :: members) ++ '\x7d' :: rest)) := Or.inl rfl
    have hj := readValue_chars j h.1 fuel _ (by omega) hend
    have hm := readMembers_chars .nextName (m :: members) (by simp) h.2 fuel rest (by omega)
    rw [membersChars, List.append_assoc, List.cons_append, List.append_assoc, List.cons_append,
      readMembers, readName_quoted]
    simp only [bind, Except.bind, hj, hend.skipBlank, hm]

end

/-- The text of a plain value is read back as that value. -/
theorem parse_toText {j : Json} (h : j.Plain) : parse j.toText = .ok j := by
  have hread := readValue_chars j h (2 * (chars j).length + 2) [] (le_refl _) trivial
  rw [List.append_nil] at hread
  rw [parse, toText, String.toList_ofList, parseChars, readWhole, hread]
  rfl

end TokenLedger.Json
