import TokenLedger.Proofs.Except
import TokenLedger.Store.RecordMap

/-!
# What record maps fail with

A record map fails only where a key cannot be written or read or where a record is not what the map
keeps.  All of these are faults of decoding.
-/

namespace TokenLedger

/-- A fault of decoding. -/
def Fault.IsDecode : Fault → Prop
  | .decode .. => True
  | _ => False

variable {K V : Type} {m : RecordMap K V} {s : Store} {k : K} {v : V} {b raw : Bytes} {e : Fault}

/-- Keys that cannot be written or read are faults of decoding. -/
class KeyCodec.FailsDecoding (c : KeyCodec K) : Prop where
  encode : ∀ {k e}, c.encode k = .error e → e.IsDecode
  decode : ∀ {b e}, c.decode b = .error e → e.IsDecode

instance : Key.text.FailsDecoding where
  encode h := by cases h
  decode h := by cases h

instance : Key.pair.FailsDecoding where
  encode := by
    rintro ⟨a, b⟩ e h
    have hprefixed : Key.lengthPrefixed (Utf8.encode a) = .error e := Except.map_eq_error.mp h
    unfold Key.lengthPrefixed at hprefixed
    split at hprefixed
    · obtain rfl := Except.error.inj hprefixed
      trivial
    · cases hprefixed
  decode := by
    intro b e h
    have hread : (match b with
      | hi :: lo :: rest =>
        if rest.length < hi.toNat * 256 + lo.toNat then Except.error (Key.fault .truncatedPair)
        else .ok (Utf8.decode (rest.take (hi.toNat * 256 + lo.toNat)),
          Utf8.decode (rest.drop (hi.toNat * 256 + lo.toNat)))
      | _ => .error (Key.fault .shortPair)) = .error e := h
    split at hread
    · split at hread
      · obtain rfl := Except.error.inj hread
        trivial
      · cases hread
    · obtain rfl := Except.error.inj hread
      trivial

theorem Shape.isDecode_of_readBytes {shape : Shape V} {typeName : String}
    (h : shape.readBytes typeName raw = .error e) : e.IsDecode := by
  unfold Shape.readBytes at h
  split at h
  · rename_i j hj
    cases hshape : shape j with
    | valid v =>
      rw [hshape] at h
      cases h
    | invalid issues =>
      rw [hshape] at h
      obtain rfl := Except.error.inj h
      trivial
  · obtain rfl := Except.error.inj h
    trivial

namespace RecordMap

theorem isDecode_of_readRecord (h : m.readRecord raw = .error e) : e.IsDecode :=
  Shape.isDecode_of_readBytes h

variable [m.key.FailsDecoding]

theorem isDecode_of_fullKey (h : m.fullKey k = .error e) : e.IsDecode :=
  KeyCodec.FailsDecoding.encode (Except.map_eq_error.mp h)

theorem isDecode_of_load? (h : m.load? s k = .error e) : e.IsDecode := by
  rcases Except.bind_eq_error.mp h with hkey | ⟨b, -, hread⟩
  · exact isDecode_of_fullKey hkey
  · cases hb : s.get? b with
    | none =>
      rw [hb] at hread
      cases hread
    | some raw =>
      rw [hb] at hread
      exact isDecode_of_readRecord (Except.map_eq_error.mp hread)

theorem isDecode_of_save (h : m.save s k v = .error e) : e.IsDecode := by
  rcases Except.bind_eq_error.mp h with hkey | ⟨b, -, hset⟩
  · exact isDecode_of_fullKey hkey
  · cases hset

theorem isDecode_of_delete (h : m.delete s k = .error e) : e.IsDecode := by
  rcases Except.bind_eq_error.mp h with hkey | ⟨b, -, hremove⟩
  · exact isDecode_of_fullKey hkey
  · cases hremove

theorem isDecode_of_readEntry {entry : Entry} (h : m.readEntry entry = .error e) : e.IsDecode := by
  rcases Except.bind_eq_error.mp h with hkey | ⟨k, -, hrest⟩
  · exact KeyCodec.FailsDecoding.decode hkey
  · rcases Except.bind_eq_error.mp hrest with hrecord | ⟨v, -, hpair⟩
    · exact isDecode_of_readRecord hrecord
    · cases hpair

theorem isDecode_of_mapM {l : List Entry} (h : l.mapM m.readEntry = .error e) : e.IsDecode := by
  obtain ⟨entry, -, hentry⟩ := Except.exists_of_mapM_eq_error h
  exact isDecode_of_readEntry hentry

theorem isDecode_of_entries {order : Store.Order} (h : m.entries s order = .error e) :
    e.IsDecode := isDecode_of_mapM h

end RecordMap

end TokenLedger
