import TokenLedger.Fault
import TokenLedger.Text.Utf8

/-!
# Keys

Keys of records are UTF-8 text, or a pair of texts of which the first has its length in two bytes in
front.  All pairs with one first text are then contiguous in a store, and so are all keys behind a
length-prefixed name.
-/

namespace TokenLedger

/-- A way to write keys as bytes. -/
structure KeyCodec (K : Type) where
  encode : K → Except Fault Bytes
  decode : Bytes → Except Fault K

namespace Key

/-- The fault of a key. -/
def fault (cause : DecodeCause) : Fault := .decode "storage key" cause

/-- The longest segment that two bytes of length can announce. -/
def maxSegment : Nat := 0xffff

/-- A segment with its length in two bytes in front. -/
def withLength (b : Bytes) : Bytes :=
  UInt8.ofNat (b.length / 256) :: UInt8.ofNat (b.length % 256) :: b

/-- A segment with its length in front, unless it is too long. -/
def lengthPrefixed (b : Bytes) : Except Fault Bytes :=
  if maxSegment < b.length then .error (fault (.longSegment b.length)) else .ok (withLength b)

/-- One text. -/
def text : KeyCodec String where
  encode s := .ok (Utf8.encode s)
  decode b := .ok (Utf8.decode b)

/-- Two texts, the first with its length. -/
def pair : KeyCodec (String × String) where
  encode := fun (a, b) => (· ++ Utf8.encode b) <$> lengthPrefixed (Utf8.encode a)
  decode
    | hi :: lo :: rest =>
      let length := hi.toNat * 256 + lo.toNat
      if rest.length < length then .error (fault .truncatedPair)
      else .ok (Utf8.decode (rest.take length), Utf8.decode (rest.drop length))
    | _ => .error (fault .shortPair)

/-- The least byte string above all that start with `b`; there is none when every byte of `b` is
the greatest. -/
def above : Bytes → Option Bytes
  | [] => none
  | x :: rest =>
    match above rest with
    | some end_ => some (x :: end_)
    | none => if x < 0xff then some [x + 1] else none

end Key

end TokenLedger
