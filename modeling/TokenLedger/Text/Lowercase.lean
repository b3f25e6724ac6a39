import TokenLedger.Text.Lowercase.Table

/-!
# Lower case

The full lower-case form of a text.  It differs from the character-wise mapping in two places: a
capital I with a dot becomes two characters, and a capital sigma at the end of a word becomes a
final one.
-/

namespace TokenLedger.Text

/-- Whether a capital sigma stands at the end of a word: a letter before it and none after it,
passing over ignorable characters.  The text before it is given last character first. -/
def isFinalSigma (before after : List Char) : Bool :=
  (before.dropWhile isIgnorable).head?.any isCased &&
    !(after.dropWhile isIgnorable).head?.any isCased

/-- The lower-case form of a character between two texts. -/
def lowerAt (before : List Char) (c : Char) (after : List Char) : List Char :=
  if c.toNat < 128 then [c.toLower]
  else if c = '\u0130' then ['i', '\u0307']
  else if c = '\u03a3' then [if isFinalSigma before after then '\u03c2' else '\u03c3']
  else [lowerChar c]

/-- Goes through a text behind the characters `before`, both it and the result in reverse. -/
def lowerOnto (out before : List Char) : List Char → List Char
  | [] => out.reverse
  | c :: after => lowerOnto ((lowerAt before c after).reverse ++ out) (c :: before) after

/-- The lower-case form of a string. -/
def lowercase (s : String) : String := String.ofList (lowerOnto [] [] s.toList)

end TokenLedger.Text
