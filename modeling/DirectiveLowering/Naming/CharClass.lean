import DirectiveLowering.Text.Digit

/-!
# Character classes of names

Names are split into words by the class of their characters: Latin capitals and small letters (ASCII
and Latin-1), separators, decimal digits, and everything else, which counts as part of a word.

Results:
* `isOther_iff`: a character is of the last class exactly when it is of no other.
-/

namespace DirectiveLowering.Naming

open DirectiveLowering.Text (covers isDecimalDigit)

/-- Code points of the Latin capitals (`_UPPER`). -/
def capitalRanges : List (Nat × Nat) := [(0x41, 0x5a), (0xc0, 0xd6), (0xd8, 0xde)]

/-- Code points of the Latin small letters (`_LOWER`). -/
def smallRanges : List (Nat × Nat) := [(0x61, 0x7a), (0xdf, 0xf6), (0xf8, 0xff)]

/-- Code points of separators (`_BREAK`): controls, punctuation and symbols of ASCII and Latin-1,
general punctuation and supplemental punctuation. -/
def separatorRanges : List (Nat × Nat) := [
  (0x0, 0x2f), (0x3a, 0x40), (0x5b, 0x60), (0x7b, 0xbf), (0xd7, 0xd7), (0xf7, 0xf7),
  (0x2000, 0x206f), (0x2e00, 0x2e7f)]

/-- Whether the character is a Latin capital. -/
def isCapital (c : Char) : Bool :=
  covers capitalRanges c.toNat

/-- Whether the character is a Latin small letter. -/
def isSmall (c : Char) : Bool :=
  covers smallRanges c.toNat

/-- Whether the character separates words. -/
def isSeparator (c : Char) : Bool :=
  covers separatorRanges c.toNat

/-- Whether the character belongs to a word without being a Latin letter or a digit, as the letters
of other scripts do (`_MISC`). -/
def isOther (c : Char) : Bool :=
  !(isSeparator c || isDecimalDigit c || isCapital c || isSmall c)

theorem isOther_iff {c : Char} :
    isOther c = true ↔ isSeparator c = false ∧ isDecimalDigit c = false ∧ isCapital c = false ∧
      isSmall c = false := by
  simp [isOther, and_assoc]

/-- Whether the character is a straight or a curly apostrophe. -/
def isApostrophe (c : Char) : Bool :=
  c = '\x27' || c = '’'

end DirectiveLowering.Naming
