import DirectiveLowering.Text.CodeRange

/-!
# White space

The characters that separate words of running text: the separators of category `Zs`, the line and
paragraph separators, the control characters with a bidirectional class of white space, and the
four information separators `0x1c` to `0x1f`.

Results:
* `isBlank_of_isWhitespace`: every ASCII white-space character is one.
-/

namespace DirectiveLowering.Text

/-- Code points of white space. -/
def blankRanges : List (Nat × Nat) := [
  (0x9, 0xd), (0x1c, 0x20), (0x85, 0x85), (0xa0, 0xa0), (0x1680, 0x1680), (0x2000, 0x200a),
  (0x2028, 0x2029), (0x202f, 0x202f), (0x205f, 0x205f), (0x3000, 0x3000)]

/-- Whether the character is white space. -/
def isBlank (c : Char) : Bool :=
  covers blankRanges c.toNat

/-- White space that stays on the line. -/
def isInlineBlank (c : Char) : Bool :=
  isBlank c && c != '\n' && c != '\r'

/-- White space other than the information separators: the characters with the property
`White_Space`. -/
def isSpace (c : Char) : Bool :=
  isBlank c && !(0x1c ≤ c.toNat && c.toNat ≤ 0x1f)

theorem isBlank_of_isWhitespace {c : Char} (h : c.isWhitespace = true) : isBlank c = true := by
  simp only [Char.isWhitespace, Bool.or_eq_true, decide_eq_true_eq] at h
  rcases h with ((rfl | rfl) | rfl) | rfl <;> decide

/-! ## Trimming -/

/-- The text without the characters of a class at its end. -/
def trimRight (p : Char → Bool) (s : List Char) : List Char :=
  (s.reverse.dropWhile p).reverse

/-- The text without the characters of a class at either end. -/
def trim (p : Char → Bool) (s : List Char) : List Char :=
  trimRight p (s.dropWhile p)

end DirectiveLowering.Text
