import DirectiveLowering.Settings.Problem
import DirectiveLowering.Text.Blank
import DirectiveLowering.Text.Digit

/-!
# Whole numbers in settings

A setting may spell a whole number in more ways than one. The plain form is digits without leading
zeros behind an optional minus sign. A text in another form is tidied first: white space around it,
a plus sign, leading zeros, a fraction of zeros and single low lines between digits are taken out.
What is still no number then is no number at all, whatever keeps it from being one.
-/

namespace DirectiveLowering.Settings

open DirectiveLowering.Text (digitsValue)

/-- Number of digits, a minus sign counted as one, beyond which a number is too large. -/
def maxDigits : Nat := 4300

/-- Whether the character is a digit other than zero. -/
def isLeadingDigit (c : Char) : Bool :=
  c.isDigit && c != '0'

/-- Reads digits without leading zeros, of which there may be so many. -/
def readPlainDigits (most : Nat) : List Char → Except Cause Nat
  | ['0'] => .ok 0
  | s =>
    let digits := s.takeWhile Char.isDigit
    if s.head?.any isLeadingDigit then
      if most < digits.length then .error .oversized
      else if digits.length = s.length then .ok (digitsValue digits)
      else .error .notInt
    else .error .notInt

/-- Reads a number in the plain form. -/
def readPlain : List Char → Except Cause Int
  | '-' :: s => (readPlainDigits (maxDigits - 1) s).map fun n => -Int.ofNat n
  | s => (readPlainDigits maxDigits s).map Int.ofNat

/-! ## Tidying -/

/-- The text behind leading zeros, which low lines may follow; `last` is the character before it.
The last zero stays where nothing or a point is behind it, and a minus sign ends the zeros too. -/
def dropZerosAfter (last : Char) : List Char → Option (List Char)
  | [] => some [last]
  | c :: rest =>
    if c = '0' || c = '_' then dropZerosAfter c rest
    else if c = '-' || isLeadingDigit c then some (c :: rest)
    else if c = '.' then some (last :: c :: rest)
    else none

/-- The text without leading zeros, if it starts with a digit. -/
def dropZeros : List Char → Option (List Char)
  | [] => none
  | c :: rest =>
    if c = '0' then dropZerosAfter c rest
    else if isLeadingDigit c then some (c :: rest)
    else none

/-- The text without a point and zeros behind it, if it ends so. -/
def dropZeroFraction (s : List Char) : List Char :=
  match s.reverse.takeWhile (· == '0'), s.reverse.dropWhile (· == '0') with
  | _ :: _, '.' :: whole => whole.reverse
  | _, _ => s

/-- Whether every low line stands alone between other characters. -/
def hasSingleLines (s : List Char) : Bool :=
  s.head? != some '_' && s.getLast? != some '_' && !(List.zip s s.tail).contains ('_', '_')

/-- The text without low lines, if each of them stands alone between other characters. -/
def dropLines (s : List Char) : List Char :=
  if hasSingleLines s then s.filter (· != '_') else s

/-- The digits of a number without what is to be taken out of them. -/
def tidyDigits (s : List Char) : Option (List Char) :=
  (dropZeros s).map fun s => dropLines (dropZeroFraction s)

/-- The text of a number without what is to be taken out of it, if it starts like a number. -/
def tidy (s : List Char) : Option (List Char) :=
  match Text.trim Text.isSpace s with
  | '+' :: rest => tidyDigits rest
  | '-' :: rest => (tidyDigits rest).map ('-' :: ·)
  | rest => tidyDigits rest

/-- Reads a number that has to be tidied. -/
def readUntidy (s : List Char) : Except Cause Int :=
  match (tidy s).map readPlain with
  | some (.ok n) => .ok n
  | _ => .error .notInt

/-- Reads a whole number, tidied if it is not in the plain form. -/
def readWhole (s : List Char) : Except Cause Int :=
  match readPlain s with
  | .error .notInt => readUntidy s
  | result => result

end DirectiveLowering.Settings
