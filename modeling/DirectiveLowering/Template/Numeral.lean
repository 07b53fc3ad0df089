import DirectiveLowering.Template.Layout

/-!
# Texts of numbers

A number is written in the base of a code, or rounded to the nearest double and then written with a
point, with an exponent, in the shorter of these two ways, or as percents. Digits before the point
may be grouped, and zeros that fill a width are grouped with them.

Results:
* `grouped_of_le`: a single group has no separator.
* `nearestDouble_of_lt`: a number of at most 53 bits is a double itself.
-/

namespace DirectiveLowering.Template

/-! ## Rounding -/

/-- The whole number nearest to a quotient, the even one of two. -/
def roundDiv (n d : Nat) : Nat :=
  let q := n / d
  let twice := 2 * (n % d)
  if twice < d then q else if d < twice then q + 1 else q + q % 2

theorem roundDiv_one (n : Nat) : roundDiv n 1 = n := by
  simp [roundDiv, Nat.mod_one]

/-- The double nearest to a whole number, unless that is beyond all doubles. -/
def nearestDouble (n : Nat) : Option Nat :=
  let unit := Nat.pow 2 (n.log2 - 52)
  let rounded := roundDiv n unit * unit
  if rounded.log2 < 1024 then some rounded else none

theorem nearestDouble_of_lt {n : Nat} (h : n < Nat.pow 2 53) : nearestDouble n = some n := by
  have hlog : n.log2 < 53 := by
    by_cases h0 : n = 0
    · simp [h0]
    · exact (Nat.log2_lt h0).2 h
  have hunit : n.log2 - 52 = 0 := by omega
  have hbound : n.log2 < 1024 := by omega
  simp [nearestDouble, hunit, roundDiv_one, hbound]

/-! ## Numerals -/

/-- The parts of the text of a number. -/
structure Numeral where
  negative : Bool := false
  /-- What stands between the sign and the digits. -/
  base : List Char := []
  /-- The digits that may be grouped. -/
  digits : List Char := []
  /-- What stands behind them. -/
  tail : List Char := []
deriving DecidableEq, Repr

/-- Digits with a separator between groups, which are counted from the end. -/
def grouped (separator : Char) (size : Nat) : List Char → List Char
  | [] => []
  | [c] => [c]
  | c :: d :: rest =>
    if (d :: rest).length % size = 0 then c :: separator :: grouped separator size (d :: rest)
    else c :: grouped separator size (d :: rest)

theorem grouped_of_le {separator : Char} {size : Nat} {s : List Char} (h : s.length ≤ size) :
    grouped separator size s = s := by
  induction s with
  | nil => rfl
  | cons c rest ih =>
    cases rest with
    | nil => rfl
    | cons d rest =>
      have hlt : (d :: rest).length < size := h
      have hne : (d :: rest).length % size ≠ 0 := by
        rw [Nat.mod_eq_of_lt hlt]
        simp
      rw [grouped, if_neg hne, ih (Nat.le_of_lt hlt)]

/-- Digits with zeros in front, as many as are needed for a width. -/
def zeroFilled (width : Nat) (s : List Char) : List Char :=
  List.replicate (width - s.length) '0' ++ s

/-- Least number of digits that take up a width when they are grouped. -/
def digitsForWidth (size width : Nat) : Nat :=
  width * size / (size + 1) + 1

/-- The sign that a layout shows. -/
def Layout.shownSign (l : Layout) (negative : Bool) : List Char :=
  if negative then ['-']
  else match l.sign with
    | some '+' => ['+']
    | some ' ' => [' ']
    | _ => []

/-- The text of a number in a layout. -/
def Layout.number (l : Layout) (n : Numeral) : List Char :=
  let lead := l.shownSign n.negative ++ n.base
  let width :=
    if l.fill = '0' && l.align = .split then l.width - (lead.length + n.tail.length) else 0
  let size := if "boxX".contains l.code then 4 else 3
  let digits :=
    match n.digits, l.separator with
    | [], _ => []
    | digits, none => zeroFilled width digits
    | digits, some separator =>
      grouped separator size (zeroFilled (if width = 0 then 0 else digitsForWidth size width) digits)
  l.pad lead (digits ++ n.tail)

/-! ## Whole numbers -/

/-- Digits of a number in the base of a code, and what marks the alternate form. -/
def digitsOf (code : Char) (n : Nat) : List Char × List Char :=
  match code with
  | 'b' => (Nat.toDigits 2 n, ['0', 'b'])
  | 'o' => (Nat.toDigits 8 n, ['0', 'o'])
  | 'x' => (Nat.toDigits 16 n, ['0', 'x'])
  | 'X' => ((Nat.toDigits 16 n).map Char.toUpper, ['0', 'X'])
  | _ => (Nat.toDigits 10 n, [])

/-- The character of a number, in a layout. -/
def Layout.character (l : Layout) (n : Int) : Except Problem (List Char) :=
  if l.sign.isSome then .error .signOnCharacter
  else if l.alternate then .error .alternateOnCharacter
  else if n < -Int.pow 2 63 || Int.pow 2 63 ≤ n then .error .beyondWord
  else if n < 0 || 0x10ffff < n then .error .noCharacter
  else .ok (l.number { tail := [Char.ofNat n.toNat] })

/-- A whole number in a layout of whole numbers. -/
def Layout.whole (l : Layout) (n : Int) : Except Problem (List Char) :=
  if l.precision.isSome then .error .precisionOnWhole
  else if l.positiveZero then .error .positiveZeroOnWhole
  else if l.code = 'c' then l.character n
  else
    let (digits, mark) := digitsOf l.code n.natAbs
    .ok (l.number { negative := n < 0, base := if l.alternate then mark else [], digits })

/-! ## Doubles -/

/-- The point and what follows it; the alternate form keeps a point that nothing follows. -/
def fraction (alternate : Bool) (s : List Char) : List Char :=
  if s.isEmpty && !alternate then [] else '.' :: s

/-- An exponent, of two digits at least. -/
def exponent (mark : Char) (e : Nat) : List Char :=
  mark :: '+' :: zeroFilled 2 (Nat.toDigits 10 e)

/-- The first digits of a number, rounded to one and so many more, and their exponent. -/
def leadingDigits (places n : Nat) : List Char × Nat :=
  let digits := Nat.toDigits 10 n
  let e := digits.length - 1
  if e ≤ places then (digits ++ List.replicate (places - e) '0', e)
  else
    let rounded := Nat.toDigits 10 (roundDiv n (Nat.pow 10 (e - places)))
    if rounded.length = places + 1 then (rounded, e) else (rounded.take (places + 1), e + 1)

/-- A number with a point and so many digits behind it. -/
def positional (alternate : Bool) (places n : Nat) : Numeral :=
  { digits := Nat.toDigits 10 n, tail := fraction alternate (List.replicate places '0') }

/-- The first digit, the point, some digits and the exponent. -/
def scientific (alternate : Bool) (mark : Char) (s : List Char) (e : Nat) : Numeral :=
  { digits := s.take 1, tail := fraction alternate (s.drop 1) ++ exponent mark e }

/-- A number by so many digits: with a point if they reach so far, and otherwise with an exponent.
Zeros at the end of the fraction are left out, but for the alternate form. -/
def general (alternate : Bool) (mark : Char) (count n : Nat) : Numeral :=
  let (digits, e) := leadingDigits (count - 1) n
  let kept := fun (s : List Char) =>
    if alternate then s else (s.reverse.dropWhile (· == '0')).reverse
  if e < count then
    { digits := digits.take (e + 1), tail := fraction alternate (kept (digits.drop (e + 1))) }
  else scientific alternate mark (digits.take 1 ++ kept (digits.drop 1)) e

/-- A double, which is a whole number, in a code of doubles. -/
def numeralOf (alternate : Bool) (places : Nat) (code : Char) (n : Nat) : Numeral :=
  match code with
  | 'e' | 'E' =>
    let (digits, e) := leadingDigits places n
    scientific alternate code digits e
  | 'g' => general alternate 'e' (max places 1) n
  | 'G' => general alternate 'E' (max places 1) n
  | '%' =>
    let n := match nearestDouble (100 * n) with
      | some n => positional alternate places n
      | none => { tail := ['i', 'n', 'f'] }
    { n with tail := n.tail ++ ['%'] }
  | _ => positional alternate places n

/-- A whole number in a layout of doubles. -/
def Layout.double (l : Layout) (n : Int) : Except Problem (List Char) :=
  match nearestDouble n.natAbs with
  | none => .error .beyondDouble
  | some m =>
    let places := l.precision.getD 6
    if Nat.pow 2 31 ≤ places then .error .oversizedPrecision
    else .ok (l.number { numeralOf l.alternate places l.code m with negative := n < 0 })

end DirectiveLowering.Template
