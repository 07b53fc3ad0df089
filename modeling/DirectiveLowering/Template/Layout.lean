import DirectiveLowering.Template.Problem
import DirectiveLowering.Text.Digit

/-!
# Layouts

A layout says how wide a value is to be, where it stands in that width and what fills the rest, and
how its text is made:

    [[fill]align][sign][z][#][0][width][separator][.precision][code]

Results:
* `length_pad`: a padded text has the width asked for, or its own if that is larger.
-/

namespace DirectiveLowering.Template

open DirectiveLowering.Text (isDecimalDigit digitsValue)

/-- Where a value stands in its width. -/
inductive Alignment
  | left
  | right
  | centre
  /-- At the right end, its sign at the left one. -/
  | split
deriving DecidableEq, Repr

/-- The alignment of a character. -/
def Alignment.ofChar? : Char → Option Alignment
  | '<' => some left
  | '>' => some right
  | '^' => some centre
  | '=' => some split
  | _ => none

/-- What is asked of the text of a value. -/
structure Layout where
  fill : Char := ' '
  align : Alignment
  sign : Option Char := none
  /-- No minus sign before a zero. -/
  positiveZero : Bool := false
  /-- The alternate form of the code. -/
  alternate : Bool := false
  width : Nat := 0
  separator : Option Char := none
  precision : Option Nat := none
  code : Char
deriving DecidableEq, Repr

/-! ## Reading -/

/-- Largest number that a template may hold. -/
def maxNumber : Nat := Nat.pow 2 63 - 1

/-- The number that the digits at the start of a text spell, if there are any, and the text behind
them. -/
def readNumber (s : List Char) : Except Problem (Option Nat × List Char) :=
  match s.takeWhile isDecimalDigit with
  | [] => .ok (none, s)
  | digits =>
    if maxNumber < digitsValue digits then .error .oversizedNumber
    else .ok (some (digitsValue digits), s.dropWhile isDecimalDigit)

/-- Whether a character is at the start of a text, and the text behind it. -/
def readFlag (c : Char) : List Char → Bool × List Char
  | d :: rest => if d = c then (true, rest) else (false, d :: rest)
  | [] => (false, [])

/-- The sign at the start of a text. -/
def readSign : List Char → Option Char × List Char
  | c :: rest => if c = '+' || c = '-' || c = ' ' then (some c, rest) else (none, c :: rest)
  | [] => (none, [])

/-- The fill character and the alignment at the start of a text. -/
def readAlign : List Char → (Option Char × Option Alignment) × List Char
  | c :: d :: rest =>
    match Alignment.ofChar? d, Alignment.ofChar? c with
    | some align, _ => ((some c, some align), rest)
    | none, some align => ((none, some align), d :: rest)
    | none, none => ((none, none), c :: d :: rest)
  | [c] =>
    match Alignment.ofChar? c with
    | some align => ((none, some align), [])
    | none => ((none, none), [c])
  | [] => ((none, none), [])

/-- The separator at the start of a text; two different ones are a fault. -/
def readSeparator (s : List Char) : Except Problem (Option Char × List Char) :=
  match s with
  | ',' :: '_' :: _ => .error .bothSeparators
  | '_' :: ',' :: _ => .error .bothSeparators
  | ',' :: rest => .ok (some ',', rest)
  | '_' :: rest => .ok (some '_', rest)
  | rest => .ok (none, rest)

/-- The precision at the start of a text. -/
def readPrecision : List Char → Except Problem (Option Nat × List Char)
  | '.' :: rest => do
    match ← readNumber rest with
    | (none, _) => .error .missingPrecision
    | precision => .ok precision
  | rest => .ok (none, rest)

/-- Whether digits that a code makes may be separated by a character. -/
def mayGroup (separator code : Char) : Bool :=
  "defgEFG%".contains code || (separator = '_' && "boxX".contains code)

/-- Reads a layout of values of a kind, which go to one side and have a code of their own where the
layout does not say so. Values that go to the right are filled with zeros behind their sign. -/
def Layout.read (kind : String) (side : Alignment) (ownCode : Char) (s : List Char) :
    Except Problem Layout := do
  let ((fill, align), rest) := readAlign s
  let (sign, rest) := readSign rest
  let (positiveZero, rest) := readFlag 'z' rest
  let (alternate, rest) := readFlag '#' rest
  let (zeros, rest) := if fill.isNone then readFlag '0' rest else (false, rest)
  let (width, rest) ← readNumber rest
  let (separator, rest) ← readSeparator rest
  let (precision, rest) ← readPrecision rest
  let code ←
    match rest with
    | [] => .ok ownCode
    | [code] => .ok code
    | _ => .error (.overlongLayout (String.ofList s) kind)
  match separator with
  | some separator => if !mayGroup separator code then .error (.straySeparator separator code)
  | none => pure ()
  let zeroAlign := if zeros && side = .right then .split else side
  return {
    fill := fill.getD (if zeros then '0' else ' ')
    align := align.getD zeroAlign
    sign, positiveZero, alternate
    width := width.getD 0
    separator, precision, code }

/-! ## Padding -/

/-- A text in its width; `lead` stands before the padding where the alignment splits the two. -/
def Layout.pad (l : Layout) (lead s : List Char) : List Char :=
  let missing := l.width - (lead.length + s.length)
  match l.align with
  | .left => lead ++ s ++ List.replicate missing l.fill
  | .right => List.replicate missing l.fill ++ lead ++ s
  | .centre =>
    List.replicate (missing / 2) l.fill ++ lead ++ s ++
      List.replicate (missing - missing / 2) l.fill
  | .split => lead ++ List.replicate missing l.fill ++ s

theorem length_pad (l : Layout) (lead s : List Char) :
    (l.pad lead s).length = max l.width (lead.length + s.length) := by
  unfold Layout.pad
  cases l.align <;> simp only [List.length_append, List.length_replicate] <;> omega

end DirectiveLowering.Template
