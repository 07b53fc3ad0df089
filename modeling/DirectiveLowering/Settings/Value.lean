import DirectiveLowering.Datum
import DirectiveLowering.Naming.Casing
import DirectiveLowering.Settings.WholeNumber

/-!
# Values of settings

How a raw value, which may come from a program or from a text file, is read as a truth value, a count
or a casing.
-/

namespace DirectiveLowering.Settings

open DirectiveLowering.Naming (Casing)

/-! ## Numbers -/

/-- The whole number that a decimal fraction is, if it is one. -/
def wholeDecimal? (mantissa : Int) (places : Nat) : Option Int :=
  if mantissa % Nat.pow 10 places = 0 then some (mantissa / Nat.pow 10 places) else none

/-- Whether a number fits into 64 bits. -/
def isWord (n : Int) : Bool :=
  -Int.pow 2 63 ≤ n && n < Int.pow 2 63

/-! ## Truth values -/

/-- Texts that mean false. -/
def falseTexts : List String := ["0", "off", "f", "false", "n", "no"]

/-- Texts that mean true. -/
def trueTexts : List String := ["1", "on", "t", "true", "y", "yes"]

/-- The truth value of a number: only zero and one have one, and a number that does not fit into 64
bits is not even of the right kind. -/
def boolOfInt (n : Int) : Except Cause Bool :=
  if n = 0 then .ok false
  else if n = 1 then .ok true
  else if isWord n then .error .notBool
  else .error .notBoolType

/-- Reads a truth value. -/
def readBool : Datum → Except Cause Bool
  | .bool b => .ok b
  | .int n => boolOfInt n
  | .decimal m p =>
    match wholeDecimal? m p with
    | some n => boolOfInt n
    | none => .error .notBoolType
  | .text s =>
    let small := s.map Char.toLower
    if falseTexts.contains small then .ok false
    else if trueTexts.contains small then .ok true
    else .error .notBool
  | _ => .error .notBoolType

/-! ## Counts -/

/-- Reads a whole number. -/
def readInt : Datum → Except Cause Int
  | .bool b => .ok (if b then 1 else 0)
  | .int n => .ok n
  | .decimal m p =>
    match wholeDecimal? m p with
    | some n => .ok n
    | none => .error .fractional
  | .text s => readWhole s.toList
  | _ => .error .notIntType

/-- Reads a whole number that is not negative. -/
def readCount (d : Datum) : Except Cause Int :=
  match readInt d with
  | .ok n => if n < 0 then .error .negative else .ok n
  | .error cause => .error cause

/-! ## Casings -/

/-- Reads a casing. -/
def readCasing : Datum → Except Cause Casing
  | .text s =>
    match Casing.ofName? s with
    | some casing => .ok casing
    | none => .error .notCasing
  | _ => .error .notCasing

end DirectiveLowering.Settings
