import DirectiveLowering.Text.Quoted

/-!
# Data that is carried through

Positions, metadata of other passes and raw setting values are trees of plain data that the library
looks at only to tell whether a value counts as true, or to show it in a message.
-/

namespace DirectiveLowering

/-- Plain data: numbers are whole or decimal fractions, `decimal m p` being `m` over ten to the
power `p`. -/
inductive Datum
  | null
  | bool (value : Bool)
  | int (value : Int)
  | decimal (mantissa : Int) (places : Nat)
  | text (value : String)
  | list (items : List Datum)
  | object (fields : List (String × Datum))
deriving Inhabited, Repr

namespace Datum

/-- Whether the value counts as true: all do but null, false, zero and what is empty. -/
def truthy : Datum → Bool
  | null => false
  | bool value => value
  | int value => value ≠ 0
  | decimal mantissa _ => mantissa ≠ 0
  | text value => value ≠ ""
  | list items => !items.isEmpty
  | object fields => !fields.isEmpty

/-! ## Data in messages -/

/-- What messages call the kind of a value. -/
def kind : Datum → String
  | null => "NoneType"
  | bool _ => "bool"
  | int _ => "int"
  | decimal _ _ => "float"
  | text _ => "str"
  | list _ => "list"
  | object _ => "dict"

/-- How a decimal fraction is shown. -/
def shownDecimal (mantissa : Int) (places : Nat) : String :=
  let digits := Nat.toDigits 10 mantissa.natAbs
  let digits := List.replicate (places + 1 - digits.length) '0' ++ digits
  let (whole, fraction) := digits.splitAt (digits.length - places)
  (if mantissa < 0 then "-" else "") ++ String.ofList whole ++ "." ++ String.ofList fraction

mutual

/-- How a value is shown where texts are quoted. -/
def quoted : Datum → String
  | null => "None"
  | bool true => "True"
  | bool false => "False"
  | int value => toString value
  | decimal mantissa places => shownDecimal mantissa places
  | text value => Text.quoted value
  | list items => "[" ++ ", ".intercalate (quotedItems items) ++ "]"
  | object fields => "\x7b" ++ ", ".intercalate (quotedFields fields) ++ "\x7d"

/-- How the elements of a list are shown. -/
def quotedItems : List Datum → List String
  | [] => []
  | item :: rest => quoted item :: quotedItems rest

/-- How the entries of an object are shown. -/
def quotedFields : List (String × Datum) → List String
  | [] => []
  | (name, value) :: rest => (Text.quoted name ++ ": " ++ quoted value) :: quotedFields rest

end

/-- How a value is shown where texts are not quoted. -/
def shown : Datum → String
  | text value => value
  | value => value.quoted

end Datum

end DirectiveLowering
