/-!
# Problems of settings

What can be wrong with the value of a setting, or with its name, and the short and the long wording of
each cause.
-/

namespace DirectiveLowering.Settings

/-- What is wrong. -/
inductive Cause
  /-- A text or number that is no truth value. -/
  | notBool
  /-- Something that could never be a truth value. -/
  | notBoolType
  /-- A text that is no whole number. -/
  | notInt
  /-- A text that spells a whole number with too many digits. -/
  | oversized
  /-- A number with a fractional part. -/
  | fractional
  /-- Something that could never be a whole number. -/
  | notIntType
  /-- A negative number where none is allowed. -/
  | negative
  /-- Not the name of a casing. -/
  | notCasing
  /-- A name that no setting has. -/
  | stranger
deriving DecidableEq, Repr

/-- Short wording of a cause. -/
def Cause.kind : Cause → String
  | notBool => "bool_parsing"
  | notBoolType => "bool_type"
  | notInt => "int_parsing"
  | oversized => "int_parsing_size"
  | fractional => "int_from_float"
  | notIntType => "int_type"
  | negative => "greater_than_equal"
  | notCasing => "enum"
  | stranger => "extra_forbidden"

/-- Long wording of a cause. -/
def Cause.message : Cause → String
  | notBool => "Input should be a valid boolean, unable to interpret input"
  | notBoolType => "Input should be a valid boolean"
  | notInt => "Input should be a valid integer, unable to parse string as an integer"
  | oversized => "Unable to parse input string as an integer, exceeded maximum size"
  | fractional => "Input should be a valid integer, got a number with a fractional part"
  | notIntType => "Input should be a valid integer"
  | negative => "Input should be greater than or equal to 0"
  | notCasing => "Input should be 'camel', 'pascal', 'kebab', 'snake' or 'none'"
  | stranger => "Extra inputs are not permitted"

/-- A problem and the name of the setting that has it. -/
structure Problem where
  name : String
  cause : Cause
deriving DecidableEq, Repr

end DirectiveLowering.Settings
