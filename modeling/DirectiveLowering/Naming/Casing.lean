import DirectiveLowering.Fault
import DirectiveLowering.Naming.Words
import DirectiveLowering.Text.Lower
import DirectiveLowering.Text.Upper

/-!
# Casings

The naming conventions a name can be brought into, each built from the words of the name.

Results:
* `Casing.ofName?_name`: a casing is found under its own name.
-/

namespace DirectiveLowering.Naming

open DirectiveLowering.Text (lower upperChar)

/-- A naming convention (`Casing`). -/
inductive Casing
  | camel
  | pascal
  | kebab
  | snake
  /-- Names stay as they are. -/
  | unchanged
deriving DecidableEq, Repr

namespace Casing

/-- Every casing, in the order in which messages list them. -/
def all : List Casing := [camel, pascal, kebab, snake, unchanged]

/-- Name of a casing in settings and messages. -/
def name : Casing → String
  | camel => "camel"
  | pascal => "pascal"
  | kebab => "kebab"
  | snake => "snake"
  | unchanged => "none"

/-- The casing of a name, which must be spelt exactly. -/
def ofName? (s : String) : Option Casing :=
  all.find? (·.name == s)

/-- The casing that a value names, or the fault of asking for an unknown one, as `caseNormalizer_get`
raises it. -/
def ofDatum (d : Datum) : Except Fault Casing :=
  let named := match d with
    | .text s => ofName? s
    | _ => none
  match named with
  | some casing => .ok casing
  | none => .error (.unknownCasing d)

theorem ofName?_name (casing : Casing) : ofName? casing.name = some casing := by
  cases casing <;> rfl

end Casing

/-! ## Conventions -/

/-- The text with its first character in upper case (`upperFirst`). -/
def upperFirst : List Char → List Char
  | [] => []
  | c :: rest => upperChar c ++ rest

/-- Words glued together, all but the first with a capital (`camel_case`). -/
def camelCase (s : List Char) : List Char :=
  match words s with
  | [] => []
  | first :: others => lower first ++ others.flatMap fun word => upperFirst (lower word)

/-- Words glued together, each with a capital (`pascal_case`). -/
def pascalCase (s : List Char) : List Char :=
  upperFirst (camelCase s)

/-- Lower-case words joined by a character. -/
def joinedCase (joint : Char) (s : List Char) : List Char :=
  lower ([joint].intercalate (words s))

/-- Lower-case words joined by hyphens (`kebab_case`). -/
def kebabCase (s : List Char) : List Char :=
  joinedCase '-' s

/-- Lower-case words joined by low lines (`snake_case`). -/
def snakeCase (s : List Char) : List Char :=
  joinedCase '_' s

/-- The name brought into a casing (`CASE_NORMALIZERS`); the last one is `none_case`. -/
def Casing.chars : Casing → List Char → List Char
  | .camel, s => camelCase s
  | .pascal, s => pascalCase s
  | .kebab, s => kebabCase s
  | .snake, s => snakeCase s
  | .unchanged, s => s

/-- The name brought into a casing. -/
def Casing.apply (casing : Casing) (name : String) : String :=
  String.ofList (casing.chars name.toList)

/-- A name that may be absent brought into a casing; only the casing that changes nothing accepts
an absent one. -/
def Casing.tryApply (casing : Casing) : Option String → Except Fault (Option String)
  | some name => .ok (some (casing.apply name))
  | none => if casing = .unchanged then .ok none else .error .wordsOfNull

end DirectiveLowering.Naming
