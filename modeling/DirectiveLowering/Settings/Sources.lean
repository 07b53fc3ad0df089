import DirectiveLowering.Settings.Expansion
import DirectiveLowering.Settings.Value
import DirectiveLowering.Naming.Html

/-!
# Sources of settings

The settings of an application come from the arguments of a call, the environment and a settings file,
in this order of precedence, setting by setting. Arguments go by the name of a setting, the other
two by the name behind `directive_mdx_`, in whatever case; of arguments for one setting the one with
the exact name counts.

A setting keeps its default where no source supplies it. Otherwise the value from the first source
that does has to be valid. Names that no setting has are refused among the arguments and in the file;
in the file, only if they are bound to a text and are not the bare name of a setting.

`AppSettings` declares the settings, their types, defaults and bound, and the prefix. How the sources are
read and merged, and what is told of values that are refused, is not its own doing: there the definitions
of this folder stand in for the libraries that settings are built with, and no theorem rests on them.
-/

namespace DirectiveLowering

open DirectiveLowering.Naming (Casing)

/-- Settings of an application (`AppSettings`). -/
structure Settings where
  /-- Leave directives alone that another pass has lowered. -/
  skipTransformed : Bool := true
  /-- Normalize the names of elements and attributes. -/
  normalizeNames : Bool := false
  /-- Casing of element names, where names are normalized. -/
  tagCasing : Casing := .pascal
  /-- Casing of attribute names, where names are normalized. -/
  attributeCasing : Casing := .camel
  /-- Rename `class` to `className`, where names are normalized. -/
  className : Bool := false
  /-- Append labels as fragments instead of dropping them. -/
  labelSlot : Bool := false
  /-- Verbosity of a processor that is given none. -/
  verbosity : Int := 1
deriving DecidableEq, Repr

namespace Settings

/-! ## Names -/

/-- The settings there are. -/
inductive Setting
  | skipTransformed
  | normalizeNames
  | tagCasing
  | attributeCasing
  | className
  | labelSlot
  | verbosity
deriving DecidableEq, Repr

namespace Setting

/-- Every setting, in the order in which problems are listed. -/
def all : List Setting :=
  [skipTransformed, normalizeNames, tagCasing, attributeCasing, className, labelSlot, verbosity]

/-- Name of a setting. -/
def name : Setting → String
  | skipTransformed => "skip_transformed"
  | normalizeNames => "normalize_names"
  | tagCasing => "tag_casing"
  | attributeCasing => "attribute_casing"
  | className => "class_name"
  | labelSlot => "label_slot"
  | verbosity => "verbosity"

/-- Lower-case name of the variable that holds a setting. -/
def variableName (s : Setting) : String :=
  "directive_mdx_" ++ s.name

end Setting

/-! ## Sources -/

/-- Where settings come from. -/
structure Sources where
  arguments : List (String × Datum) := []
  environment : List (String × String) := []
  file : Option String := none

namespace Sources

/-- Names of the settings file in lower case, with their texts; of names that differ in case alone
the last one counts. -/
def fileTexts (s : Sources) : List (String × Option String) :=
  match s.file with
  | none => []
  | some text =>
    (fileEntries s.environment text).foldl
      (fun entries (name, value) => put entries (Naming.lowerName name) value) []

/-- The text of an environment variable by its lower-case name; of variables that differ in case
alone the last one counts. -/
def environmentText (s : Sources) (lowered : String) : Option String :=
  (s.environment.reverse.find? fun (name, _) => Naming.lowerName name == lowered).map (·.2)

/-- The argument for a setting: the one of its exact name, or else the first whose name differs from
it in case alone. -/
def argument (s : Sources) (setting : Setting) : Option Datum :=
  s.arguments.lookup setting.name
    <|> (s.arguments.find? fun (name, _) => Naming.lowerName name == setting.name).map (·.2)

/-- The value of a setting from the first source that supplies it. -/
def lookup (s : Sources) (setting : Setting) : Option Datum :=
  s.argument setting
    <|> (s.environmentText setting.variableName).map .text
    <|> (s.fileTexts.lookup setting.variableName).join.map .text

/-- Whether a name of a settings file is refused: it is bound to a text that is not empty, and is
neither the variable nor the bare name of a setting. -/
def refusesFileName (name : String) (value : Option String) : Bool :=
  value.any (· ≠ "") && Setting.all.all fun setting => name ≠ setting.variableName && name ≠ setting.name

/-- Whether the name of an argument is refused: it is not the name of a setting, in whatever case. -/
def refusesArgument (name : String) : Bool :=
  Setting.all.all fun setting => Naming.lowerName name ≠ setting.name

/-- Names of the settings file that are refused, in its order. -/
def fileStrangers (s : Sources) : List String :=
  (s.fileTexts.filter fun (name, value) => refusesFileName name value).map (·.1)

/-- Names that are refused: first those of the settings file, then those that only arguments have, in
alphabetical order. -/
def strangers (s : Sources) : List String :=
  s.fileStrangers ++
    ((s.arguments.map (·.1)).filter fun name =>
      refusesArgument name && !s.fileStrangers.contains name).mergeSort fun a b => a ≤ b

/-- The value of a setting, read in the way of its type. -/
def read {α : Type} (s : Sources) (setting : Setting) (reader : Datum → Except Cause α)
    (default : α) : Except Problem α :=
  match s.lookup setting with
  | none => .ok default
  | some value =>
    match reader value with
    | .ok a => .ok a
    | .error cause => .error ⟨setting.name, cause⟩

/-- The problem of a reading, if it has one. -/
def problem? {α : Type} : Except Problem α → List Problem
  | .ok _ => []
  | .error problem => [problem]

/-- The settings that the sources give, or everything that is wrong with them: a problem for each
setting with an invalid value, in the order of the settings, then one for each name refused. -/
def load (s : Sources) : Except (List Problem) Settings :=
  let skipTransformed := s.read .skipTransformed readBool true
  let normalizeNames := s.read .normalizeNames readBool false
  let tagCasing := s.read .tagCasing readCasing .pascal
  let attributeCasing := s.read .attributeCasing readCasing .camel
  let className := s.read .className readBool false
  let labelSlot := s.read .labelSlot readBool false
  let verbosity := s.read .verbosity readCount 1
  match skipTransformed, normalizeNames, tagCasing, attributeCasing, className, labelSlot,
    verbosity, s.strangers with
  | .ok a, .ok b, .ok c, .ok d, .ok e, .ok f, .ok g, [] => .ok ⟨a, b, c, d, e, f, g⟩
  | _, _, _, _, _, _, _, strangers =>
    .error <|
      problem? skipTransformed ++ problem? normalizeNames ++ problem? tagCasing ++
        problem? attributeCasing ++ problem? className ++ problem? labelSlot ++
        problem? verbosity ++ strangers.map (⟨·, .stranger⟩)

end Sources

end Settings

end DirectiveLowering
