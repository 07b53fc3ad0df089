import DirectiveLowering.Lowering.Stats
import DirectiveLowering.Fault
import DirectiveLowering.Naming.Casing

/-!
# Notices

What the library reports while it works: each notice is one call of `LOG`. A notice has a level; it is
written to the log only when the verbosity in force is at least that level.
-/

namespace DirectiveLowering

open DirectiveLowering.Naming (Casing)

/-- Something worth reporting. -/
inductive Notice
  /-- A processor starts on so many transformers. -/
  | running (transformers : Nat)
  /-- A pass starts. -/
  | started
  /-- A pass has ended. -/
  | finished (stats : Stats)
  /-- A directive was left alone because another pass had lowered it. -/
  | skipped (name : Option String) (hName : String)
  /-- A directive was rejected by the filter. -/
  | rejected (name : Option String)
  /-- A directive of a type and name becomes an element of a type and name. -/
  | lowered (type : String) (name : Option String) (elementType : String)
      (elementName : Option String)
  /-- A tag normalizer was made. -/
  | tagNormalizer (casing : Casing)
  /-- An attribute normalizer was made. -/
  | attributeNormalizer (casing : Casing) (renameClass : Datum)
  /-- A message of the caller's own. -/
  | custom (message : String) (level : Int)
deriving Repr

namespace Notice

/-- Least verbosity at which the notice is written. -/
def level : Notice → Int
  | running _ => 2
  | started => 2
  | finished _ => 2
  | skipped _ _ => 3
  | rejected _ => 3
  | lowered _ _ _ _ => 3
  | tagNormalizer _ => 3
  | attributeNormalizer _ _ => 3
  | custom _ level => level

/-- Wording of a notice. -/
def text : Notice → String
  | running transformers => "Running " ++ toString transformers ++ " transformer(s)"
  | started => "Transforming directives..."
  | finished stats => stats.summary
  | skipped name hName =>
    "Skipping lowered directive '" ++ shownName name ++ "' (hName=" ++ hName ++ ")"
  | rejected name => "Filtered out directive '" ++ shownName name ++ "'"
  | lowered type name elementType elementName =>
    type ++ " '" ++ shownName name ++ "' -> " ++ elementType ++ " '" ++ shownName elementName ++ "'"
  | tagNormalizer casing => "Tag normalizer: " ++ casing.name
  | attributeNormalizer casing renameClass =>
    "Attribute normalizer: " ++ casing.name ++ " (className=" ++ renameClass.shown ++ ")"
  | custom message _ => message

end Notice

end DirectiveLowering
