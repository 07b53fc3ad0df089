import DirectiveLowering.Naming.Casing
import DirectiveLowering.Naming.Html

/-!
# Name normalizers

A tag normalizer lower-cases element names of HTML and brings every other name into a casing. An
attribute normalizer brings names into a casing and may rename `class` afterwards.

Results:
* `normalizeTag_of_html`, `normalizeTag_of_not_html`: which of the two a tag normalizer does.
* `tagNormalizer_some`: a name that is there is always normalized.
-/

namespace DirectiveLowering.Naming

/-- Element name for a directive name (`tag_transform`). -/
def normalizeTag (casing : Casing) (name : String) : String :=
  if isHtmlName name then lowerName name else casing.apply name

/-- Output name for an attribute name; `renameClass` turns `class` into `className`
(`attribute_transform`). -/
def normalizeAttribute (casing : Casing) (renameClass : Bool) (name : String) : String :=
  let normalized := casing.apply name
  if renameClass && normalized == "class" then "className" else normalized

theorem normalizeTag_of_html {casing : Casing} {name : String} (h : isHtmlName name = true) :
    normalizeTag casing name = lowerName name := by
  simp [normalizeTag, h]

theorem normalizeTag_of_not_html {casing : Casing} {name : String} (h : isHtmlName name = false) :
    normalizeTag casing name = casing.apply name := by
  simp [normalizeTag, h]

/-! ## Names that may be absent -/

/-- Normalizes a tag that may be absent. -/
def tagNormalizer (casing : Casing) : Option String → Except Fault (Option String)
  | some name => .ok (some (normalizeTag casing name))
  | none => .error .lowerOfNull

/-- Normalizes an attribute name that may be absent. -/
def attributeNormalizer (casing : Casing) (renameClass : Bool) :
    Option String → Except Fault (Option String)
  | some name => .ok (some (normalizeAttribute casing renameClass name))
  | none => casing.tryApply none

theorem tagNormalizer_some (casing : Casing) (name : String) :
    tagNormalizer casing (some name) = .ok (some (normalizeTag casing name)) := rfl

end DirectiveLowering.Naming
