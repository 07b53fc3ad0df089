import DirectiveLowering.Lowering.Notice
import DirectiveLowering.Lowering.Options
import DirectiveLowering.Naming.Normalizer
import DirectiveLowering.Settings.Sources

/-!
# Making hooks

Hooks are made before a pass. Making a normalizer may fail, for a casing that does not exist, and is
reported.

Results:
* `Making.tagNormalizer_name`: a casing that exists always gives a normalizer, and one notice.
* `Making.optionsOfSettings_ok`: settings always give options.
-/

namespace DirectiveLowering

open DirectiveLowering.Naming (Casing)

/-! ## Normalizers -/

/-- Making something that may fail and reports what it makes. -/
abbrev Making := EStateM Fault (Array Notice)

namespace Making

/-- Reports something. -/
def note (n : Notice) : Making Unit :=
  modify (·.push n)

/-- The casing that a value names, as `caseNormalizer_get` looks it up. -/
def casing (name : Datum) : Making Casing :=
  match Casing.ofDatum name with
  | .ok casing => return casing
  | .error fault => throw fault

/-- A tag normalizer, for the name of a casing (`tag_normalize`). -/
def tagNormalizer (casingName : Datum) :
    Making (Option String → Except Fault (Option String)) := do
  let casing ← casing casingName
  note (.tagNormalizer casing)
  return Naming.tagNormalizer casing

/-- An attribute normalizer, for the name of a casing; it renames `class` if a value counts as true
(`attribute_normalize`). -/
def attributeNormalizer (casingName renameClass : Datum) :
    Making (Option String → Except Fault (Option String)) := do
  let casing ← casing casingName
  note (.attributeNormalizer casing renameClass)
  return Naming.attributeNormalizer casing renameClass.truthy

end Making

/-! ## Options from settings -/

/-- The options that settings ask for: what `options_createFromSettings` answers. -/
def Options.ofSettings {σ : Type} (s : Settings) : Options σ where
  skipTransformed := .bool s.skipTransformed
  handleLabel := if s.labelSlot then slotLabel else discardLabel
  transformTag :=
    if s.normalizeNames then
      fun tag => Effect.ofExcept (Naming.tagNormalizer s.tagCasing tag)
    else keepTag
  transformAttribute :=
    if s.normalizeNames then
      fun _ name =>
        Effect.ofExcept (Naming.attributeNormalizer s.attributeCasing s.className (some name))
    else keepAttribute

/-- The options that settings ask for, reporting the normalizers made for them
(`options_createFromSettings`). -/
def Making.optionsOfSettings {σ : Type} (s : Settings) : Making (Options σ) := do
  if s.normalizeNames then
    note (.tagNormalizer s.tagCasing)
    note (.attributeNormalizer s.attributeCasing (.bool s.className))
  return Options.ofSettings s

/-! ## What making does -/

namespace Making

theorem tagNormalizer_name (c : Casing) (notices : Array Notice) :
    tagNormalizer (.text c.name) notices =
      .ok (Naming.tagNormalizer c) (notices.push (.tagNormalizer c)) := by
  cases c <;> rfl

theorem optionsOfSettings_ok {σ : Type} (s : Settings) (notices : Array Notice) :
    ∃ notices', optionsOfSettings s notices = .ok (Options.ofSettings s : Options σ) notices' := by
  unfold optionsOfSettings
  cases s.normalizeNames
  · exact ⟨notices, rfl⟩
  · exact ⟨(notices.push _).push _, rfl⟩

end Making

end DirectiveLowering
