import DirectiveLowering.Lowering.Policy

/-!
# Options by name

Values for some of the options, given by name: the `overrides` of `DirectiveTransformer`. They change
options that are there, or the default options, field by field; a name that is no option is a fault,
found after the hooks have been made.
-/

namespace DirectiveLowering

/-- Values for options, and the names under which values were given. -/
structure OptionValues where
  skipTransformed : Option Datum := none
  filter : Option FilterPolicy := none
  handleLabel : Option LabelPolicy := none
  transformTag : Option TagPolicy := none
  transformAttribute : Option AttributePolicy := none
  names : List String := []

namespace OptionValues

/-- Makes the hooks among the values, in the order of the options, and answers how the values change
options. -/
def change (v : OptionValues) : Making (Options Trace → Options Trace) := do
  let tag ← v.transformTag.mapM (·.hook)
  let rename ← v.transformAttribute.mapM (·.hook)
  return fun base => {
    skipTransformed := v.skipTransformed.getD base.skipTransformed
    filter := (v.filter.map (·.hook)).getD base.filter
    handleLabel := (v.handleLabel.map (·.hook)).getD base.handleLabel
    transformTag := tag.getD base.transformTag
    transformAttribute := rename.getD base.transformAttribute }

/-- Refuses names that are no options. -/
def check (v : OptionValues) : Making Unit :=
  match Record.options.check v.names with
  | .ok () => return ()
  | .error fault => throw fault

/-- The options with the values put in, if every name given is an option. -/
def make (v : OptionValues) (base : Options Trace) : Making (Options Trace) := do
  let change ← v.change
  v.check
  return change base

/-- The default options with the first values put in and then the second ones. All hooks are made
before names that are no options are refused. -/
def makeBoth (first second : OptionValues) : Making (Options Trace) := do
  let before ← first.change
  let after ← second.change
  first.check
  second.check
  return after (before {})

end OptionValues

end DirectiveLowering
