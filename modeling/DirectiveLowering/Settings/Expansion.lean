import DirectiveLowering.Settings.File

/-!
# References in values

A value of a settings file may refer to a name with `${NAME}` or `${NAME:-default}`. The name is
looked up among the bindings before it in the file, then in the environment.
-/

namespace DirectiveLowering.Settings

/-- A reference: a name, and what stands for it when it is unknown. -/
structure Reference where
  name : List Char
  default : List Char

/-- The reference at the start of the text, and the text behind it. -/
def readReference : List Char → Option (Reference × List Char)
  | '$' :: '{' :: s =>
    let name := s.takeWhile fun c => c != '}' && c != ':'
    match s.dropWhile fun c => c != '}' && c != ':' with
    | '}' :: after => some (⟨name, []⟩, after)
    | ':' :: '-' :: rest =>
      match rest.dropWhile (· != '}') with
      | _ :: after => some (⟨name, rest.takeWhile (· != '}')⟩, after)
      | [] => none
    | _ => none
  | _ => none

/-- The text of a value whose first `taken` characters belong to a reference already replaced. -/
def expandAfter (lookup : List Char → Option (List Char)) : (taken : Nat) → List Char → List Char
  | _, [] => []
  | taken + 1, _ :: rest => expandAfter lookup taken rest
  | 0, c :: rest =>
    match readReference (c :: rest) with
    | some (reference, after) =>
      (lookup reference.name).getD reference.default ++
        expandAfter lookup (rest.length - after.length) rest
    | none => c :: expandAfter lookup 0 rest

/-- The text of a value with its references replaced. -/
def expand (lookup : List Char → Option (List Char)) (s : List Char) : List Char :=
  expandAfter lookup 0 s

/-! ## Files -/

/-- A list of names with texts in which a name keeps its first place and gets its last text. -/
def put (entries : List (String × Option String)) (name : String) (value : Option String) :
    List (String × Option String) :=
  if entries.any (·.1 == name) then
    entries.map fun e => if e.1 == name then (name, value) else e
  else entries ++ [(name, value)]

/-- What a name stands for in the value of a binding: the text that a binding before gave it, or else
the environment; a name bound to nothing stands for the empty text. -/
def meaning (environment : List (String × String)) (before : List (String × Option String))
    (name : String) : Option String :=
  match before.lookup name with
  | some value => some (value.getD "")
  | none => environment.lookup name

/-- The value of a binding with its references replaced. -/
def Binding.expanded (environment : List (String × String))
    (before : List (String × Option String)) (b : Binding) : Option String :=
  b.value.map fun value =>
    let lookup := fun name => (meaning environment before (String.ofList name)).map (·.toList)
    String.ofList (expand lookup value.toList)

/-- Names of a settings file with their texts, references replaced. -/
def fileEntries (environment : List (String × String)) (text : String) :
    List (String × Option String) :=
  (readBindings text).foldl (fun entries b => put entries b.name (b.expanded environment entries)) []

end DirectiveLowering.Settings
