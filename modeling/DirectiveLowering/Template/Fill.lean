import DirectiveLowering.Datum
import DirectiveLowering.Template.Numeral
import DirectiveLowering.Template.Piece

/-!
# Filling templates

A template is filled piece by piece: a field looks its value up by name, goes into it step by step,
shows it in quotes if asked to, and lays it out. The first problem on the way is the answer. The message
of a call of `LOG` with further values is such a template.

Results:
* `fill_of_forall`: a template without braces stands for itself.
-/

namespace DirectiveLowering

/-! ## Layouts of data -/

open Template

/-- A text in a layout of texts. -/
def Template.Layout.text (l : Layout) (s : List Char) : Except Problem (List Char) :=
  if l.sign = some ' ' then .error .blankOnText
  else if l.sign.isSome then .error .signOnText
  else if l.positiveZero then .error .positiveZeroOnText
  else if l.alternate then .error .alternateOnText
  else if l.align = .split then .error .alignedSignOnText
  else .ok (l.pad [] (s.take (l.precision.getD s.length)))

/-- Lays a text out. -/
def layText (spec s : List Char) : Except Problem (List Char) := do
  let l ← Layout.read "str" .left 's' spec
  if l.code = 's' then l.text s else .error (.unknownCode l.code "str")

/-- Lays a number out that belongs to values of a kind. -/
def layInt (kind : String) (spec : List Char) (n : Int) : Except Problem (List Char) := do
  let l ← Layout.read kind .right 'd' spec
  if "bcdoxXn".contains l.code then l.whole n
  else if "eEfFgG%".contains l.code then l.double n
  else .error (.unknownCode l.code kind)

namespace Datum

/-- A value in a layout. -/
def laidOut (spec : List Char) (d : Datum) : Except Problem (List Char) :=
  if spec.isEmpty then .ok d.shown.toList
  else match d with
    | text s => layText spec s.toList
    | int n => layInt d.kind spec n
    | bool b => layInt d.kind spec (if b then 1 else 0)
    | _ => .error (.noLayout d.kind)

/-! ## Steps into data -/

/-- A member of a value: numbers have a real and an imaginary part, a numerator and a
denominator. -/
def member (d : Datum) (name : String) : Except Problem Datum :=
  let number := fun (n : Int) =>
    match name with
    | "real" | "numerator" => .ok (int n)
    | "imag" => .ok (int 0)
    | "denominator" => .ok (int 1)
    | _ => .error (.noMember d.kind name)
  match d with
  | int n => number n
  | bool b => number (if b then 1 else 0)
  | _ => .error (.noMember d.kind name)

/-- The element of a value at a position. -/
def elementAt (d : Datum) (i : Nat) : Except Problem Datum :=
  match d with
  | text s =>
    match s.toList[i]? with
    | some c => .ok (text c.toString)
    | none => .error (.beyondEnd "string")
  | list items =>
    match items[i]? with
    | some item => .ok item
    | none => .error (.beyondEnd "list")
  | object _ => .error (.noKey i)
  | _ => .error (.noElements d.kind)

/-- The element of a value by a name. -/
def elementOf (d : Datum) (name : String) : Except Problem Datum :=
  match d with
  | text _ => .error .namedCharacter
  | list _ => .error .namedItem
  | object fields =>
    match fields.lookup name with
    | some value => .ok value
    | none => .error (.noValue name)
  | _ => .error (.noElements d.kind)

end Datum

namespace Template

/-- The number that a name is, if it is one. -/
def position? (name : List Char) : Except Problem (Option Nat) := do
  match ← readNumber name with
  | (some n, []) => return some n
  | _ => return none

/-- Whether a character can be part of the name of a member. -/
def isStepChar (c : Char) : Bool :=
  c != '.' && c != '['

/-- Goes from a value into its members and elements. -/
def follow (d : Datum) (s : List Char) : Except Problem Datum :=
  match s with
  | [] => .ok d
  | '.' :: rest =>
    match rest.takeWhile isStepChar with
    | [] => .error .emptyStep
    | name =>
      match d.member (String.ofList name) with
      | .ok d => follow d (rest.dropWhile isStepChar)
      | .error problem => .error problem
  | '[' :: rest =>
    match rest.takeWhile (· != ']') with
    | [] => .error .emptyStep
    | name =>
      let element :=
        match position? name with
        | .ok (some i) => d.elementAt i
        | .ok none => d.elementOf (String.ofList name)
        | .error problem => .error problem
      match element with
      | .ok d => follow d ((rest.dropWhile (· != ']')).drop 1)
      | .error problem => .error problem
  | _ :: _ => .error .strayStep
termination_by s.length
decreasing_by
  · have := (List.dropWhile_sublist (l := rest) isStepChar).length_le
    simp only [List.length_cons]
    omega
  · have := (List.dropWhile_sublist (l := rest) (· != ']')).length_le
    simp only [List.length_drop, List.length_cons]
    omega

/-! ## Fields -/

/-- Named values. -/
abbrev Values := List (String × Datum)

/-- The value that a field asks for. No value goes by position; a field without a name would ask for
the first. -/
def Field.value (values : Values) (f : Field) : Except Problem Datum := do
  let first := f.name.takeWhile isStepChar
  match first, ← position? first with
  | [], _ => .error (.noPosition 0)
  | _, some n => .error (.noPosition n)
  | _, none =>
    match values.lookup (String.ofList first) with
    | some d => follow d (f.name.dropWhile isStepChar)
    | none => .error (.noValue (String.ofList first))

/-- A value as the conversion of a field shows it. -/
def convert (d : Datum) : Option Char → Except Problem Datum
  | none => .ok d
  | some 's' => .ok (.text d.shown)
  | some 'r' => .ok (.text d.quoted)
  | some 'a' => .ok (.text (String.ofList (Text.inAscii d.quoted.toList)))
  | some c => .error (.unknownConversion c)

/-- A piece filled in; `fillLayout` fills a layout that holds fields. -/
def Piece.fill (values : Values) (fillLayout : List Char → Except Problem (List Char)) :
    Piece → Except Problem (List Char)
  | char c => .ok [c]
  | broken problem => .error problem
  | field f => do
    let d ← convert (← f.value values) f.conversion
    let layout ← if f.layout.contains '{' then fillLayout f.layout else .ok f.layout
    d.laidOut layout

/-! ## Templates -/

/-- Fills a template whose fields are nested at most so deep. -/
def fillAt (values : Values) : (depth : Nat) → List Char → Except Problem (List Char)
  | 0, _ => .error .tooDeep
  | depth + 1, s => do
    return (← (pieces s).mapM (Piece.fill values (fillAt values depth))).flatten

/-- Fills a template: a layout may hold fields, but no layouts with fields of their own. -/
def fill (values : Values) (template : String) : Except Problem String :=
  (fillAt values 2 template.toList).map String.ofList

theorem mapM_fill_char (values : Values) (f : List Char → Except Problem (List Char))
    (s : List Char) :
    (s.map Piece.char).mapM (Piece.fill values f) = .ok (s.map fun c => [c]) := by
  induction s with
  | nil => rfl
  | cons c rest ih =>
    rw [List.map_cons, List.mapM_cons, ih]
    rfl

theorem fill_of_forall (values : Values) {template : String}
    (h : ∀ c ∈ template.toList, c ≠ '{' ∧ c ≠ '}') : fill values template = .ok template := by
  have hflat : ∀ s : List Char, (s.map fun c => [c]).flatten = s := fun s => by
    induction s with
    | nil => rfl
    | cons c rest ih => simpa using ih
  rw [fill, fillAt, pieces_of_forall h, mapM_fill_char]
  simp [bind, Except.bind, pure, Except.pure, Except.map, hflat]

end Template

end DirectiveLowering
