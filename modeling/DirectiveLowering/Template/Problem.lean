import DirectiveLowering.Text.Quoted

/-!
# Problems of templates

What can keep a template from being filled: the template itself, the values that it asks for, or the
layout that it asks of a value. Each problem has a class and a wording.
-/

namespace DirectiveLowering.Template

/-- Classes of problems. -/
inductive ProblemKind
  /-- The template or a layout cannot be understood, or does not go with the value. -/
  | malformed
  /-- There is nothing at a position. -/
  | position
  /-- There is nothing of a name. -/
  | name
  /-- A value has no such member. -/
  | member
  /-- A value of another kind would be needed. -/
  | kind
  /-- A number is too large for what is asked of it. -/
  | range
deriving DecidableEq, Repr

/-- What keeps a template from being filled. -/
inductive Problem
  /-- A brace that is text is not written twice. -/
  | loneBrace (brace : Char)
  | braceInName
  | unclosedField
  | missingConversion
  | overlongConversion
  | unclosedLayout
  | unknownConversion (c : Char)
  | oversizedNumber
  /-- A member or an element is asked for without a name. -/
  | emptyStep
  /-- Something other than a step follows a bracket. -/
  | strayStep
  /-- A layout holds fields whose layouts hold fields. -/
  | tooDeep
  /-- Values go by name only. -/
  | noPosition (n : Nat)
  | noValue (name : String)
  | noMember (kind name : String)
  /-- No element has this number, which an object looks up like a name. -/
  | noKey (n : Nat)
  /-- A text or a list is too short. -/
  | beyondEnd (what : String)
  /-- The elements of a text go by number. -/
  | namedCharacter
  /-- The elements of a list go by number. -/
  | namedItem
  | noElements (kind : String)
  /-- Values of this kind have no layout. -/
  | noLayout (kind : String)
  | unknownCode (c : Char) (kind : String)
  | overlongLayout (layout kind : String)
  | bothSeparators
  | straySeparator (separator code : Char)
  | missingPrecision
  | signOnText
  | blankOnText
  | positiveZeroOnText
  | alternateOnText
  | alignedSignOnText
  | precisionOnWhole
  | positiveZeroOnWhole
  | signOnCharacter
  | alternateOnCharacter
  | oversizedPrecision
  | noCharacter
  | beyondWord
  | beyondDouble
deriving DecidableEq, Repr

/-- A character as messages show it: by its code point, unless it is visible and in ASCII. `bound` is
the first code point beyond those. -/
def shownCode (bound : Nat) (c : Char) : String :=
  if 0x20 < c.toNat && c.toNat < bound then c.toString
  else "\\x" ++ String.ofList (Nat.toDigits 16 c.toNat)

namespace Problem

/-- Class of a problem. -/
def kind : Problem → ProblemKind
  | noPosition _ | beyondEnd _ => .position
  | noValue _ | noKey _ => .name
  | noMember _ _ => .member
  | namedCharacter | namedItem | noElements _ | noLayout _ => .kind
  | noCharacter | beyondWord | beyondDouble => .range
  | _ => .malformed

/-- Wording of a problem. -/
def message : Problem → String
  | loneBrace brace => "Single '" ++ brace.toString ++ "' encountered in format string"
  | braceInName => "unexpected '\x7b' in field name"
  | unclosedField => "expected '\x7d' before end of string"
  | missingConversion => "end of string while looking for conversion specifier"
  | overlongConversion => "expected ':' after conversion specifier"
  | unclosedLayout => "unmatched '\x7b' in format spec"
  | unknownConversion c => "Unknown conversion specifier " ++ shownCode 0x7f c
  | oversizedNumber => "Too many decimal digits in format string"
  | emptyStep => "Empty attribute in format string"
  | strayStep => "Only '.' or '[' may follow ']' in format field specifier"
  | tooDeep => "Max string recursion exceeded"
  | noPosition n => "Replacement index " ++ toString n ++ " out of range for positional args tuple"
  | noValue name => Text.quoted name
  | noMember kind name => "'" ++ kind ++ "' object has no attribute '" ++ name ++ "'"
  | noKey n => toString n
  | beyondEnd what => what ++ " index out of range"
  | namedCharacter => "string indices must be integers, not 'str'"
  | namedItem => "list indices must be integers or slices, not str"
  | noElements kind => "'" ++ kind ++ "' object is not subscriptable"
  | noLayout kind => "unsupported format string passed to " ++ kind ++ ".__format__"
  | unknownCode c kind =>
    "Unknown format code '" ++ shownCode 0x80 c ++ "' for object of type '" ++ kind ++ "'"
  | overlongLayout layout kind =>
    "Invalid format specifier '" ++ layout ++ "' for object of type '" ++ kind ++ "'"
  | bothSeparators => "Cannot specify both ',' and '_'."
  | straySeparator separator code =>
    "Cannot specify '" ++ separator.toString ++ "' with '" ++ shownCode 0x80 code ++ "'."
  | missingPrecision => "Format specifier missing precision"
  | signOnText => "Sign not allowed in string format specifier"
  | blankOnText => "Space not allowed in string format specifier"
  | positiveZeroOnText => "Negative zero coercion (z) not allowed in string format specifier"
  | alternateOnText => "Alternate form (#) not allowed in string format specifier"
  | alignedSignOnText => "'=' alignment not allowed in string format specifier"
  | precisionOnWhole => "Precision not allowed in integer format specifier"
  | positiveZeroOnWhole => "Negative zero coercion (z) not allowed in integer format specifier"
  | signOnCharacter => "Sign not allowed with integer format specifier 'c'"
  | alternateOnCharacter => "Alternate form (#) not allowed with integer format specifier 'c'"
  | oversizedPrecision => "precision too big"
  | noCharacter => "%c arg not in range(0x110000)"
  | beyondWord => "Python int too large to convert to C long"
  | beyondDouble => "int too large to convert to float"

end Problem

end DirectiveLowering.Template
