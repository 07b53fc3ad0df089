import DirectiveLowering.Text.Blank

/-!
# Settings files

A settings file binds names to texts, one binding a line:

    # a comment
    export NAME = value   # another
    'a name' = 'a value that may span lines'
    OTHER = "escaped \n value with ${NAME} and ${MISSING:-default}"

A value is a text in single or double quotes, or the rest of its line up to a comment. A line that is
no binding is passed over from the place where reading got stuck. A name without an equals sign is
bound to nothing.
-/

namespace DirectiveLowering.Settings

open DirectiveLowering.Text (isBlank isInlineBlank trimRight)

/-- A name and the text bound to it, if any. -/
structure Binding where
  name : String
  value : Option String
deriving DecidableEq, Repr

/-! ## Lines -/

/-- The text of a file with every line ended by a line feed alone. -/
def unifyLineEnds : List Char → List Char
  | [] => []
  | '\r' :: '\n' :: rest => '\n' :: unifyLineEnds rest
  | '\r' :: rest => '\n' :: unifyLineEnds rest
  | c :: rest => c :: unifyLineEnds rest

/-- The text without a byte order mark in front. -/
def dropByteOrderMark : List Char → List Char
  | '\ufeff' :: rest => rest
  | s => s

/-- The text from the next line on. -/
def skipLine (s : List Char) : List Char :=
  (s.dropWhile (· != '\n')).drop 1

/-! ## Names -/

/-- Whether a character can stand in a name without quotes. -/
def isNameChar (c : Char) : Bool :=
  !isBlank c && c != '=' && c != '#'

/-- The text behind the word `export` and blanks, if it starts with them. -/
def dropExport (s : List Char) : List Char :=
  if "export".toList.isPrefixOf s then
    let rest := s.drop 6
    if rest.head?.any isInlineBlank then rest.dropWhile isInlineBlank else s
  else s

/-- Reads a name. A comment has none; where no name can be read, reading is stuck. -/
def readKey : List Char → Except (List Char) (Option (List Char) × List Char)
  | '#' :: rest => .ok (none, '#' :: rest)
  | '\x27' :: rest =>
    match rest.takeWhile (· != '\x27'), rest.dropWhile (· != '\x27') with
    | c :: key, _ :: after => .ok (some (c :: key), after)
    | _, _ => .error ('\x27' :: rest)
  | s =>
    match s.takeWhile isNameChar with
    | [] => .error s
    | key => .ok (some key, s.dropWhile isNameChar)

/-! ## Values -/

/-- The text of a quoted value, behind its opening quote, and the text behind its closing one. A
backslash takes the character behind it into the value, so that a quote taken in this way does not
close it. -/
def readQuoted (quote : Char) : List Char → Option (List Char × List Char)
  | [] => none
  | '\\' :: c :: rest => (readQuoted quote rest).map fun (s, after) => ('\\' :: c :: s, after)
  | c :: rest =>
    if c = quote then some ([], rest)
    else (readQuoted quote rest).map fun (s, after) => (c :: s, after)

/-- What a character stands for behind a backslash in single quotes. -/
def singleEscape? : Char → Option Char
  | '\\' => some '\\'
  | '\x27' => some '\x27'
  | _ => none

/-- What a character stands for behind a backslash in double quotes. -/
def doubleEscape? : Char → Option Char
  | '\\' => some '\\'
  | '\x27' => some '\x27'
  | '\x22' => some '\x22'
  | 'a' => some '\x07'
  | 'b' => some '\x08'
  | 'f' => some '\x0c'
  | 'n' => some '\n'
  | 'r' => some '\r'
  | 't' => some '\t'
  | 'v' => some '\x0b'
  | _ => none

/-- The text with its escapes replaced; a backslash that starts none stays. -/
def unescape (escape? : Char → Option Char) : List Char → List Char
  | [] => []
  | '\\' :: c :: rest =>
    match escape? c with
    | some d => d :: unescape escape? rest
    | none => '\\' :: unescape escape? (c :: rest)
  | c :: rest => c :: unescape escape? rest

/-- The text before the first comment sign that follows white space. -/
def beforeComment : List Char → List Char
  | [] => []
  | c :: rest => if isBlank c && rest.head? == some '#' then [] else c :: beforeComment rest

/-- Reads a value without quotes. -/
def readBare (s : List Char) : List Char × List Char :=
  (trimRight isBlank (beforeComment (s.takeWhile (· != '\n'))), s.dropWhile (· != '\n'))

/-- Reads a value, behind the equals sign. Where a quoted value does not end, reading is stuck. -/
def readValue (s : List Char) : Except (List Char) (List Char × List Char) :=
  let blanks := s.takeWhile isInlineBlank
  match s.dropWhile isInlineBlank with
  | [] => .ok ([], [])
  | '\n' :: rest => .ok ([], '\n' :: rest)
  | '\x27' :: rest =>
    match readQuoted '\x27' rest with
    | some (value, after) => .ok (unescape singleEscape? value, after)
    | none => .error ('\x27' :: rest)
  | '\x22' :: rest =>
    match readQuoted '\x22' rest with
    | some (value, after) => .ok (unescape doubleEscape? value, after)
    | none => .error ('\x22' :: rest)
  | '#' :: rest => if blanks.isEmpty then .ok (readBare ('#' :: rest)) else .ok ([], '#' :: rest)
  | rest => .ok (readBare rest)

/-- The text behind a comment, if it starts with one. -/
def dropComment : List Char → List Char
  | '#' :: rest => rest.dropWhile (· != '\n')
  | rest => rest

/-- Reads the end of a line, which blanks and a comment may precede. -/
def readLineEnd (s : List Char) : Except (List Char) (List Char) :=
  match (dropComment (s.dropWhile isInlineBlank)).dropWhile isInlineBlank with
  | [] => .ok []
  | '\n' :: rest => .ok rest
  | rest => .error rest

/-! ## Bindings -/

/-- Reads what a name is bound to, which is nothing unless an equals sign follows it. -/
def readBound (s : List Char) : Except (List Char) (Option String × List Char) :=
  match s.dropWhile isInlineBlank with
  | '=' :: rest => do
    let (value, after) ← readValue rest
    return (some (String.ofList value), after)
  | rest => .ok (none, rest)

/-- Reads a binding or a comment. -/
def readBinding (s : List Char) : Except (List Char) (Option Binding × List Char) := do
  let (key, s) ← readKey (dropExport s)
  let (value, s) ← readBound s
  let s ← readLineEnd s
  return (key.map fun key => ⟨String.ofList key, value⟩, s)

/-- Bindings of a text, reading at most so many lines. -/
def readBindingsUpTo : (lines : Nat) → List Char → List Binding
  | 0, _ => []
  | lines + 1, s =>
    match s.dropWhile isBlank with
    | [] => []
    | c :: rest =>
      match readBinding (c :: rest) with
      | .ok (binding, after) => binding.toList ++ readBindingsUpTo lines after
      | .error stuck => readBindingsUpTo lines (skipLine stuck)

/-- Bindings of a settings file, in order. -/
def readBindings (text : String) : List Binding :=
  let s := unifyLineEnds (dropByteOrderMark text.toList)
  readBindingsUpTo (s.length + 1) s

end DirectiveLowering.Settings
