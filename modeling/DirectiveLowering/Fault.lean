import DirectiveLowering.Datum
import DirectiveLowering.Settings.Problem
import DirectiveLowering.Template.Problem

/-!
# Faults

Everything that can stop a computation over documents, as causes, and the one place where their
wording is fixed.

Results:
* `Operation.check_nil`: without arguments by name none is given twice.
-/

namespace DirectiveLowering

/-- Records that are built from named fields, a misspelt one being a fault. -/
inductive Record
  | options
  | node
  | nodeData
  | stats
deriving DecidableEq, Repr

/-- Name of a record in messages. -/
def Record.name : Record → String
  | .options => "Options"
  | .node => "Node"
  | .nodeData => "NodeData"
  | .stats => "TransformStats"

/-- Fields of a record that may be given by name. -/
def Record.fields : Record → List String
  | .options =>
    ["skip_transformed", "filter", "handle_label", "transform_tag", "transform_attribute"]
  | .node => ["type", "children", "name", "attributes", "value", "data", "position"]
  | .nodeData => ["hName", "directiveLabel", "explicitJsx", "extra"]
  | .stats => ["visited", "transformed", "skipped", "filtered", "labels"]

/-- Operations that take some arguments by position and others by name. -/
inductive Operation
  | makeNode
  | log
deriving DecidableEq, Repr

/-- Name of an operation in messages. -/
def Operation.name : Operation → String
  | .makeNode => "node_make"
  | .log => "LOG"

/-- Class of a failure that a hook or a stage raises on purpose. -/
inductive FailureClass
  | runtime
  | value
deriving DecidableEq, Repr

/-- Why a computation stopped. -/
inductive Fault
  /-- A hook or a stage raised it on purpose. -/
  | raised (kind : FailureClass) (text : String)
  /-- No casing has this name. -/
  | unknownCasing (name : Datum)
  /-- A missing name was to be lower-cased. -/
  | lowerOfNull
  /-- A missing name was to be split into words. -/
  | wordsOfNull
  /-- A text was to be joined with a missing one. -/
  | joinWithNull
  /-- Attribute records stood where an attribute mapping is needed. -/
  | attributesNotMapping
  /-- An attribute mapping, or nothing at all, stood where attribute records are needed. -/
  | attributesNotRecords (mapping : Bool)
  /-- Nothing is known under this key: a node type without a handler, a handle that is not bound. -/
  | missingKey (key : String)
  /-- A record has no such field. -/
  | unexpectedField (record : Record) (field : String)
  /-- An argument was given by position and by name. -/
  | repeatedArgument (operation : Operation) (argument : String)
  /-- A list has no element at the index asked for. -/
  | indexOutOfRange
  /-- A list has no element at the index to remove. -/
  | removalOutOfRange
  /-- No list has elements at an index as large as this. -/
  | indexTooLarge
  /-- No list can be inserted into at an index as large as this. -/
  | insertionTooLarge
  /-- The root has no parent of which a part could be edited. -/
  | noParent (part : String)
  /-- A connection was undone twice. -/
  | tokenReused
  /-- No log level has this name. -/
  | unknownLevel (name : String)
  /-- No log level has a negative number. -/
  | negativeLevel (number : Int)
  /-- A level that is no number was to be compared with the verbosity. -/
  | levelNotNumber (kind : String)
  /-- A message could not be filled in. -/
  | template (problem : Template.Problem)
  /-- Settings were asked for that cannot be had. -/
  | invalidSettings (problems : List Settings.Problem)
deriving Repr

/-- How an absent or present text is shown. -/
def shownName : Option String → String
  | some name => name
  | none => "None"

/-- Wording of a fault. -/
def Fault.message : Fault → String
  | .raised _ text => text
  | .unknownCasing name => name.quoted ++ " is not a valid Casing"
  | .lowerOfNull => "'NoneType' object has no attribute 'lower'"
  | .wordsOfNull => "expected string or bytes-like object, got 'NoneType'"
  | .joinWithNull => "can only concatenate str (not \"NoneType\") to str"
  | .attributesNotMapping => "'list' object has no attribute 'items'"
  | .attributesNotRecords true => "'dict' object has no attribute 'append'"
  | .attributesNotRecords false => "'NoneType' object has no attribute 'append'"
  | .missingKey key => Text.quoted key
  | .unexpectedField record field =>
    record.name ++ ".__init__() got an unexpected keyword argument '" ++ field ++ "'"
  | .repeatedArgument operation argument =>
    operation.name ++ "() got multiple values for argument '" ++ argument ++ "'"
  | .indexOutOfRange => "list index out of range"
  | .removalOutOfRange => "list assignment index out of range"
  | .indexTooLarge => "cannot fit 'int' into an index-sized integer"
  | .insertionTooLarge => "Python int too large to convert to C ssize_t"
  | .noParent part => "'NoneType' object has no attribute '" ++ part ++ "'"
  | .tokenReused => "the token was already used"
  | .unknownLevel name => "Level '" ++ name ++ "' does not exist"
  | .negativeLevel number =>
    "Invalid level value, it should be a positive integer, not: " ++ toString number
  | .levelNotNumber kind => "'>=' not supported between instances of 'int' and '" ++ kind ++ "'"
  | .template problem => problem.message
  | .invalidSettings problems =>
    "\n".intercalate (problems.map fun p => p.name ++ ": " ++ p.cause.message)

/-- The first of the given fields, in the order of their names, that the record does not have. -/
def Record.stranger? (record : Record) (given : List String) : Option String :=
  ((given.filter fun field => !record.fields.contains field).mergeSort fun a b => a ≤ b).head?

/-- Refuses fields that the record does not have. -/
def Record.check (record : Record) (given : List String) : Except Fault Unit :=
  match record.stranger? given with
  | some field => .error (.unexpectedField record field)
  | none => .ok ()

/-- Refuses arguments by name that are given by position as well, in the order of those by name. -/
def Operation.check (operation : Operation) (placed named : List String) : Except Fault Unit :=
  match named.find? placed.contains with
  | some argument => .error (.repeatedArgument operation argument)
  | none => .ok ()

theorem Operation.check_nil (operation : Operation) (placed : List String) :
    operation.check placed [] = .ok () := rfl

end DirectiveLowering
