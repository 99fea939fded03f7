import Flowscript.CompileError

/-!
# Notices

What the compiler reports about its work besides its result. Warnings are always shown, the others
on demand.
-/

namespace Flowscript

/-- A remark on the work. -/
inductive Notice where
  | emptyDocument
  | documentsParsed (count bytes : Nat)
  | documentsCompiled (count : Nat)
  | itemsSequenced (count : Nat)
  | lineFailed (line : Nat) (cause : CompileError)
  | lineEmpty (line : Nat)
  | referenceNamed (reference name : String)
  | referenceResolved (reference : String) (value : Json)
  | readerChosen (tag : String)
  | symbolAllocated (symbol : String)
  | branchAssembled (count : Nat) (startAt : String)
  | machineCompiled (count : Nat)
  | propertyDropped (key : String)
  | propertyIgnored (key : String) (property : Property)
  | propertyOverridden (key : String) (property : Property)
  | propertyNormalized (key : String) (property : Property)
  | comparisonExpanded (variablePath operator operand : String) (types : List ValueType)
  | validationStarted (count : Nat)
  | validationPassed (names : List String)

namespace Notice

/-- Whether a notice is a warning. -/
def isWarning : Notice → Bool
  | .lineFailed .. | .propertyDropped _ | .propertyIgnored .. | .propertyOverridden .. => true
  | _ => false

/-- The wording of a notice. -/
def text : Notice → String
  | .emptyDocument => "Skipping empty document"
  | .documentsParsed count bytes =>
    "Parsed " ++ toString count ++ " document(s) (" ++ toString bytes ++ " bytes)"
  | .documentsCompiled count => "Compiling " ++ toString count ++ " document(s)"
  | .itemsSequenced count => "Sequencing " ++ toString count ++ " top-level item(s)"
  | .lineFailed line cause =>
    "Line " ++ toString line ++ " failed to compile: " ++ cause.message
  | .lineEmpty line => "Skipping empty document on line " ++ toString line
  | .referenceNamed reference name => "Naming '" ++ reference ++ "' as '" ++ name ++ "'"
  | .referenceResolved reference value =>
    "Resolved '" ++ reference ++ "' -> " ++ value.compact
  | .readerChosen tag => "Dispatching '!" ++ tag ++ "' reader"
  | .symbolAllocated symbol => "Allocated symbol '" ++ symbol ++ "'"
  | .branchAssembled count startAt =>
    "Assembled branch of " ++ toString count ++ " state(s) starting at '" ++ startAt ++ "'"
  | .machineCompiled count => "Compiled " ++ toString count ++ " top-level state(s)"
  | .propertyDropped key => "Dropping unrecognized property '" ++ key ++ "'"
  | .propertyIgnored key property =>
    "Ignoring '" ++ key ++ "': '" ++ property.text ++ "' is already set"
  | .propertyOverridden key property =>
    "Property '" ++ key ++ "' overrides an earlier '" ++ property.text ++ "'"
  | .propertyNormalized key property =>
    "Normalized property '" ++ key ++ "' -> '" ++ property.text ++ "'"
  | .comparisonExpanded variablePath operator operand types =>
    "Comparison '" ++ variablePath ++ " " ++ operator ++ " " ++ operand ++ "' expands to [" ++
      String.intercalate ", " (types.map ValueType.name) ++ "]"
  | .validationStarted count => "Validating branch with " ++ toString count ++ " states"
  | .validationPassed names => "Branch order: " ++ Text.quotedList names

/-- The line that shows a notice. -/
def line (notice : Notice) : String :=
  if notice.isWarning then "[WARN] " ++ notice.text else notice.text

end Notice
end Flowscript
