import Flowscript.Compiler
import Flowscript.Node.OfYaml

/-!
# Sources

Compiles a text of YAML documents to one machine. The members of an untagged list at the top of a
document are states of the machine; any other document is one state.
-/

namespace Flowscript

open Compile (refuse note)

/-- The node of a text with at most one document. -/
def parseLine (line : String) : Except CompileError Node :=
  match Yaml.document? line with
  | .error cause => .error (.malformed cause)
  | .ok value => (Node.ofYaml value).mapError .refused

/-- The nodes of documents; those that are empty are left out. -/
def readDocuments : List (Except Yaml.Fault Yaml.Value) → Compile (List Node)
  | [] => return []
  | .error cause :: _ => throw (.malformed cause)
  | .ok value :: rest => do
    if value.isNull then
      note .emptyDocument
      readDocuments rest
    else
      let node ← Compile.ofExcept (Node.ofYaml value)
      return node :: (← readDocuments rest)

/-- The nodes of a text's documents. -/
def parseDocuments (text : String) : Compile (List Node) := do
  let nodes ← readDocuments (Yaml.documents text)
  note (.documentsParsed nodes.length text.utf8ByteSize)
  return nodes

/-- The states of a document. -/
def documentItems : Node → List Node
  | .sequence items => items
  | node => [node]

namespace Setting

/-- Compiles documents to one machine. -/
def compileDocuments (setting : Setting) (documents : List Node) : Compile Branch := do
  let items := documents.flatMap documentItems
  if items.isEmpty then refuse .emptySource
  else
    note (.itemsSequenced items.length)
    match items with
    | [item] => if item.isMachine then setting.branch item else setting.branch (.sequence [item])
    | items => setting.branch (.sequence items)

/-- Compiles a text to one machine. -/
def compileText (setting : Setting) (text : String) : Compile Branch := do
  let documents ← parseDocuments text
  note (.documentsCompiled documents.length)
  setting.compileDocuments documents

end Setting

/-- Checks the structure of a machine. -/
def validate (branch : Branch) : Compile Unit := do
  note (.validationStarted branch.states.length)
  match branch.problems with
  | [] => note (.validationPassed branch.stateNames)
  | problems => throw (.unsound problems)

end Flowscript
