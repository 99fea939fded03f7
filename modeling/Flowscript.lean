import Flowscript.CommandLine.Run
import Flowscript.Main
import Flowscript.Proofs.Structure
import Flowscript.Proofs.Expansion
import Flowscript.Proofs.Transitions
import Flowscript.Proofs.Streaming
import Flowscript.Proofs.Targets
import Flowscript.Proofs.GeneratedNames
import Flowscript.Proofs.Indifference
import Flowscript.Proofs.PassThrough
import Flowscript.Proofs.NormalForm
import Flowscript.Proofs.KeyOrder
import Flowscript.Proofs.Modifiers
import Flowscript.Proofs.CompactText
import Flowscript.Proofs.FileLines
import Flowscript.Proofs.StreamMode
import Flowscript.Proofs.Spelling
import Flowscript.Proofs.Absence
import Flowscript.Proofs.Origin
import Flowscript.Proofs.Executable
import Flowscript.Proofs.ChoiceRules
import Flowscript.Proofs.TaskLists
import Flowscript.Proofs.Defaulting
import Flowscript.Proofs.Readings
import Flowscript.Proofs.Abbreviations
import Flowscript.Proofs.Retries
import Flowscript.Proofs.ShortestDigits
import Flowscript.Proofs.NumberTexts
import Flowscript.Proofs.MappingKeys
import Flowscript.Proofs.Reassembly
import Flowscript.Proofs.ArgumentGrammar
