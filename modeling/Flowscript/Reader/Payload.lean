import Flowscript.Comparison
import Flowscript.Compile
import Flowscript.Property.StateFields

/-!
# Payloads of tags

Reads the arguments that stand in the payload of a tag, and the states that need no other state.
-/

namespace Flowscript

open Compile (refuse)

/-- Checks how many arguments a payload spreads into. -/
def ArgumentList.check (list : ArgumentList) (payload : Node) : Compile Unit :=
  let count := payload.arguments.length
  if count < list.least || list.most < count then refuse (.argumentCount list count)
  else pure ()

/-- An argument that must be a string. -/
def TextArgument.read (argument : TextArgument) : Node → Compile String
  | .string text => return text
  | node => refuse (.argumentNotText argument node.shape)

/-- An argument that must be a whole number; null stands for the default. -/
def CountArgument.read (argument : CountArgument) (default : UInt64) (node : Node) :
    Compile UInt64 :=
  match node with
  | .null => return default
  | .number n =>
    match n.toUInt64? with
    | some count => return count
    | none => refuse (.argumentNotWhole argument node.shape)
  | _ => refuse (.argumentNotWhole argument node.shape)

/-! ## Retry and catch clauses -/

/-- The number one. -/
def Double.one : Double := ⟨false, 1 <<< 52, -52, by decide⟩

/-- The growth of intervals; null stands for none. -/
def readBackoff (node : Node) : Compile Double :=
  match node with
  | .null => return Double.one
  | .number n =>
    match n.toDouble? with
    | some x => return x
    | none => refuse (.backoffNotNumber node.shape)
  | _ => refuse (.backoffNotNumber node.shape)

/-- The retry clause for every failure that the arguments behind the first describe. -/
def readRetry (payload : Node) : Compile RetryClause := do
  ArgumentList.retry.check payload
  let attempts ← CountArgument.maxAttempts.read 3 (payload.argument 1)
  if UInt32.size ≤ attempts.toNat then refuse (.tooManyAttempts attempts.toNat)
  else
    let interval ← CountArgument.interval.read 1 (payload.argument 2)
    let backoff ← readBackoff (payload.argument 3)
    return ⟨[allErrors], attempts.toUInt32, interval, backoff⟩

/-- The stem of a failure's result path where the state has no name. -/
def unnamedState : String := "last"

/-- The clause that catches every failure of a state. The failure is stored under the state's
name. -/
def catchAll (s : State) (target : String) : CatchClause :=
  ⟨[allErrors], some ("$." ++ s.name.getD unnamedState ++ "-error"), target⟩

/-! ## States without others in them -/

/-- A choice between two targets by one comparison. -/
def choiceState (payload : Node) : Compile State := do
  ArgumentList.choice.check payload
  let condition := payload.argument 0
  ArgumentList.condition.check condition
  let variablePath ← TextArgument.variablePath.read (condition.argument 0)
  let operator ← TextArgument.operator.read (condition.argument 1)
  let consequent ← TextArgument.consequent.read (payload.argument 1)
  let consequent ← Compile.shortName false consequent
  let value ← Compile.ofExcept (Property.readData (condition.argument 2))
  let (rules, notices) ← Compile.ofExcept (comparison operator variablePath value consequent)
  notices.forM Compile.note
  let name ← Compile.generateName StateType.choice.stem
  let alternate ←
    match payload.argument 2 with
    | .null => pure none
    | node => do
      let alternate ← TextArgument.alternate.read node
      pure (some (← Compile.shortName false alternate))
  return { State.named name .choice with choices := some rules, default := alternate }

/-- A state that passes on a part of its input, or a new value made from it. -/
def parametersState (payload : Node) : Compile State := do
  let name ← Compile.generateName StateType.pass.stem
  let s := State.named name .pass
  match payload with
  | .string path => return { s with outputPath := path }
  | .null => return { s with parameters := some (.object []) }
  | .mapping _ =>
    let parameters ← Compile.ofExcept (Property.readData payload)
    return { s with parameters := parameters }
  | node => refuse (.parametersPayload node.shape)

end Flowscript
