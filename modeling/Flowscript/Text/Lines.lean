import Flowscript.Text.Blank

/-!
# Lines from chunks

Puts lines together from chunks of text that may be cut anywhere. A line ends with a line feed, and
a carriage return directly in front of that is no part of the line.
-/

namespace Flowscript.Text

/-- The text behind the last line feed so far. -/
structure LineSplitter where
  pending : List Char := []
deriving DecidableEq

/-- A line without the carriage return at its end. -/
def withoutReturn (line : List Char) : List Char :=
  match line.reverse with
  | '\r' :: rest => rest.reverse
  | _ => line

/-- The pieces in front of line feeds, and the text behind the last of them. -/
def cutLines (text : List Char) : List (List Char) × List Char :=
  match text with
  | [] => ([], [])
  | c :: rest =>
    let (lines, pending) := cutLines rest
    if c = '\n' then ([] :: lines, pending)
    else
      match lines with
      | [] => ([], c :: pending)
      | line :: lines => ((c :: line) :: lines, pending)

namespace LineSplitter

/-- Takes a chunk in, and gives the lines that it completes. -/
def push (splitter : LineSplitter) (chunk : String) : List String × LineSplitter :=
  let (lines, pending) := cutLines (splitter.pending ++ chunk.toList)
  (lines.map fun line => String.ofList (withoutReturn line), ⟨pending⟩)

/-- The last line, if it has no line feed. -/
def finish (splitter : LineSplitter) : Option String :=
  if splitter.pending.isEmpty then none else some (String.ofList splitter.pending)

end LineSplitter
end Flowscript.Text
