import Flowscript.Source
import Flowscript.Text.Lines

/-!
# Streams

Compiles a stream of chunks in which every line that is not blank is a document of its own. The
lines share one compiler, so generated names stay distinct over the whole stream. Whoever reads the
stream pulls one item after the other: a chunk is read only when no line waits, and a line is
compiled only when its item is asked for. The first failure is the last item.
-/

namespace Flowscript

/-- A piece of text, or the reason why there are no more. -/
abbrev Chunk := Except String String

/-- What comes out of a stream for a document. -/
abbrev StreamItem := Except CompileError Branch

/-- How a line is read. -/
abbrev LineParser := String → Except CompileError Node

/-! ## The state of a stream -/

/-- A stream between two of its items. -/
structure StreamState where
  /-- The chunks that are not read yet. -/
  chunks : List Chunk
  /-- The text behind the last line feed that was read. -/
  splitter : Text.LineSplitter := {}
  /-- The lines that wait to be compiled. -/
  lines : List String := []
  /-- How many lines were taken up. -/
  passed : Nat := 0
  /-- Whether the end of the chunks was met. -/
  exhausted : Bool := false
  /-- Whether the last item was a failure. -/
  failed : Bool := false

namespace StreamState

/-- What is left of a stream, in the order in which it counts: chunks, their end, and lines. -/
def left (s : StreamState) : Nat × Nat × Nat :=
  (s.chunks.length, (!s.exhausted).toNat, s.lines.length)

/-- Less is left of a stream than of another one. -/
def Behind (t s : StreamState) : Prop :=
  Prod.Lex (· < ·) (Prod.Lex (· < ·) (· < ·)) t.left s.left

instance : WellFoundedRelation StreamState where
  rel := Behind
  wf := InvImage.wf left (Prod.lex Nat.lt_wfRel (Prod.lex Nat.lt_wfRel Nat.lt_wfRel)).wf

theorem Behind.trans {s t u : StreamState} (h : u.Behind t) (ht : t.Behind s) : u.Behind s := by
  simp only [Behind, Prod.lex_def] at h ht ⊢
  omega

/-- Takes up the first of the lines that wait. -/
def takeLine (s : StreamState) (rest : List String) : StreamState :=
  { s with lines := rest, passed := s.passed + 1 }

/-- Reads a chunk, and lets the lines wait that it completes. -/
def takeChunk (s : StreamState) (text : String) (rest : List Chunk) : StreamState :=
  let (lines, splitter) := s.splitter.push text
  { s with chunks := rest, splitter, lines := s.lines ++ lines }

/-- Leaves out a chunk that cannot be read. -/
def dropChunk (s : StreamState) (rest : List Chunk) : StreamState := { s with chunks := rest }

/-- Meets the end of the chunks, and lets the last line wait if it has no line feed. -/
def takeEnd (s : StreamState) : StreamState :=
  { s with exhausted := true, splitter := {}, lines := s.lines ++ s.splitter.finish.toList }

theorem takeLine_behind {s : StreamState} {line : String} {rest : List String}
    (h : s.lines = line :: rest) : (s.takeLine rest).Behind s := by
  simp [Behind, left, takeLine, h, Prod.lex_def]

theorem takeChunk_behind {s : StreamState} {text : String} {chunk : Chunk} {rest : List Chunk}
    (h : s.chunks = chunk :: rest) : (s.takeChunk text rest).Behind s := by
  simp [Behind, left, takeChunk, h, Prod.lex_def]

theorem dropChunk_behind {s : StreamState} {chunk : Chunk} {rest : List Chunk}
    (h : s.chunks = chunk :: rest) : (s.dropChunk rest).Behind s := by
  simp [Behind, left, dropChunk, h, Prod.lex_def]

theorem takeEnd_behind {s : StreamState} (h : s.exhausted = false) : s.takeEnd.Behind s := by
  simp [Behind, left, takeEnd, h, Prod.lex_def]

/-- An item of a stream, with the stream behind it; or the end. -/
abbrev Pulled (s : StreamState) := Option (StreamItem × { t : StreamState // t.Behind s })

/-- What is pulled from a stream of which less is left. -/
def Pulled.ofBehind {s t : StreamState} (h : t.Behind s) : Pulled t → Pulled s
  | none => none
  | some (item, u) => some (item, ⟨u, u.2.trans h⟩)

end StreamState

namespace Setting

variable (setting : Setting)

/-! ## Lines -/

/-- Compiles a line that is not blank; a line without contents has no result. -/
def compileLine (number : Nat) (line : String) (parse : LineParser := parseLine) :
    Compile (Option Branch) := do
  match parse line with
  | .error cause => throw cause
  | .ok node =>
    if node.isNull then
      Compile.note (.lineEmpty number)
      return none
    else return some (← setting.compileDocuments [node])

/-- Compiles a line, and reports a failure. -/
def compileLineOrWarn (number : Nat) (line : String) (parse : LineParser := parseLine) :
    Compile (Option Branch) :=
  tryCatch (setting.compileLine number line parse) fun cause => do
    Compile.note (.lineFailed number cause)
    throw cause

/-! ## Items -/

variable (parse : LineParser)

open StreamState in
/-- Compiles lines and reads chunks until there is an item, or the stream ends. -/
def pull (s : StreamState) : StateM Memory s.Pulled :=
  match hlines : s.lines with
  | line :: rest =>
    have hline := takeLine_behind hlines
    if Text.isBlankText line then return (← pull (s.takeLine rest)).ofBehind hline
    else do
      match ← (setting.compileLineOrWarn (s.passed + 1) line parse).run with
      | .ok none => return (← pull (s.takeLine rest)).ofBehind hline
      | .ok (some branch) => return some (.ok branch, ⟨s.takeLine rest, hline⟩)
      | .error cause => return some (.error cause, ⟨s.takeLine rest, hline⟩)
  | [] =>
    match hexhausted : s.exhausted with
    | true => return none
    | false =>
      match hchunks : s.chunks with
      | .ok text :: rest =>
        have hchunk := takeChunk_behind hchunks
        return (← pull (s.takeChunk text rest)).ofBehind hchunk
      | .error message :: rest =>
        return some (.error (.unreadable message), ⟨s.dropChunk rest, dropChunk_behind hchunks⟩)
      | [] => return (← pull s.takeEnd).ofBehind (takeEnd_behind hexhausted)
termination_by s
decreasing_by
  · exact hline
  · exact hline
  · exact hchunk
  · exact takeEnd_behind hexhausted

/-- The next item of a stream; there is none behind a failure. -/
def next (s : StreamState) : StateM Memory s.Pulled := do
  if s.failed then return none
  else
    match ← setting.pull parse s with
    | none => return none
    | some (item, t) => return some (item, ⟨{ t.1 with failed := !item.isOk }, t.2⟩)

/-- All items that are left in a stream. -/
def items (s : StreamState) : StateM Memory (List StreamItem) := do
  match ← setting.next parse s with
  | none => return []
  | some (item, t) => return item :: (← items t)
termination_by s
decreasing_by exact t.2

end Setting

/-! ## Results -/

/-- What came out of a stream: a result for each document up to the first failure. -/
structure StreamResult (α : Type) where
  results : List α := []
  failure : Option CompileError := none

namespace StreamResult

variable {α : Type}

/-- A stream's result with one more in front. -/
def cons (result : α) (rest : StreamResult α) : StreamResult α :=
  { rest with results := result :: rest.results }

/-- The machines among items, and the failure behind them. -/
def ofItems : List (Except CompileError α) → StreamResult α
  | [] => {}
  | .ok result :: rest => (ofItems rest).cons result
  | .error cause :: _ => { failure := some cause }

end StreamResult

namespace Setting

variable (setting : Setting)

/-- The machines of a stream. -/
def stream (chunks : List Chunk) : StateM Memory (StreamResult Branch) :=
  StreamResult.ofItems <$> setting.items parseLine { chunks }

/-- Pulls what is left in a stream and hands each machine to `consume` before the next item is
pulled. -/
def consumeFrom {α : Type} (consume : Branch → Compile α) (s : StreamState) :
    StateM Memory (StreamResult α) := do
  match ← setting.next parseLine s with
  | none => return {}
  | some (.error cause, _) => return { failure := some cause }
  | some (.ok branch, t) =>
    match ← (consume branch).run with
    | .error cause => return { failure := some cause }
    | .ok result => return (← consumeFrom consume t).cons result
termination_by s
decreasing_by exact t.2

/-- Compiles a stream and hands each machine to `consume`. -/
def streamWith {α : Type} (consume : Branch → Compile α) (chunks : List Chunk) :
    StateM Memory (StreamResult α) :=
  setting.consumeFrom consume { chunks }

end Setting

/-- A machine as a line of JSON. -/
def Branch.jsonLine (branch : Branch) : String := branch.toJson.compact ++ "\n"

/-- The machines of a stream as lines of JSON. -/
def Setting.streamLines (setting : Setting) (chunks : List Chunk) :
    StateM Memory (StreamResult String) := do
  let result ← setting.stream chunks
  return ⟨result.results.map Branch.jsonLine, result.failure⟩

end Flowscript
