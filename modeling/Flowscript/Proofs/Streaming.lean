import Flowscript.Proofs.Lines
import Flowscript.Proofs.Steps
import Flowscript.Stream

/-!
# Streams as batches

A stream is pulled: chunks are read and lines are compiled in turns, as items are asked for. Here
the same items are told from the whole text: it is what comes before the first chunk that cannot be
read, and its lines are compiled one after the other by one compiler. The main statement is that
both give the same items and remember the same, so that it does not matter where a text was cut.
-/

namespace Flowscript

/-! ## The whole text -/

namespace Chunk

/-- The text in front of the first chunk that cannot be read. -/
def text : List Chunk → String
  | .ok first :: rest => first ++ text rest
  | _ => ""

/-- Why the first chunk cannot be read of those that cannot. -/
def failure? : List Chunk → Option String
  | [] => none
  | .ok _ :: rest => failure? rest
  | .error message :: _ => some message

/-- The lines of a text that is read in chunks. The last line counts without a line feed only if
everything could be read. -/
def lines (chunks : List Chunk) : List String :=
  let (lines, splitter) := ({} : Text.LineSplitter).push (text chunks)
  lines ++ if (failure? chunks).isSome then [] else splitter.finish.toList

/-- The lines that chunks give one after the other behind the text that a splitter holds. -/
def linesFrom (splitter : Text.LineSplitter) : List Chunk → List String
  | [] => splitter.finish.toList
  | .ok first :: rest => (splitter.push first).1 ++ linesFrom (splitter.push first).2 rest
  | .error _ :: _ => []

theorem linesFrom_eq {splitter : Text.LineSplitter} (h : splitter.Clean) (chunks : List Chunk) :
    linesFrom splitter chunks =
      (splitter.push (text chunks)).1 ++
        if (failure? chunks).isSome then [] else (splitter.push (text chunks)).2.finish.toList := by
  induction chunks generalizing splitter with
  | nil => simp [linesFrom, text, failure?, h.push_empty]
  | cons chunk rest ih =>
    cases chunk with
    | error message => simp [linesFrom, text, failure?, h.push_empty]
    | ok first =>
      rw [linesFrom, ih (splitter.clean_push first), text, failure?, splitter.push_append,
        List.append_assoc]

/-- It does not matter for the lines where the text was cut. -/
theorem lines_eq (chunks : List Chunk) : lines chunks = linesFrom {} chunks :=
  (linesFrom_eq Text.LineSplitter.clean_empty chunks).symm

end Chunk

theorem mem_dropLast_cons {α : Type} {a b : α} {rest : List α} (h : b ∈ (a :: rest).dropLast) :
    b = a ∨ b ∈ rest.dropLast := by
  cases rest with
  | nil => cases h
  | cons c rest => exact List.mem_cons.mp h

namespace Setting

variable (setting : Setting) (parse : LineParser)

/-- The items of lines that are compiled one after the other, and the memory behind them. Lines of
which trimming leaves nothing and lines without contents have none, and nothing follows the first
failure. `passed` lines came before, and behind the last line comes the failure to read on, if there
is one. -/
def itemsOfLines (failure? : Option String) (passed : Nat) :
    List String → Memory → List StreamItem × Memory
  | [], memory => (failure?.toList.map fun message => .error (.unreadable message), memory)
  | line :: rest, memory =>
    if Text.trim line.toList = [] then itemsOfLines failure? (passed + 1) rest memory
    else
      match parse line with
      | .error cause => ([.error cause], memory.noting (.lineFailed (passed + 1) cause))
      | .ok node =>
        if node.isNull then
          itemsOfLines failure? (passed + 1) rest (memory.noting (.lineEmpty (passed + 1)))
        else
          match (setting.compileDocuments [node]).outcome memory with
          | (.error cause, after) =>
            ([.error cause], after.noting (.lineFailed (passed + 1) cause))
          | (.ok branch, after) =>
            (itemsOfLines failure? (passed + 1) rest after).map (.ok branch :: ·) id

/-- The items of a text that is read in chunks. -/
def batch (chunks : List Chunk) (memory : Memory) : List StreamItem × Memory :=
  setting.itemsOfLines parse (Chunk.failure? chunks) 0 (Chunk.lines chunks) memory

/-! ## One line -/

theorem outcome_compileLineOrWarn (number : Nat) (line : String) (memory : Memory) :
    (setting.compileLineOrWarn number line parse).outcome memory =
      match parse line with
      | .error cause => (.error cause, memory.noting (.lineFailed number cause))
      | .ok node =>
        if node.isNull then (.ok none, memory.noting (.lineEmpty number))
        else
          match (setting.compileDocuments [node]).outcome memory with
          | (.error cause, after) => (.error cause, after.noting (.lineFailed number cause))
          | (.ok branch, after) => (.ok (some branch), after) := by
  rw [compileLineOrWarn, Compile.outcome_tryCatch, compileLine]
  match parse line with
  | .error cause => rfl
  | .ok node =>
    by_cases hnull : node.isNull
    · simp only [hnull, if_true]
      rfl
    · simp only [hnull, Bool.false_eq_true, if_false, Compile.outcome_bind]
      match (setting.compileDocuments [node]).outcome memory with
      | (.error cause, after) => rfl
      | (.ok branch, after) => rfl

theorem itemsOfLines_blank {failure? : Option String} {passed : Nat} {line : String}
    (hblank : Text.isBlankText line = true) (rest : List String) (memory : Memory) :
    setting.itemsOfLines parse failure? passed (line :: rest) memory =
      setting.itemsOfLines parse failure? (passed + 1) rest memory := by
  rw [itemsOfLines, if_pos (Text.isBlankText_iff.mp hblank)]

/-- The items from a line on, told from what becomes of the line. -/
theorem itemsOfLines_cons {failure? : Option String} {passed : Nat} {line : String}
    (hblank : Text.isBlankText line = false) (rest : List String) (memory : Memory) :
    setting.itemsOfLines parse failure? passed (line :: rest) memory =
      match (setting.compileLineOrWarn (passed + 1) line parse).outcome memory with
      | (.error cause, after) => ([.error cause], after)
      | (.ok none, after) => setting.itemsOfLines parse failure? (passed + 1) rest after
      | (.ok (some branch), after) =>
        (setting.itemsOfLines parse failure? (passed + 1) rest after).map (.ok branch :: ·) id := by
  rw [← Bool.not_eq_true, Text.isBlankText_iff] at hblank
  rw [outcome_compileLineOrWarn, itemsOfLines, if_neg hblank]
  match parse line with
  | .error cause => rfl
  | .ok node =>
    by_cases hnull : node.isNull
    · simp [hnull]
    · simp only [hnull, Bool.false_eq_true, if_false]
      match (setting.compileDocuments [node]).outcome memory with
      | (.error cause, after) => rfl
      | (.ok branch, after) => rfl

end Setting

/-! ## What is left of a stream -/

namespace StreamState

/-- The lines that are left of a stream, those included that are not put together yet. -/
def remaining (s : StreamState) : List String :=
  s.lines ++ if s.exhausted then [] else Chunk.linesFrom s.splitter s.chunks

/-- Why a stream cannot be read to its end. -/
def failure? (s : StreamState) : Option String :=
  if s.exhausted then none else Chunk.failure? s.chunks

theorem remaining_takeLine {s : StreamState} {line : String} {rest : List String}
    (h : s.lines = line :: rest) : s.remaining = line :: (s.takeLine rest).remaining := by
  rw [remaining, h]
  rfl

theorem remaining_takeChunk {s : StreamState} {text : String} {rest : List Chunk}
    (hexhausted : s.exhausted = false) (hchunks : s.chunks = .ok text :: rest) :
    (s.takeChunk text rest).remaining = s.remaining := by
  simp [remaining, takeChunk, hexhausted, hchunks, Chunk.linesFrom]

theorem remaining_takeEnd {s : StreamState} (hexhausted : s.exhausted = false)
    (hchunks : s.chunks = []) : s.takeEnd.remaining = s.remaining := by
  simp [remaining, takeEnd, hexhausted, hchunks, Chunk.linesFrom]

theorem failure?_takeChunk {s : StreamState} {text : String} {rest : List Chunk}
    (hexhausted : s.exhausted = false) (hchunks : s.chunks = .ok text :: rest) :
    (s.takeChunk text rest).failure? = s.failure? := by
  simp [failure?, takeChunk, hexhausted, hchunks, Chunk.failure?]

theorem failure?_takeEnd {s : StreamState} (hexhausted : s.exhausted = false)
    (hchunks : s.chunks = []) : s.takeEnd.failure? = s.failure? := by
  simp [failure?, takeEnd, hexhausted, hchunks, Chunk.failure?]

end StreamState

namespace Setting

variable (setting : Setting) (parse : LineParser)

/-- The items of what is left of a stream. -/
def itemsLeft (s : StreamState) (memory : Memory) : List StreamItem × Memory :=
  setting.itemsOfLines parse s.failure? s.passed s.remaining memory

theorem itemsLeft_takeChunk {s : StreamState} {text : String} {rest : List Chunk}
    (hexhausted : s.exhausted = false) (hchunks : s.chunks = .ok text :: rest) (memory : Memory) :
    setting.itemsLeft parse (s.takeChunk text rest) memory = setting.itemsLeft parse s memory := by
  rw [itemsLeft, itemsLeft, StreamState.remaining_takeChunk hexhausted hchunks,
    StreamState.failure?_takeChunk hexhausted hchunks]
  rfl

theorem itemsLeft_takeEnd {s : StreamState} (hexhausted : s.exhausted = false)
    (hchunks : s.chunks = []) (memory : Memory) :
    setting.itemsLeft parse s.takeEnd memory = setting.itemsLeft parse s memory := by
  rw [itemsLeft, itemsLeft, StreamState.remaining_takeEnd hexhausted hchunks,
    StreamState.failure?_takeEnd hexhausted hchunks]
  rfl

theorem itemsLeft_exhausted {s : StreamState} (hlines : s.lines = [])
    (hexhausted : s.exhausted = true) (memory : Memory) :
    setting.itemsLeft parse s memory = ([], memory) := by
  rw [itemsLeft, StreamState.remaining, StreamState.failure?, hlines, hexhausted]
  rfl

theorem itemsLeft_unreadable {s : StreamState} {message : String} {rest : List Chunk}
    (hlines : s.lines = []) (hexhausted : s.exhausted = false)
    (hchunks : s.chunks = .error message :: rest) (memory : Memory) :
    setting.itemsLeft parse s memory = ([.error (.unreadable message)], memory) := by
  rw [itemsLeft, StreamState.remaining, StreamState.failure?, hlines, hexhausted, hchunks]
  rfl

/-! ## Pulling -/

/-- The items that follow from what was pulled. -/
def itemsPulled {s : StreamState} : s.Pulled × Memory → List StreamItem × Memory
  | (none, after) => ([], after)
  | (some (.error cause, _), after) => ([.error cause], after)
  | (some (.ok branch, t), after) => (setting.itemsLeft parse t after).map (.ok branch :: ·) id

/-- The items behind a step of pulling. -/
theorem itemsPulled_ofBehind {s t : StreamState} (h : t.Behind s) (memory : Memory) :
    setting.itemsPulled parse
        ((return (← setting.pull parse t).ofBehind h : StateM Memory s.Pulled).run memory) =
      setting.itemsPulled parse ((setting.pull parse t).run memory) := by
  simp only [StateT.run_bind]
  rcases (setting.pull parse t).run memory with
    ⟨_ | ⟨cause | branch, u⟩, after⟩ <;> rfl

/-- Pulling gives the first of the items that are left, if there is one. -/
theorem itemsLeft_pull (s : StreamState) (memory : Memory) :
    setting.itemsLeft parse s memory =
      setting.itemsPulled parse ((setting.pull parse s).run memory) := by
  rw [pull]
  split
  next line rest hlines =>
    have hbehind := StreamState.takeLine_behind hlines
    rw [itemsLeft, StreamState.remaining_takeLine hlines]
    cases hblank : Text.isBlankText line with
    | true =>
      rw [itemsOfLines_blank _ _ hblank]
      exact (itemsLeft_pull (s.takeLine rest) memory).trans (itemsPulled_ofBehind ..).symm
    | false =>
      rw [itemsOfLines_cons _ _ hblank]
      simp only [Bool.false_eq_true, if_false, Compile.run_bind]
      rcases (setting.compileLineOrWarn (s.passed + 1) line parse).outcome memory with
        ⟨cause | _ | branch, after⟩
      · rfl
      · exact (itemsLeft_pull (s.takeLine rest) after).trans (itemsPulled_ofBehind ..).symm
      · rfl
  next hlines =>
    split
    next hexhausted =>
      exact itemsLeft_exhausted _ _ hlines hexhausted memory
    next hexhausted =>
      split
      next text rest hchunks =>
        have hbehind : (s.takeChunk text rest).Behind s := StreamState.takeChunk_behind hchunks
        rw [itemsPulled_ofBehind, ← itemsLeft_pull, itemsLeft_takeChunk _ _ hexhausted hchunks]
      next message rest hchunks =>
        exact itemsLeft_unreadable _ _ hlines hexhausted hchunks memory
      next hchunks =>
        have hbehind := StreamState.takeEnd_behind hexhausted
        rw [itemsPulled_ofBehind, ← itemsLeft_pull, itemsLeft_takeEnd _ _ hexhausted hchunks]
termination_by s
decreasing_by all_goals exact hbehind

/-- All items that are left come out, unless the last item was a failure. -/
theorem run_items (s : StreamState) (memory : Memory) :
    (setting.items parse s).run memory =
      if s.failed then ([], memory) else setting.itemsLeft parse s memory := by
  rw [items, next]
  cases hfailed : s.failed with
  | true => rfl
  | false =>
    rw [itemsLeft_pull]
    simp only [Bool.false_eq_true, if_false, bind_assoc, StateT.run_bind]
    rcases (setting.pull parse s).run memory with ⟨_ | ⟨cause | branch, t⟩, after⟩
    · rfl
    · have hrest := run_items { t.1 with failed := true } after
      change ((setting.items parse { t.1 with failed := true }).run after).map (_ :: ·) id = _
      rw [hrest]
      rfl
    · have hrest := run_items { t.1 with failed := false } after
      change ((setting.items parse { t.1 with failed := false }).run after).map (_ :: ·) id = _
      rw [hrest]
      rfl
termination_by s
decreasing_by all_goals exact t.2

/-! ## Failures -/

/-- Only the last item of lines is a failure. -/
theorem isOk_itemsOfLines (failure? : Option String) (passed : Nat) (lines : List String)
    (memory : Memory) {item : StreamItem}
    (h : item ∈ (setting.itemsOfLines parse failure? passed lines memory).1.dropLast) :
    item.isOk = true := by
  induction lines generalizing passed memory with
  | nil => cases failure? <;> cases h
  | cons line rest ih =>
    cases hblank : Text.isBlankText line with
    | true =>
      rw [itemsOfLines_blank _ _ hblank] at h
      exact ih _ _ h
    | false =>
      rw [itemsOfLines_cons _ _ hblank] at h
      rcases hline : (setting.compileLineOrWarn (passed + 1) line parse).outcome memory with
        ⟨cause | _ | branch, after⟩ <;> rw [hline] at h
      · cases h
      · exact ih _ _ h
      · rw [Prod.map_fst] at h
        obtain rfl | h := mem_dropLast_cons h
        · rfl
        · exact ih _ _ h

/-! ## The main statement -/

/-- A stream has the items of its text, whose lines are compiled one after the other, and leaves
the same memory. So the items do not depend on where a text was cut, and none follows a failure. -/
theorem items_eq_batch (memory : Memory) :
    (∀ chunks, (setting.items parse { chunks }).run memory = setting.batch parse chunks memory) ∧
    (∀ first second, Chunk.failure? first = none → Chunk.failure? second = none →
      Chunk.text first = Chunk.text second →
      (setting.items parse { chunks := first }).run memory =
        (setting.items parse { chunks := second }).run memory) ∧
    ∀ chunks, ∀ item ∈ ((setting.items parse { chunks }).run memory).1.dropLast,
      item.isOk = true := by
  have hitems (chunks : List Chunk) :
      (setting.items parse { chunks }).run memory = setting.batch parse chunks memory := by
    rw [run_items, batch, Chunk.lines_eq]
    rfl
  refine ⟨hitems, fun first second hfirst hsecond htext => ?_, fun chunks item hitem => ?_⟩
  · rw [hitems, hitems, batch, batch, Chunk.lines, Chunk.lines, hfirst, hsecond, htext]
  · rw [hitems] at hitem
    exact isOk_itemsOfLines _ _ _ _ _ _ hitem

theorem items_eq_batch_cut :
    (({} : Setting).items parseLine { chunks := [.ok "!pa", .ok "ss a\n"] }).run {} =
      (({} : Setting).items parseLine { chunks := [.ok "!pass a\n"] }).run {} :=
  (items_eq_batch {} parseLine {}).2.1 _ _ rfl rfl (by decide)

end Setting
end Flowscript
