import Flowscript.Proofs.CompactText
import Flowscript.Proofs.FileLines
import Flowscript.Proofs.Runs

/-!
# Stream mode

In stream mode the command line writes each machine before the next item is pulled, and checks it
first if that is asked for. Here its output is told from the items of the stream, which are pulled
without a look at what is written: the check changes nothing but the journal. Each machine is
written as one line, so the lines of the output are the machines again.
-/

namespace Flowscript

/-! ## Machines that are handed on -/

namespace Setting

variable {setting : Setting} {α : Type}

/-- Machines that are handed on while a stream is pulled are those of its items, as far as what is
done with one machine neither depends on what was compiled before nor changes it. -/
theorem consumeFrom_eq (hreaders : setting.readers.Agree Memory.JournalsApart)
    {consume : Branch → Compile α} {result : Branch → Except CompileError α}
    (hconsume : ∀ branch memory, ((consume branch).outcome memory).1 = result branch ∧
      ((consume branch).outcome memory).2.JournalsApart memory)
    (s : StreamState) {first second : Memory} (h : first.JournalsApart second) :
    ((setting.consumeFrom consume s).run first).1 =
      StreamResult.ofItems (((setting.items parseLine s).run second).1.map (· >>= result)) := by
  obtain ⟨hpulled, hafter⟩ :=
    alike_next Memory.lockstep_journalsApart hreaders parseLine s first second h
  rw [consumeFrom, items]
  simp only [StateT.run_bind]
  rcases hfirst : (setting.next parseLine s).run first with ⟨pulled, after⟩
  rcases hsecond : (setting.next parseLine s).run second with ⟨other, later⟩
  rw [hfirst, hsecond] at hpulled hafter
  obtain rfl : pulled = other := hpulled
  rcases pulled with _ | ⟨cause | branch, t⟩
  · rfl
  · rfl
  · have hbehind := t.2
    obtain ⟨hresult, hapart⟩ := hconsume branch after
    have hlater : ((consume branch).outcome after).2.JournalsApart later :=
      ⟨hapart.symbols.trans hafter.symbols, hapart.names.trans hafter.names⟩
    have hrest := consumeFrom_eq hreaders hconsume t.1 hlater
    show (((consume branch).run >>= _ : StateM Memory _).run after).1 = StreamResult.ofItems
      ((.ok branch :: ((setting.items parseLine t.1).run later).1).map (· >>= result))
    have hhead : ((Except.ok branch : StreamItem) >>= result) = result branch := rfl
    rw [Compile.run_bind, hresult, List.map_cons, hhead]
    cases result branch with
    | error cause => rfl
    | ok value =>
      rw [StreamResult.ofItems, ← hrest]
      rfl
termination_by s
decreasing_by exact hbehind

end Setting

/-- To check a machine changes nothing but the journal, and finds the same in every memory. -/
theorem outcome_validate_journal (b : Branch) (memory : Memory) :
    ((validate b).outcome memory).1 = ((validate b).outcome {}).1 ∧
      ((validate b).outcome memory).2.JournalsApart memory := by
  unfold validate
  cases b.problems with
  | nil => exact ⟨rfl, rfl, rfl⟩
  | cons problem rest => exact ⟨rfl, rfl, rfl⟩

namespace CommandLine

open Text (LineSplitter)

/-! ## What is written -/

/-- Whether an item of a stream is a machine that is written: it passes the check, if that is asked
for. -/
def passes (checks : Bool) (item : StreamItem) : Bool :=
  match item with
  | .ok branch => !checks || ((validate branch).outcome {}).1.isOk
  | .error _ => false

/-- The machines that are written among the items of a stream, as texts. -/
def written (checks : Bool) (items : List StreamItem) : List String :=
  (items.takeWhile (passes checks)).filterMap fun item =>
    item.toOption.map fun branch => branch.toJson.compact

/-- What is written for a machine, or why it does not pass the check. -/
def rendered (checks : Bool) (branch : Branch) : Except CompileError String :=
  if checks then ((validate branch).outcome {}).1.map fun _ => branch.toJson.compact
  else .ok branch.toJson.compact

theorem outcome_render (config : Config) (branch : Branch) (memory : Memory) :
    ((render config false branch).outcome memory).1 = rendered config.validate branch ∧
      ((render config false branch).outcome memory).2.JournalsApart memory := by
  unfold render rendered
  cases config.validate with
  | false => exact ⟨rfl, rfl, rfl⟩
  | true =>
    obtain ⟨hresult, hafter⟩ := outcome_validate_journal branch memory
    simp only [if_true]
    rw [Compile.outcome_bind, ← hresult]
    rcases hcheck : (validate branch).outcome memory with ⟨cause | _, after⟩
    · rw [hcheck] at hafter
      exact ⟨rfl, hafter⟩
    · rw [hcheck] at hafter
      exact ⟨rfl, hafter⟩

theorem rendered_cases (checks : Bool) (branch : Branch) :
    passes checks (.ok branch) = true ∧ rendered checks branch = .ok branch.toJson.compact ∨
      passes checks (.ok branch) = false ∧ ∃ cause, rendered checks branch = .error cause := by
  unfold passes rendered
  cases checks with
  | false => exact .inl ⟨rfl, rfl⟩
  | true =>
    simp only [Bool.not_true, Bool.false_or, if_true]
    cases ((validate branch).outcome {}).1 with
    | error cause => exact .inr ⟨rfl, cause, rfl⟩
    | ok done => exact .inl ⟨rfl, rfl⟩

/-- The machines up to the first item that is not written, and whether there is one. -/
theorem ofItems_rendered (checks : Bool) (items : List StreamItem) :
    (StreamResult.ofItems (items.map (· >>= rendered checks))).results = written checks items ∧
      ((StreamResult.ofItems (items.map (· >>= rendered checks))).failure = none ↔
        ∀ item ∈ items, passes checks item = true) := by
  induction items with
  | nil => exact ⟨rfl, by simp [StreamResult.ofItems]⟩
  | cons item rest ih =>
    obtain ⟨hresults, hfailure⟩ := ih
    rw [List.map_cons, List.forall_mem_cons]
    cases item with
    | error cause => exact ⟨rfl, by simp [StreamResult.ofItems, passes, bind, Except.bind]⟩
    | ok branch =>
      have hhead : ((Except.ok branch : StreamItem) >>= rendered checks) =
          rendered checks branch := rfl
      rw [hhead, written, List.takeWhile_cons]
      rcases rendered_cases checks branch with ⟨hpasses, hresult⟩ | ⟨hpasses, cause, hresult⟩
      · rw [hresult, hpasses, if_pos rfl, StreamResult.ofItems, StreamResult.cons, hresults]
        exact ⟨rfl, by simpa using hfailure⟩
      · rw [hresult, hpasses, StreamResult.ofItems]
        exact ⟨rfl, by simp⟩

/-- What is written for a machine is one line. -/
theorem written_line {checks : Bool} {items : List StreamItem} {text : String}
    (h : text ∈ written checks items) : '\n' ∉ text.toList ∧ '\r' ∉ text.toList := by
  obtain ⟨item, -, htext⟩ := List.mem_filterMap.mp h
  obtain ⟨branch, -, rfl⟩ := Option.map_eq_some_iff.mp htext
  exact (Json.noControls_compact branch.toJson).notMem

/-! ## Runs in stream mode -/

/-- What references stand for in a run: what the table says that is asked for, or themselves. -/
def Config.Resolves (config : Config) (file : String → File) (resolver : Resolver) : Prop :=
  match config.resources with
  | none => resolver = Resolver.identity
  | some path => ∃ table, (loadTable path (file path)).1 = .ok table ∧
      resolver = Resolver.ofTable table

/-- A run in stream mode compiles each line of the input. -/
theorem run_eq {arguments : List String} {config : Config}
    (harguments : parse arguments = .ok (.compile config)) (hstream : config.stream = true)
    {file : String → File} {stdin : File} {resolver : Resolver}
    (hresolver : config.Resolves file resolver) {bytes : List UInt8}
    (hinput : (if config.input = standardInput then stdin else file config.input) = .bytes bytes) :
    (run arguments file stdin).output =
        (compileEach config { resolver } (File.bytes bytes).chunks).output ∧
      (run arguments file stdin).success =
        (compileEach config { resolver } (File.bytes bytes).chunks).success := by
  have hcompiled : (compileInput config { resolver } (File.bytes bytes)).output =
        (compileEach config { resolver } (File.bytes bytes).chunks).output ∧
      (compileInput config { resolver } (File.bytes bytes)).success =
        (compileEach config { resolver } (File.bytes bytes).chunks).success := by
    rw [compileInput, hstream]
    · exact ⟨rfl, rfl⟩
    · exact nofun
  unfold run
  rw [harguments]
  dsimp only
  unfold compile
  unfold Config.Resolves at hresolver
  cases hpath : config.resources with
  | none =>
    rw [hpath] at hresolver
    subst hresolver
    dsimp only
    rw [hinput]
    exact hcompiled
  | some path =>
    rw [hpath] at hresolver
    obtain ⟨table, htable, rfl⟩ := hresolver
    dsimp only
    rw [htable]
    dsimp only [Except.map]
    rw [hinput]
    exact hcompiled

theorem compileEach_eq (config : Config) (setting : Setting) (chunks : List Chunk) :
    (compileEach config setting chunks).output = String.join
        (((setting.streamWith (render config false) chunks).run {}).1.results.map (· ++ "\n")) ∧
      ((compileEach config setting chunks).success = true ↔
        ((setting.streamWith (render config false) chunks).run {}).1.failure = none) := by
  unfold compileEach
  rcases (setting.streamWith (render config false) chunks).run {} with ⟨result, after⟩
  dsimp only
  cases result.failure with
  | none => exact ⟨rfl, by simp⟩
  | some cause => exact ⟨rfl, by simp⟩

/-- A run in stream mode agrees with the stream of its input. It writes the machines of the stream,
each on a line of its own, up to the first item that is a failure or, if machines are checked, a
machine that does not pass; it succeeds exactly if there is no such item; and the lines of its
output are the machines that it wrote. -/
theorem run_stream {arguments : List String} {config : Config}
    (harguments : parse arguments = .ok (.compile config)) (hstream : config.stream = true)
    {file : String → File} {stdin : File} {resolver : Resolver}
    (hresolver : config.Resolves file resolver) {bytes : List UInt8}
    (hinput : (if config.input = standardInput then stdin else file config.input) = .bytes bytes)
    {chunks : List Chunk} (hread : Chunk.failure? chunks = none)
    (hbytes : Text.Utf8.decode bytes = .ok (Chunk.text chunks))
    (hreturns : Text.ReturnsEnd (Chunk.text chunks).toList) :
    let items := ((({ resolver } : Setting).items parseLine { chunks }).run {}).1
    let texts := written config.validate items
    (run arguments file stdin).output = String.join (texts.map (· ++ "\n")) ∧
      ((run arguments file stdin).exitCode = 0 ↔
        ∀ item ∈ items, passes config.validate item = true) ∧
      (({} : LineSplitter).push (run arguments file stdin).output).1 = texts ∧
      (({} : LineSplitter).push (run arguments file stdin).output).2.finish = none := by
  intro items texts
  obtain ⟨houtput, hsuccess⟩ := run_eq harguments hstream hresolver hinput
  obtain ⟨hlines, hdone⟩ := compileEach_eq config { resolver } (File.bytes bytes).chunks
  have hreaders : ({ resolver } : Setting).readers.Agree Memory.JournalsApart :=
    ReaderTable.standard_builtIn.agree _
  have hconsumed : (((({ resolver } : Setting).streamWith (render config false)
      (File.bytes bytes).chunks).run {}).1 : StreamResult String) =
      StreamResult.ofItems (items.map (· >>= rendered config.validate)) := by
    have hitems := items_file { resolver } parseLine hbytes hread hreturns {}
    show _ = StreamResult.ofItems ((((({ resolver } : Setting).items parseLine
      { chunks }).run {}).1).map (· >>= rendered config.validate))
    rw [← hitems]
    exact Setting.consumeFrom_eq hreaders (outcome_render config) _ ⟨rfl, rfl⟩
  obtain ⟨hresults, hfailure⟩ := ofItems_rendered config.validate items
  have hjoined : (run arguments file stdin).output = String.join (texts.map (· ++ "\n")) := by
    rw [houtput, hlines, hconsumed, hresults]
  have hpushed : ({} : LineSplitter).push (run arguments file stdin).output = (texts, {}) := by
    rw [hjoined]
    exact LineSplitter.push_join fun text htext => written_line htext
  refine ⟨hjoined, ?_, ?_, ?_⟩
  · rw [← hfailure, ← hconsumed, ← hdone, ← hsuccess, Outcome.exitCode]
    cases (run arguments file stdin).success <;> decide
  · rw [hpushed]
  · rw [hpushed]
    rfl

/-- A line that ends in a carriage return and a line feed, in two chunks. -/
theorem run_stream_pass :
    let chunks : List Chunk := [.ok "!pass", .ok " a\r\n"]
    let input := File.bytes [33, 112, 97, 115, 115, 32, 97, 13, 10]
    let outcome := run ["--stream", "--validate"] (fun _ => .bytes []) input
    let items := ((({} : Setting).items parseLine { chunks }).run {}).1
    outcome.output = String.join ((written true items).map (· ++ "\n")) ∧
      (outcome.exitCode = 0 ↔ ∀ item ∈ items, passes true item = true) ∧
      (({} : LineSplitter).push outcome.output).1 = written true items ∧
      (({} : LineSplitter).push outcome.output).2.finish = none := by
  intro chunks input outcome items
  have harguments : parse ["--stream", "--validate"] =
      .ok (.compile { stream := true, validate := true }) := by decide
  have hresolver : Config.Resolves { stream := true, validate := true } (fun _ => .bytes [])
      Resolver.identity := rfl
  have hbytes : Text.Utf8.decode [33, 112, 97, 115, 115, 32, 97, 13, 10] =
      .ok (Chunk.text chunks) := by
    simp [Text.Utf8.decode, Text.Utf8.decodeFrom, Text.Utf8.lead?, Text.Utf8.continuation,
      Chunk.text, chunks, Except.map]
  have hreturns : Text.ReturnsEnd (Chunk.text chunks).toList := by
    simp [Chunk.text, chunks, Text.returnsEnd_cons, Text.returnsEnd_nil]
  exact run_stream harguments rfl hresolver rfl rfl hbytes hreturns

end CommandLine
end Flowscript
