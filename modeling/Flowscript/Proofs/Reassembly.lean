import Flowscript.Proofs.Lines

/-!
# Lines put together from chunks

A splitter looks for the first line feed of the text that waits, hands out the line in front of it,
and starts again behind it. Here its lines are told from the whole text: they are the pieces that
line feeds end, wherever the text was cut into chunks, and the text behind the last line feed is
what the splitter keeps for the end.
-/

namespace Flowscript.Text

/-! ## The pieces of a text -/

/-- A text is made of pieces that line feeds end, and of what follows the last line feed. -/
structure Cut (text : List Char) (pieces : List (List Char)) (rest : List Char) : Prop where
  joined : pieces.flatMap (· ++ ['\n']) ++ rest = text
  notMem_piece : ∀ piece ∈ pieces, '\n' ∉ piece
  notMem_rest : '\n' ∉ rest

theorem flatMap_cutLines (text : List Char) :
    (cutLines text).1.flatMap (· ++ ['\n']) ++ (cutLines text).2 = text := by
  induction text with
  | nil => rfl
  | cons c rest ih =>
    rw [cutLines]
    by_cases hfeed : c = '\n'
    · simpa [hfeed] using ih
    · simp only [if_neg hfeed]
      -- the character joins the first piece, or the rest if there is none
      rcases hrest : cutLines rest with ⟨_ | ⟨line, lines⟩, pending⟩ <;>
        simpa [hrest] using ih

theorem cut_cutLines (text : List Char) : Cut text (cutLines text).1 (cutLines text).2 :=
  ⟨flatMap_cutLines text, fun _ hpiece => notMem_cutLines_fst hpiece, notMem_cutLines text⟩

/-- One carriage return goes with the line feed, and no more than one. -/
theorem withoutReturn_eq (piece : List Char) :
    withoutReturn piece = if piece.getLast? = some '\r' then piece.dropLast else piece := by
  rcases piece.eq_nil_or_concat with rfl | ⟨start, c, rfl⟩
  · rfl
  · rw [List.concat_eq_append, withoutReturn_concat]
    simp

namespace LineSplitter

/-! ## The loop -/

/-- One turn of the loop: the text up to the first line feed is taken off, and its line handed out;
there is no turn if there is no line feed. -/
def turn? (splitter : LineSplitter) : Option (String × LineSplitter) :=
  (splitter.pending.idxOf? '\n').map fun index =>
    (String.ofList (withoutReturn (splitter.pending.take (index + 1)).dropLast),
      ⟨splitter.pending.drop (index + 1)⟩)

/-- The loop ends, after it handed out `lines`. -/
inductive Drains : LineSplitter → List String → LineSplitter → Prop
  | done {splitter : LineSplitter} : splitter.turn? = none → Drains splitter [] splitter
  | turn {splitter next last : LineSplitter} {line : String} {lines : List String} :
      splitter.turn? = some (line, next) → Drains next lines last →
      Drains splitter (line :: lines) last

theorem turn?_of_clean {splitter : LineSplitter} (h : splitter.Clean) : splitter.turn? = none := by
  rw [turn?, List.idxOf?_eq_none_iff.mpr h]
  rfl

theorem turn?_line {line : List Char} (h : '\n' ∉ line) (rest : List Char) :
    turn? ⟨line ++ '\n' :: rest⟩ = some (String.ofList (withoutReturn line), ⟨rest⟩) := by
  have hindex : (line ++ '\n' :: rest).idxOf? '\n' = some line.length := by
    refine List.idxOf?_eq_some_iff.mpr ⟨by simp, by simp, fun j hj hfeed => h ?_⟩
    rw [List.getElem_append_left hj] at hfeed
    exact List.mem_of_getElem hfeed
  have htake : (line ++ '\n' :: rest).take (line.length + 1) = line ++ ['\n'] := by
    rw [List.take_length_add_append]
    rfl
  have hdrop : (line ++ '\n' :: rest).drop (line.length + 1) = rest := by
    rw [List.drop_length_add_append]
    rfl
  simp [turn?, hindex, htake, hdrop]

/-- What the loop hands out is settled by what it starts from. -/
theorem Drains.unique {splitter last last' : LineSplitter} {lines lines' : List String}
    (h : Drains splitter lines last) (h' : Drains splitter lines' last') :
    lines = lines' ∧ last = last' := by
  induction h generalizing lines' with
  | done hnone =>
    cases h' with
    | done _ => exact ⟨rfl, rfl⟩
    | turn hsome _ => simp [hnone] at hsome
  | turn hsome _ ih =>
    cases h' with
    | done hnone => simp [hnone] at hsome
    | turn hsome' hrest =>
      obtain ⟨rfl, rfl⟩ := Prod.mk.inj (Option.some.inj (hsome.symm.trans hsome'))
      obtain ⟨rfl, hlast⟩ := ih hrest
      exact ⟨rfl, hlast⟩

theorem drains_of_cut {text rest : List Char} {pieces : List (List Char)}
    (h : Cut text pieces rest) :
    Drains ⟨text⟩ (pieces.map fun piece => String.ofList (withoutReturn piece)) ⟨rest⟩ := by
  obtain ⟨rfl, hpieces, hrest⟩ := h
  induction pieces with
  | nil => exact .done (turn?_of_clean hrest)
  | cons piece pieces ih =>
    obtain ⟨hpiece, hpieces⟩ := List.forall_mem_cons.mp hpieces
    refine .turn ?_ (ih hpieces)
    simpa using turn?_line hpiece (pieces.flatMap (· ++ ['\n']) ++ rest)

/-- The loop ends on every text, with what is pushed out of the splitter. -/
theorem drains_iff (splitter next : LineSplitter) (chunk : String) (lines : List String) :
    Drains ⟨splitter.pending ++ chunk.toList⟩ lines next ↔ splitter.push chunk = (lines, next) := by
  have hpush : Drains ⟨splitter.pending ++ chunk.toList⟩ (splitter.push chunk).1
      (splitter.push chunk).2 := drains_of_cut (cut_cutLines _)
  constructor
  · intro h
    obtain ⟨hlines, hnext⟩ := hpush.unique h
    exact Prod.ext hlines hnext
  · intro h
    rwa [h] at hpush

/-! ## Chunks -/

/-- Takes chunks in one after the other, and gives the lines that each of them completes. -/
def pushAll (splitter : LineSplitter) : List String → List (List String) × LineSplitter
  | [] => ([], splitter)
  | chunk :: rest =>
    let (lines, next) := splitter.push chunk
    let (more, last) := next.pushAll rest
    (lines :: more, last)

/-- Chunks give the lines that their text gives as one chunk, and leave the same. -/
theorem Clean.pushAll {splitter : LineSplitter} (h : splitter.Clean) (chunks : List String) :
    (splitter.pushAll chunks).1.flatten = (splitter.push (String.join chunks)).1 ∧
      (splitter.pushAll chunks).2 = (splitter.push (String.join chunks)).2 := by
  induction chunks generalizing splitter with
  | nil =>
    rw [String.join_nil, h.push_empty]
    exact ⟨rfl, rfl⟩
  | cons chunk rest ih =>
    obtain ⟨hlines, hlast⟩ := ih (splitter.clean_push chunk)
    rw [String.join_cons, push_append]
    exact ⟨congrArg ((splitter.push chunk).1 ++ ·) hlines, hlast⟩

/-- The lines of chunks are the pieces of their text, each without its line feed and without one
carriage return in front of that. The text behind the last line feed comes at the end, as it is.
No line feed waits between two chunks, and the loop that hands out the lines always ends. -/
theorem pushAll_exact (chunks : List String) :
    (∃ pieces rest, Cut (String.join chunks).toList pieces rest ∧
      (({} : LineSplitter).pushAll chunks).1.flatten = pieces.map (fun piece =>
        String.ofList (if piece.getLast? = some '\r' then piece.dropLast else piece)) ∧
      (({} : LineSplitter).pushAll chunks).2.finish =
        if rest = [] then none else some (String.ofList rest)) ∧
    (∀ count, '\n' ∉ (({} : LineSplitter).pushAll (chunks.take count)).2.pending) ∧
    ∀ (splitter next : LineSplitter) (chunk : String) (lines : List String),
      Drains ⟨splitter.pending ++ chunk.toList⟩ lines next ↔
        splitter.push chunk = (lines, next) := by
  obtain ⟨hlines, hlast⟩ := clean_empty.pushAll chunks
  refine ⟨⟨_, _, cut_cutLines (String.join chunks).toList, ?_, ?_⟩, fun count => ?_, drains_iff⟩
  · rw [hlines, push, List.nil_append]
    exact List.map_congr_left fun piece _ => congrArg String.ofList (withoutReturn_eq piece)
  · rw [hlast, push, List.nil_append, finish]
    simp only [List.isEmpty_iff]
  · rw [(clean_empty.pushAll (chunks.take count)).2]
    exact clean_push _ _

example : ({} : LineSplitter).pushAll ["arn:f", "oo\narn:bar\r", "\n!pa", "ss done"] =
    ([[], ["arn:foo"], ["arn:bar"], []], ⟨"!pass done".toList⟩) := by decide

end LineSplitter
end Flowscript.Text
