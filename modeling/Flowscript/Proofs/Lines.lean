import Flowscript.Text.Lines

/-!
# Lines of a text in chunks

Cutting a text into lines does not depend on where it was cut into chunks before: what is left
behind the last line feed takes the place of the text that it is left of.
-/

namespace Flowscript.Text

/-- A text is cut up like its second part behind what the first part leaves. -/
theorem cutLines_append (first second : List Char) :
    cutLines (first ++ second) =
      ((cutLines first).1 ++ (cutLines ((cutLines first).2 ++ second)).1,
        (cutLines ((cutLines first).2 ++ second)).2) := by
  induction first with
  | nil => simp [cutLines]
  | cons c rest ih =>
    rw [List.cons_append, cutLines, ih, cutLines]
    by_cases hc : c = '\n'
    · simp [hc]
    · simp only [hc, if_false]
      rcases cutLines rest with ⟨_ | ⟨line, lines⟩, pending⟩
      -- the character joins the first line that follows, which may be one of the second part
      · rw [List.nil_append, List.nil_append, List.cons_append, cutLines]
        simp [hc]
      · rfl

/-- No line feed is left. -/
theorem notMem_cutLines (text : List Char) : '\n' ∉ (cutLines text).2 := by
  induction text with
  | nil => simp [cutLines]
  | cons c rest ih =>
    rw [cutLines]
    by_cases hc : c = '\n'
    · simpa [hc] using ih
    · simp only [hc, if_false]
      split
      · simp [ih, Ne.symm hc]
      · exact ih

/-- A text without line feeds is left as it is. -/
theorem cutLines_of_notMem {text : List Char} (h : '\n' ∉ text) : cutLines text = ([], text) := by
  induction text with
  | nil => rfl
  | cons c rest ih =>
    obtain ⟨hc, hrest⟩ : '\n' ≠ c ∧ '\n' ∉ rest := by simpa using h
    simp [cutLines, ih hrest, Ne.symm hc]

/-- The first line is what stands in front of the first line feed. -/
theorem cutLines_line {line : List Char} (h : '\n' ∉ line) (rest : List Char) :
    cutLines (line ++ '\n' :: rest) = (line :: (cutLines rest).1, (cutLines rest).2) := by
  induction line with
  | nil => simp [cutLines]
  | cons c line ih =>
    obtain ⟨hc, hline⟩ : '\n' ≠ c ∧ '\n' ∉ line := by simpa using h
    rw [List.cons_append, cutLines, ih hline]
    simp [Ne.symm hc]

/-! ## Carriage returns -/

theorem withoutReturn_concat (line : List Char) (c : Char) :
    withoutReturn (line ++ [c]) = if c = '\r' then line else line ++ [c] := by
  unfold withoutReturn
  rw [List.reverse_append, List.reverse_singleton, List.singleton_append]
  by_cases hc : c = '\r' <;> simp [hc]

theorem withoutReturn_of_notMem {line : List Char} (h : '\r' ∉ line) :
    withoutReturn line = line := by
  rcases line.eq_nil_or_concat with rfl | ⟨start, c, rfl⟩
  · rfl
  · have hc : c ≠ '\r' := fun hreturn => h (by simp [hreturn])
    rw [List.concat_eq_append, withoutReturn_concat, if_neg hc]

theorem withoutReturn_cons {c : Char} (hc : c ≠ '\r') (line : List Char) :
    withoutReturn (c :: line) = c :: withoutReturn line := by
  rcases line.eq_nil_or_concat with rfl | ⟨start, d, rfl⟩
  · exact withoutReturn_of_notMem (by simpa using hc.symm)
  · rw [List.concat_eq_append, ← List.cons_append, withoutReturn_concat, withoutReturn_concat]
    split <;> rfl

theorem mem_of_mem_withoutReturn {line : List Char} {c : Char} (h : c ∈ withoutReturn line) :
    c ∈ line := by
  rcases line.eq_nil_or_concat with rfl | ⟨start, d, rfl⟩
  · exact h
  · rw [List.concat_eq_append] at h ⊢
    rw [withoutReturn_concat] at h
    split at h
    · exact List.mem_append_left _ h
    · exact h

/-- Every carriage return stands directly in front of a line feed. -/
def ReturnsEnd (text : List Char) : Prop :=
  ∀ before after, text = before ++ '\r' :: after → after.head? = some '\n'

theorem returnsEnd_nil : ReturnsEnd [] := by
  intro before after h
  simp at h

theorem returnsEnd_cons {c : Char} {rest : List Char} :
    ReturnsEnd (c :: rest) ↔ (c = '\r' → rest.head? = some '\n') ∧ ReturnsEnd rest := by
  constructor
  · intro h
    refine ⟨fun hc => h [] rest (by rw [hc]; rfl), fun before after hrest => ?_⟩
    exact h (c :: before) after (by rw [hrest]; rfl)
  · intro h before after htext
    cases before with
    | nil =>
      obtain ⟨hc, rfl⟩ := List.cons.inj htext
      exact h.1 hc
    | cons d before =>
      obtain ⟨-, hrest⟩ := List.cons.inj htext
      exact h.2 before after hrest

/-- Then no line has a carriage return. -/
theorem ReturnsEnd.cutLines {text : List Char} (h : ReturnsEnd text) :
    (∀ line ∈ (cutLines text).1, '\r' ∉ withoutReturn line) ∧ '\r' ∉ (cutLines text).2 := by
  induction text with
  | nil => simp [Text.cutLines]
  | cons c rest ih =>
    obtain ⟨hnext, hrest⟩ := returnsEnd_cons.mp h
    obtain ⟨hlines, hpending⟩ := ih hrest
    rw [Text.cutLines]
    by_cases hfeed : c = '\n'
    · simp only [if_pos hfeed]
      refine ⟨fun line hline => ?_, hpending⟩
      rcases List.mem_cons.mp hline with rfl | hline
      · simp [withoutReturn]
      · exact hlines line hline
    · simp only [if_neg hfeed]
      by_cases hreturn : c = '\r'
      · -- the line feed that follows ends a line with nothing but the carriage return in it
        have hhead := hnext hreturn
        subst hreturn
        cases rest with
        | nil => cases hhead
        | cons d rest =>
          obtain rfl : d = '\n' := by simpa using hhead
          simp only [Text.cutLines, if_true] at hlines hpending ⊢
          refine ⟨fun line hline => ?_, hpending⟩
          rcases List.mem_cons.mp hline with rfl | hline
          · simp [withoutReturn]
          · exact hlines line (List.mem_cons_of_mem _ hline)
      · split
        next hnone =>
          exact ⟨nofun, by simpa [Ne.symm hreturn] using hpending⟩
        next first lines hsome =>
          rw [hsome] at hlines
          refine ⟨fun line hline => ?_, hpending⟩
          rcases List.mem_cons.mp hline with rfl | hline
          · rw [withoutReturn_cons hreturn]
            simpa [Ne.symm hreturn] using hlines first List.mem_cons_self
          · exact hlines line (List.mem_cons_of_mem _ hline)

theorem notMem_cutLines_fst {text line : List Char} (h : line ∈ (cutLines text).1) :
    '\n' ∉ line := by
  induction text generalizing line with
  | nil => simp [cutLines] at h
  | cons c rest ih =>
    rw [cutLines] at h
    by_cases hfeed : c = '\n'
    · simp only [if_pos hfeed] at h
      rcases List.mem_cons.mp h with rfl | h
      · simp
      · exact ih h
    · simp only [if_neg hfeed] at h
      split at h
      next => cases h
      next first lines hsome =>
        rw [hsome] at ih
        rcases List.mem_cons.mp h with rfl | h
        · simpa [Ne.symm hfeed] using ih List.mem_cons_self
        · exact ih (List.mem_cons_of_mem _ h)

/-! ## Lines with their ends -/

/-- The lines of a text with the line feeds that end them. -/
def fullLines : List Char → List (List Char)
  | [] => []
  | c :: rest =>
    if c = '\n' then [c] :: fullLines rest
    else (c :: (fullLines rest).headD []) :: (fullLines rest).tail

theorem fullLines_eq (text : List Char) :
    fullLines text = (cutLines text).1.map (· ++ ['\n']) ++
      if (cutLines text).2.isEmpty then [] else [(cutLines text).2] := by
  induction text with
  | nil => rfl
  | cons c rest ih =>
    rw [fullLines, cutLines, ih]
    by_cases hfeed : c = '\n'
    · simp [hfeed]
    · simp only [if_neg hfeed]
      rcases cutLines rest with ⟨_ | ⟨line, lines⟩, _ | ⟨d, pending⟩⟩ <;> rfl

namespace LineSplitter

/-- No line feed waits between two chunks. -/
def Clean (splitter : LineSplitter) : Prop := '\n' ∉ splitter.pending

theorem clean_empty : ({} : LineSplitter).Clean := by simp [Clean]

theorem clean_push (splitter : LineSplitter) (chunk : String) : (splitter.push chunk).2.Clean :=
  notMem_cutLines _

/-- Nothing comes of an empty chunk. -/
theorem Clean.push_empty {splitter : LineSplitter} (h : splitter.Clean) :
    splitter.push "" = ([], splitter) := by
  have hpending : cutLines splitter.pending = ([], splitter.pending) := cutLines_of_notMem h
  simp [push, hpending]

/-- Two chunks give the lines that they give as one. -/
theorem push_append (splitter : LineSplitter) (first second : String) :
    splitter.push (first ++ second) =
      ((splitter.push first).1 ++ ((splitter.push first).2.push second).1,
        ((splitter.push first).2.push second).2) := by
  simp only [push, String.toList_append, ← List.append_assoc]
  rw [cutLines_append (splitter.pending ++ first.toList)]
  simp

/-- A line whose end is found at once. -/
theorem push_line {line : String} (hfeed : '\n' ∉ line.toList) (hreturn : '\r' ∉ line.toList) :
    ({} : LineSplitter).push (line ++ "\n") = ([line], {}) := by
  have hline : cutLines (line.toList ++ ['\n']) = ([line.toList], []) := cutLines_line hfeed []
  simp [push, hline, withoutReturn_of_notMem hreturn]

/-- Lines that are written out one after the other are found again, and nothing is left. -/
theorem push_join {lines : List String}
    (h : ∀ line ∈ lines, '\n' ∉ line.toList ∧ '\r' ∉ line.toList) :
    ({} : LineSplitter).push (String.join (lines.map (· ++ "\n"))) = (lines, {}) := by
  induction lines with
  | nil => rfl
  | cons line rest ih =>
    obtain ⟨hfeed, hreturn⟩ := h line List.mem_cons_self
    have hjoin : String.join ((line :: rest).map (· ++ "\n")) =
        (line ++ "\n") ++ String.join (rest.map (· ++ "\n")) := by
      apply String.toList_inj.mp
      simp [String.toList_join]
    rw [hjoin, push_append, push_line hfeed hreturn,
      ih fun other hother => h other (List.mem_cons_of_mem _ hother)]
    rfl

end LineSplitter
end Flowscript.Text
