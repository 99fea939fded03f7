import Mathlib.Data.List.Forall2
import Mathlib.Tactic.SplitIfs
import Flowscript.CommandLine.Run
import Flowscript.Proofs.Streaming

/-!
# The lines of a file

A file is cut into lines as bytes, and each line is decoded on its own. No byte of a character is
the byte of a line feed, so the lines of a file that can be decoded are the lines of its text; and
no line is changed when it is read again with a line feed behind it.
-/

namespace Flowscript

namespace Text.Utf8

/-! ## Characters -/

/-- What the first byte of a character says. Of several bytes none is below `0x80`, and together
they stand for a code point that no single byte stands for. -/
theorem lead?_eq_some {b : UInt8} {low high count : Nat} (h : lead? b = some (low, high, count)) :
    (count = 0 ∧ b.toNat < 0x80) ∨
      (0 < count ∧ 0x80 ≤ b.toNat ∧ 0x80 ≤ low ∧
        ∀ second, low ≤ second → second ≤ high →
          64 ≤ (b.toNat % (1 <<< (6 - count)) * 64 + second % 64) *
            if count = 1 then 1 else 64) := by
  unfold lead? at h
  dsimp only at h
  split_ifs at h with hsmall
  all_goals cases h
  · exact .inl ⟨rfl, hsmall⟩
  all_goals
    right
    refine ⟨by omega, by omega, by omega, fun second hlow hhigh => ?_⟩
    simp only [Nat.reduceSub, Nat.reduceShiftLeft, Nat.reduceEqDiff, if_true, if_false]
    omega

/-- What is read behind a first byte: bytes not below `0x80`, whatever follows them. -/
theorem continuation_eq_ok {value low high seen count : Nat} {bytes rest : List UInt8} {v : Nat}
    (hlow : 0x80 ≤ low) (h : continuation value low high seen count bytes = .ok (v, rest)) :
    ∃ tail, bytes = tail ++ rest ∧ tail.length = count ∧ 10 ∉ tail ∧
      (value * if count = 0 then 1 else 64) ≤ v ∧
      ∀ other, continuation value low high seen count (tail ++ other) = .ok (v, other) := by
  fun_induction continuation value low high seen count bytes with
  | case1 value low high seen bytes =>
    cases h
    exact ⟨[], rfl, rfl, by simp, by simp, fun other => rfl⟩
  | case2 => cases h
  | case3 value low high seen count b bytes hb ih =>
    obtain ⟨tail, hbytes, hlength, hfeed, hvalue, hother⟩ := ih (by omega) h
    have hb' : 0x80 ≤ b.toNat := by
      simp only [Bool.and_eq_true, decide_eq_true_eq] at hb
      omega
    refine ⟨b :: tail, by rw [hbytes]; rfl, by rw [List.length_cons, hlength], ?_, ?_, ?_⟩
    · intro hmem
      rcases List.mem_cons.mp hmem with hfirst | hmem
      · rw [← hfirst] at hb'
        exact absurd hb' (by decide)
      · exact hfeed hmem
    · rw [if_neg (Nat.succ_ne_zero count)]
      split at hvalue <;> omega
    · intro other
      rw [List.cons_append, continuation, if_pos hb]
      exact hother other
  | case4 => cases h

theorem decodeFrom_cons {b : UInt8} {bytes rest : List UInt8} {low high count value : Nat}
    (hlead : lead? b = some (low, high, count))
    (hvalue : continuation (if count = 0 then b.toNat else b.toNat % (1 <<< (6 - count))) low high 1
      count bytes = .ok (value, rest)) (index : Nat) :
    decodeFrom index (b :: bytes) =
      (decodeFrom (index + count + 1) rest).map (Char.ofNat value :: ·) := by
  rw [decodeFrom.eq_def]
  simp only [hlead]
  split
  next length herror =>
    rw [hvalue] at herror
    cases herror
  next v others hok =>
    rw [hvalue] at hok
    cases hok
    cases decodeFrom (index + count + 1) rest <;> rfl

/-- The bytes are those of a character, whatever stands behind them. The byte of a line feed is in
no character but the line feed. -/
structure Spells (piece : List UInt8) (c : Char) : Prop where
  decode : ∀ index rest,
    decodeFrom index (piece ++ rest) = (decodeFrom (index + piece.length) rest).map (c :: ·)
  feed : piece = [10] ∧ c = '\n' ∨ piece ≠ [] ∧ 10 ∉ piece ∧ c ≠ '\n'

theorem ofNat_ne_feed {value : Nat} (h : value ≠ 10) : Char.ofNat value ≠ '\n' := by
  intro hc
  by_cases hvalid : value.isValidChar
  · rw [Char.ofNat, dif_pos hvalid] at hc
    have hcode : (Char.ofNatAux value hvalid).toNat = value := rfl
    rw [hc] at hcode
    exact h hcode.symm
  · rw [Char.ofNat, dif_neg hvalid] at hc
    cases hc

theorem spells_single {b : UInt8} {low high : Nat} (hlead : lead? b = some (low, high, 0)) :
    Spells [b] (Char.ofNat b.toNat) := by
  refine ⟨fun index other => ?_, ?_⟩
  · rw [List.cons_append, List.nil_append, decodeFrom_cons hlead rfl]
    rfl
  · by_cases hfeed : b = 10
    · subst hfeed
      exact .inl ⟨rfl, rfl⟩
    · refine .inr ⟨nofun, by simpa using Ne.symm hfeed, ofNat_ne_feed ?_⟩
      intro hten
      exact hfeed (UInt8.toNat.inj hten)

/-- Several bytes, of which none is a line feed, are read as one character, which is none either. -/
theorem spells_several {b : UInt8} {bytes rest : List UInt8} {low high count value : Nat}
    (hcount : 0 < count) (hlead : lead? b = some (low, high, count))
    (hvalue : continuation (b.toNat % (1 <<< (6 - count))) low high 1 count bytes =
      .ok (value, rest)) :
    ∃ tail, bytes = tail ++ rest ∧ Spells (b :: tail) (Char.ofNat value) := by
  have hcount' : count ≠ 0 := Nat.ne_of_gt hcount
  rcases lead?_eq_some hlead with ⟨hzero, -⟩ | ⟨-, hlarge, hlow, hsecond⟩
  · exact absurd hzero hcount'
  obtain ⟨more, rfl⟩ : ∃ more, count = more + 1 := ⟨count - 1, by omega⟩
  cases bytes with
  | nil => cases hvalue
  | cons second bytes =>
    rw [continuation] at hvalue
    split at hvalue
    next hrange =>
      obtain ⟨tail, rfl, rfl, hfeed, hbound, hother⟩ := continuation_eq_ok (by omega) hvalue
      have hbounds : low ≤ second.toNat ∧ second.toNat ≤ high := by simpa using hrange
      have hten : (10 : UInt8).toNat = 10 := rfl
      refine ⟨second :: tail, rfl, fun index other => ?_, .inr ⟨nofun, ?_, ofNat_ne_feed ?_⟩⟩
      · rw [List.cons_append, decodeFrom_cons hlead]
        · rfl
        · rw [if_neg hcount', List.cons_append, continuation, if_pos hrange]
          exact hother other
      · intro hmem
        rcases List.mem_cons.mp hmem with rfl | hmem
        · omega
        · rcases List.mem_cons.mp hmem with rfl | hmem
          · omega
          · exact hfeed hmem
      · have hlarge := hsecond second.toNat hbounds.1 hbounds.2
        simp only [Nat.add_eq_right] at hlarge
        have hvalue : 64 ≤ value := Nat.le_trans hlarge hbound
        omega
    next => cases hvalue

/-- What is read as the first character. -/
theorem spells_of_continuation {b : UInt8} {bytes rest : List UInt8} {low high count value : Nat}
    (hlead : lead? b = some (low, high, count))
    (hvalue : continuation (if count = 0 then b.toNat else b.toNat % (1 <<< (6 - count))) low high 1
      count bytes = .ok (value, rest)) :
    ∃ tail, bytes = tail ++ rest ∧ Spells (b :: tail) (Char.ofNat value) := by
  by_cases hcount : count = 0
  · subst hcount
    have hb : b.toNat = value ∧ bytes = rest := by simpa [continuation] using hvalue
    obtain ⟨rfl, rfl⟩ := hb
    exact ⟨[], rfl, spells_single hlead⟩
  · rw [if_neg hcount] at hvalue
    exact spells_several (Nat.pos_of_ne_zero hcount) hlead hvalue

/-! ## Texts -/

/-- The bytes are those of the characters, one after the other. -/
inductive Encoded : List UInt8 → List Char → Prop where
  | nil : Encoded [] []
  | cons {piece c bytes cs} (h : Spells piece c) (hrest : Encoded bytes cs) :
    Encoded (piece ++ bytes) (c :: cs)

theorem encoded_of_decodeFrom {index : Nat} {bytes : List UInt8} {cs : List Char}
    (h : decodeFrom index bytes = .ok cs) : Encoded bytes cs := by
  cases bytes with
  | nil =>
    rw [decodeFrom] at h
    cases h
    exact .nil
  | cons b bytes =>
    rw [decodeFrom.eq_def] at h
    dsimp only at h
    split at h
    next => cases h
    next low high count hlead =>
      split at h
      next => cases h
      next value rest hvalue =>
        obtain ⟨tail, rfl, hspells⟩ := spells_of_continuation hlead hvalue
        split at h
        next => cases h
        next cs hrest =>
          cases h
          exact .cons hspells (encoded_of_decodeFrom hrest)
termination_by bytes.length

theorem Encoded.decodeFrom {bytes : List UInt8} {cs : List Char} (h : Encoded bytes cs)
    (index : Nat) : decodeFrom index bytes = .ok cs := by
  induction h generalizing index with
  | nil => rw [Utf8.decodeFrom]
  | cons h hrest ih =>
    rw [h.decode, ih]
    rfl

theorem Encoded.decode {bytes : List UInt8} {cs : List Char} (h : Encoded bytes cs) :
    decode bytes = .ok (String.ofList cs) := by
  rw [Utf8.decode, h.decodeFrom]
  rfl

theorem encoded_of_decode {bytes : List UInt8} {text : String} (h : decode bytes = .ok text) :
    Encoded bytes text.toList := by
  unfold decode at h
  cases hdecode : Utf8.decodeFrom 0 bytes with
  | error fault =>
    rw [hdecode] at h
    cases h
  | ok cs =>
    rw [hdecode] at h
    cases h
    rw [String.toList_ofList]
    exact encoded_of_decodeFrom hdecode

end Text.Utf8

/-! ## Cutting up bytes -/

namespace CommandLine

open Text (cutLines fullLines withoutReturn)
open Text.Utf8 (Encoded)

/-- Bytes among which there is no line feed stand in front of the first line. -/
theorem byteLines_append {piece : List UInt8} (hne : piece ≠ []) (h : 10 ∉ piece)
    (bytes : List UInt8) :
    byteLines (piece ++ bytes) =
      (piece ++ (byteLines bytes).headD []) :: (byteLines bytes).tail := by
  induction piece with
  | nil => exact absurd rfl hne
  | cons b piece ih =>
    obtain ⟨hb, hpiece⟩ : 10 ≠ b ∧ 10 ∉ piece := by simpa using h
    rw [List.cons_append, byteLines, if_neg (Ne.symm hb)]
    by_cases hnil : piece = []
    · subst hnil
      rw [List.nil_append]
      cases byteLines bytes <;> rfl
    · rw [ih hnil hpiece]
      rfl

/-- The lines of encoded characters are the lines of the characters, encoded. -/
theorem encoded_byteLines {bytes : List UInt8} {cs : List Char} (h : Encoded bytes cs) :
    List.Forall₂ Encoded (byteLines bytes) (fullLines cs) := by
  induction h with
  | nil => exact .nil
  | @cons piece c bytes cs h hrest ih =>
    rcases h.feed with ⟨rfl, rfl⟩ | ⟨hne, hpiece, hc⟩
    · exact .cons (.cons h .nil) ih
    · rw [byteLines_append hne hpiece, fullLines, if_neg hc]
      generalize byteLines bytes = lines at ih
      generalize fullLines cs = texts at ih
      cases ih with
      | nil => exact .cons (.cons h .nil) .nil
      | cons hline hlines => exact .cons (.cons h hline) hlines

/-- A line without what ends it. -/
def lineBody (line : List Char) : List Char :=
  if line.getLast? = some '\n' then withoutReturn line.dropLast else line

theorem chunksOf_encoded {lines : List (List UInt8)} {texts : List (List Char)}
    (h : List.Forall₂ Encoded lines texts) :
    chunksOf lines = texts.map fun text => .ok (String.ofList (lineBody text) ++ "\n") := by
  induction h with
  | nil => rfl
  | cons hline hlines ih =>
    rw [chunksOf, hline.decode]
    dsimp only
    rw [ih, String.toList_ofList]
    rfl

theorem map_lineBody_fullLines (text : List Char) :
    (fullLines text).map lineBody = (cutLines text).1.map withoutReturn ++
      if (cutLines text).2.isEmpty then [] else [(cutLines text).2] := by
  have hpending : lineBody (cutLines text).2 = (cutLines text).2 := by
    apply if_neg
    intro hlast
    exact Text.notMem_cutLines text (List.mem_of_getLast? hlast)
  rw [Text.fullLines_eq, List.map_append, List.map_map]
  congr 1
  · apply List.map_congr_left
    intro line hline
    simp [lineBody]
  · split
    · rfl
    · rw [List.map_singleton, hpending]

/-- The chunks of a file are the lines of its text, each with a line feed. -/
theorem chunks_eq {bytes : List UInt8} {chunks : List Chunk}
    (hbytes : Text.Utf8.decode bytes = .ok (Chunk.text chunks))
    (hread : Chunk.failure? chunks = none) :
    (File.bytes bytes).chunks = (Chunk.lines chunks).map fun line => .ok (line ++ "\n") := by
  have hlines := encoded_byteLines (Text.Utf8.encoded_of_decode hbytes)
  have hbodies : ((fullLines (Chunk.text chunks).toList).map lineBody).map String.ofList =
      Chunk.lines chunks := by
    have hcut : Chunk.lines chunks =
        ((cutLines (Chunk.text chunks).toList).1.map fun line =>
          String.ofList (withoutReturn line)) ++
          (Text.LineSplitter.finish ⟨(cutLines (Chunk.text chunks).toList).2⟩).toList := by
      unfold Chunk.lines
      rw [hread]
      rfl
    rw [map_lineBody_fullLines, List.map_append, List.map_map, hcut, Text.LineSplitter.finish]
    congr 1
    split <;> rfl
  rw [File.chunks, chunksOf_encoded hlines, ← hbodies, List.map_map, List.map_map]
  rfl

/-! ## Reading the lines again -/

/-- In a text in which every carriage return ends a line, what is left of a line neither ends one
nor has an end that could be left out. -/
theorem lines_ended {chunks : List Chunk} (h : Text.ReturnsEnd (Chunk.text chunks).toList) :
    ∀ line ∈ Chunk.lines chunks, '\n' ∉ line.toList ∧ '\r' ∉ line.toList := by
  obtain ⟨hlines, hpending⟩ := h.cutLines
  intro line hline
  simp only [Chunk.lines, Text.LineSplitter.push, List.nil_append, List.mem_append,
    List.mem_map] at hline
  rcases hline with ⟨cut, hcut, rfl⟩ | hlast
  · rw [String.toList_ofList]
    refine ⟨fun hfeed => ?_, hlines cut hcut⟩
    exact Text.notMem_cutLines_fst hcut (Text.mem_of_mem_withoutReturn hfeed)
  · -- the last line, which has no line feed
    split at hlast
    · cases hlast
    · simp only [Text.LineSplitter.finish] at hlast
      split at hlast
      · cases hlast
      · obtain rfl := List.mem_singleton.mp hlast
        rw [String.toList_ofList]
        exact ⟨Text.notMem_cutLines _, hpending⟩

theorem linesFrom_feeds {lines : List String}
    (h : ∀ line ∈ lines, '\n' ∉ line.toList ∧ '\r' ∉ line.toList) :
    Chunk.linesFrom {} (lines.map fun line => .ok (line ++ "\n")) = lines := by
  induction lines with
  | nil => rfl
  | cons line rest ih =>
    obtain ⟨hfeed, hreturn⟩ := h line List.mem_cons_self
    have hrest := ih fun other hother => h other (List.mem_cons_of_mem _ hother)
    rw [List.map_cons, Chunk.linesFrom, Text.LineSplitter.push_line hfeed hreturn, hrest]
    rfl

theorem failure?_feeds (lines : List String) :
    Chunk.failure? (lines.map fun line => .ok (line ++ "\n")) = none := by
  induction lines with
  | nil => rfl
  | cons line rest ih => exact ih

/-- A file has the items of its text, in whatever chunks that is read. -/
theorem items_file (setting : Setting) (parse : LineParser) {bytes : List UInt8}
    {chunks : List Chunk} (hbytes : Text.Utf8.decode bytes = .ok (Chunk.text chunks))
    (hread : Chunk.failure? chunks = none)
    (hreturns : Text.ReturnsEnd (Chunk.text chunks).toList) (memory : Memory) :
    (setting.items parse { chunks := (File.bytes bytes).chunks }).run memory =
      (setting.items parse { chunks }).run memory := by
  have hlines : Chunk.linesFrom {} (File.bytes bytes).chunks = Chunk.linesFrom {} chunks := by
    rw [chunks_eq hbytes hread, linesFrom_feeds (lines_ended hreturns), Chunk.lines_eq]
  have hfailure : Chunk.failure? (File.bytes bytes).chunks = Chunk.failure? chunks := by
    rw [chunks_eq hbytes hread, failure?_feeds, hread]
  rw [Setting.run_items, Setting.run_items]
  simp only [Setting.itemsLeft, StreamState.failure?, StreamState.remaining, hlines, hfailure]

end CommandLine
end Flowscript
