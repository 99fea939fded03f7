import Mathlib.Data.List.Induction
import Flowscript.CommandLine.Arguments

/-!
# The grammar of the arguments

Arguments are read word by word. Here they are told as a whole: they are elements of one or two
words each, and at most one of them gives the input. The main statement is that arguments are
compiled exactly if they have this form, with the settings that the elements stand for, and that
otherwise the first word is reported that no element can be made of.
-/

namespace Flowscript.CommandLine

/-! ## Words -/

/-- An option that is a word by itself. -/
inductive Flag where
  | stream
  | pretty
  | validate
  | verbose
deriving DecidableEq

/-- How a flag can be written. -/
def Flag.spellings : Flag → List String
  | .stream => ["--stream"]
  | .pretty => ["--pretty"]
  | .validate => ["--validate"]
  | .verbose => ["--verbose", "-v"]

/-- The words that ask for something else than a compilation. -/
def inquiries : List String := ["--help", "-h", "--version", "-V"]

/-- The words that are known as options. -/
def options : List String :=
  inquiries ++ [Flag.stream, .pretty, .validate, .verbose].flatMap Flag.spellings ++
    ["--resources"]

/-- A word that stands for an input. -/
def NamesInput (word : String) : Prop := word = standardInput ∨ word.toList.head? ≠ some '-'

instance (word : String) : Decidable (NamesInput word) := inferInstanceAs (Decidable (_ ∨ _))

theorem looksLikeOption_iff (word : String) :
    (word.toList.head? = some '-' && word ≠ standardInput) = true ↔ ¬ NamesInput word := by
  simp [NamesInput, and_comm]

/-- A word that looks like an option and is none. -/
structure Unknown (word : String) : Prop where
  notMem_options : word ∉ options
  not_namesInput : ¬ NamesInput word

theorem NamesInput.notMem_options {word : String} (h : NamesInput word) : word ∉ options := by
  have hoptions : ∀ option ∈ options, ¬ NamesInput option := by decide
  exact fun hmem => hoptions word hmem h

theorem ne_resources_of_notMem_options {word : String} (h : word ∉ options) :
    word ≠ "--resources" := by
  rintro rfl
  exact h (by decide)

theorem Flag.mem_options {flag : Flag} : ∀ word ∈ flag.spellings, word ∈ options := by
  cases flag <;> decide

theorem Flag.eq_of_mem_spellings {flag other : Flag} :
    ∀ word ∈ flag.spellings, word ∈ other.spellings → flag = other := by
  cases flag <;> cases other <;> decide

theorem Flag.not_namesInput {flag : Flag} : ∀ word ∈ flag.spellings, ¬ NamesInput word := by
  cases flag <;> decide

theorem not_namesInput_resources : ¬ NamesInput "--resources" := by decide

theorem Flag.ne_resources {flag : Flag} : ∀ word ∈ flag.spellings, word ≠ "--resources" := by
  cases flag <;> decide

/-! ## Reading a word -/

section ReadingWords

variable (config : Config) (placed : Bool) (rest : List String)

/-- The settings with a flag. -/
def Config.raise : Flag → Config
  | .stream => { config with stream := true }
  | .pretty => { config with pretty := true }
  | .validate => { config with validate := true }
  | .verbose => { config with verbose := true }

theorem parseFrom_flag {flag : Flag} {word : String} (h : word ∈ flag.spellings) :
    parseFrom config placed (word :: rest) = parseFrom (config.raise flag) placed rest := by
  rw [parseFrom.eq_def]
  cases flag <;> simp only [Flag.spellings, List.mem_cons, List.not_mem_nil, or_false] at h
  case verbose => rcases h with rfl | rfl <;> simp [Config.raise]
  all_goals
    subst h
    simp [Config.raise]

theorem parseFrom_resources (path : String) :
    parseFrom config placed ("--resources" :: path :: rest) =
      parseFrom { config with resources := some path } placed rest := by
  rw [parseFrom.eq_def]
  simp

theorem parseFrom_resources_alone :
    parseFrom config placed ["--resources"] = .error .missingFile := by
  rw [parseFrom.eq_def]
  simp

/-- A word that is no option stands for the input, or looks like an option. -/
theorem parseFrom_of_notMem_options {word : String} (h : word ∉ options) :
    parseFrom config placed (word :: rest) =
      if NamesInput word then
        if placed then .error (.unexpected word)
        else parseFrom { config with input := word } true rest
      else .error (.unknownOption word) := by
  simp only [options, inquiries, Flag.spellings, List.flatMap_cons, List.flatMap_nil,
    List.cons_append, List.nil_append, List.mem_cons, List.not_mem_nil, or_false, not_or] at h
  rw [parseFrom.eq_def]
  simp only [h, decide_false, Bool.or_self, Bool.false_eq_true, if_false, looksLikeOption_iff,
    ite_not]

end ReadingWords

/-! ## Elements -/

/-- A part of the arguments: a flag, the option for the resources with the word behind it, or the
word for the input. -/
inductive Element where
  | flag (kind : Flag) (word : String) (spelled : word ∈ kind.spellings)
  | resources (path : String)
  | input (word : String) (named : NamesInput word)

namespace Element

/-- How an element is written. -/
def words : Element → List String
  | flag _ word _ => [word]
  | resources path => ["--resources", path]
  | input word _ => [word]

def flag? : Element → Option Flag
  | flag kind _ _ => some kind
  | _ => none

def path? : Element → Option String
  | resources path => some path
  | _ => none

def input? : Element → Option String
  | input word _ => some word
  | _ => none

/-- The settings with what an element adds to them. -/
def apply (config : Config) : Element → Config
  | flag kind _ _ => config.raise kind
  | resources path => { config with resources := some path }
  | input word _ => { config with input := word }

/-- The words in front tell which element comes first, and what follows it: a flag, the option for
the resources and the word for an input are never the same word. -/
theorem words_append_inj {element other : Element} {rest rest' : List String}
    (h : element.words ++ rest = other.words ++ rest') : element = other ∧ rest = rest' := by
  cases element <;> cases other <;>
    simp only [words, List.cons_append, List.nil_append, List.cons.injEq] at h
  case flag.flag kind word spelled other _ spelled' =>
    obtain ⟨rfl, rfl⟩ := h
    obtain rfl := Flag.eq_of_mem_spellings word spelled spelled'
    exact ⟨rfl, rfl⟩
  case flag.resources spelled _ => exact absurd h.1 (Flag.ne_resources _ spelled)
  case flag.input spelled _ named => exact absurd (h.1 ▸ named) (Flag.not_namesInput _ spelled)
  case resources.flag spelled => exact absurd h.1.symm (Flag.ne_resources _ spelled)
  case resources.resources =>
    obtain ⟨-, rfl, rfl⟩ := h
    exact ⟨rfl, rfl⟩
  case resources.input named => exact absurd (h.1 ▸ named) not_namesInput_resources
  case input.flag named _ _ spelled => exact absurd (h.1 ▸ named) (Flag.not_namesInput _ spelled)
  case input.resources named _ => exact absurd (h.1 ▸ named) not_namesInput_resources
  case input.input =>
    obtain ⟨rfl, rfl⟩ := h
    exact ⟨rfl, rfl⟩

/-- Reading goes on behind an element, if it does not give the input for the second time. -/
theorem parseFrom_words {element : Element} {placed : Bool}
    (h : placed = false ∨ element.input? = none) (config : Config) (rest : List String) :
    parseFrom config placed (element.words ++ rest) =
      parseFrom (element.apply config) (placed || element.input?.isSome) rest := by
  cases element with
  | flag kind word spelled =>
    simpa [words, apply, input?] using parseFrom_flag config placed rest spelled
  | resources path => simpa [words, apply, input?] using parseFrom_resources config placed rest path
  | input word named =>
    obtain rfl : placed = false := by simpa [input?] using h
    simp [words, apply, input?, parseFrom_of_notMem_options config false rest named.notMem_options,
      named]

end Element

/-! ## Elements in a row -/

/-- How elements are written one after the other. -/
def wordsOf (elements : List Element) : List String := elements.flatMap Element.words

@[simp]
theorem wordsOf_nil : wordsOf [] = [] := rfl

@[simp]
theorem wordsOf_cons (element : Element) (elements : List Element) :
    wordsOf (element :: elements) = element.words ++ wordsOf elements := rfl

/-- Whether the word for the input is among elements, or was in front of them. -/
def placedBy (placed : Bool) (elements : List Element) : Bool :=
  placed || elements.any (·.input?.isSome)

/-- No more than one of the elements gives the input, and none if a word in front of them does. -/
def Fits (placed : Bool) (elements : List Element) : Prop :=
  (elements.filterMap Element.input?).length + placed.toNat ≤ 1

theorem fits_nil (placed : Bool) : Fits placed [] := by
  cases placed <;> simp [Fits]

theorem fits_cons {placed : Bool} {element : Element} {elements : List Element} :
    Fits placed (element :: elements) ↔
      (placed = false ∨ element.input? = none) ∧
        Fits (placed || element.input?.isSome) elements := by
  rw [Fits, Fits, List.filterMap_cons]
  generalize elements.filterMap Element.input? = inputs
  cases placed <;> cases element.input? <;> simp

theorem placedBy_cons (placed : Bool) (element : Element) (elements : List Element) :
    placedBy placed (element :: elements) =
      placedBy (placed || element.input?.isSome) elements := by
  simp [placedBy, Bool.or_assoc]

theorem parseFrom_wordsOf {placed : Bool} {elements : List Element} (h : Fits placed elements)
    (config : Config) (rest : List String) :
    parseFrom config placed (wordsOf elements ++ rest) =
      parseFrom (elements.foldl Element.apply config) (placedBy placed elements) rest := by
  induction elements generalizing placed config with
  | nil => simp [placedBy]
  | cons element elements ih =>
    obtain ⟨helement, hrest⟩ := fits_cons.mp h
    rw [wordsOf_cons, List.append_assoc, Element.parseFrom_words helement, ih hrest,
      placedBy_cons, List.foldl_cons]

/-- The settings that elements stand for: the flags that are among them, the path that is given
last, and the word for the input, or standard input if there is none. -/
def Config.ofElements (elements : List Element) : Config where
  input := (elements.filterMap Element.input?).getLast?.getD standardInput
  resources := (elements.filterMap Element.path?).getLast?
  stream := .stream ∈ elements.filterMap Element.flag?
  pretty := .pretty ∈ elements.filterMap Element.flag?
  validate := .validate ∈ elements.filterMap Element.flag?
  verbose := .verbose ∈ elements.filterMap Element.flag?

/-- Each element adds to what those in front of it stand for. -/
theorem foldl_apply (elements : List Element) :
    elements.foldl Element.apply {} = Config.ofElements elements := by
  induction elements using List.reverseRecOn with
  | nil => rfl
  | append_singleton elements element ih =>
    rw [List.foldl_append, ih]
    cases element with
    | flag kind word spelled =>
      cases kind <;> simp [Config.ofElements, Element.apply, Config.raise, Element.input?,
        Element.path?, Element.flag?]
    | resources path =>
      simp [Config.ofElements, Element.apply, Element.input?, Element.path?, Element.flag?]
    | input word named =>
      simp [Config.ofElements, Element.apply, Element.input?, Element.path?, Element.flag?]

/-! ## The grammar -/

/-- Words are read as elements, no more than one of which gives the input. -/
structure Reads (words : List String) (elements : List Element) : Prop where
  wordsOf_eq : wordsOf elements = words
  input_once : (elements.filterMap Element.input?).length ≤ 1

/-- Words that can be read as elements. -/
def Grammatical (words : List String) : Prop := ∃ elements, Reads words elements

namespace Reads

variable {words : List String} {elements other : List Element}

theorem of_fits (h : Fits false elements) : Reads (wordsOf elements) elements := ⟨rfl, h⟩

theorem parse_eq (h : Reads words elements) :
    parse words = .ok (.compile (.ofElements elements)) := by
  have hfits : Fits false elements := h.input_once
  have hparsed := parseFrom_wordsOf hfits {} []
  rw [List.append_nil, h.wordsOf_eq, foldl_apply] at hparsed
  exact hparsed

/-- The order of elements matters for nothing but the last path. -/
theorem ofElements_perm (h : Reads words elements) (hperm : other.Perm elements) :
    Config.ofElements other = { Config.ofElements elements with
      resources := (other.filterMap Element.path?).getLast? } := by
  have hinput : other.filterMap Element.input? = elements.filterMap Element.input? := by
    have hinputs := hperm.filterMap Element.input?
    match hlist : elements.filterMap Element.input?, h.input_once with
    | [], _ => rw [hlist] at hinputs; exact hinputs.eq_nil
    | [word], _ => rw [hlist] at hinputs; exact hinputs.eq_singleton
  have hflags (kind : Flag) : kind ∈ other.filterMap Element.flag? ↔
      kind ∈ elements.filterMap Element.flag? := (hperm.filterMap Element.flag?).mem_iff
  simp only [Config.ofElements, hinput, hflags]

end Reads

/-- Two neighbours may change places for the last path, unless they are two different paths behind
which there is no other. -/
theorem getLast?_swap (before after : List Element) (first second : Element) :
    ((before ++ second :: first :: after).filterMap Element.path?).getLast? =
        ((before ++ first :: second :: after).filterMap Element.path?).getLast? ↔
      ∀ path other, first = .resources path → second = .resources other →
        path = other ∨ ∃ element ∈ after, element.path?.isSome := by
  have hafter : (∃ element ∈ after, element.path?.isSome) ↔
      after.filterMap Element.path? ≠ [] := by simp [Option.isSome_iff_ne_none]
  rw [hafter]
  simp only [List.filterMap_append, List.filterMap_cons]
  generalize after.filterMap Element.path? = paths
  cases first <;> cases second
  case resources.resources path other =>
    cases paths with
    | nil => simp [Element.path?]
    | cons next paths => simp [Element.path?, List.getLast?_cons_cons]
  all_goals simp [Element.path?]

theorem Reads.parse_swap_iff {words : List String} {before after : List Element}
    {first second : Element} (h : Reads words (before ++ first :: second :: after)) :
    parse (wordsOf (before ++ second :: first :: after)) = parse words ↔
      ∀ path other, first = .resources path → second = .resources other →
        path = other ∨ ∃ element ∈ after, element.path?.isSome := by
  have hperm : (before ++ second :: first :: after).Perm (before ++ first :: second :: after) :=
    (List.Perm.swap first second after).append_left before
  have hswapped : Reads _ (before ++ second :: first :: after) :=
    ⟨rfl, (hperm.filterMap Element.input?).length_eq ▸ h.input_once⟩
  rw [hswapped.parse_eq, h.parse_eq, h.ofElements_perm hperm, ← getLast?_swap before after]
  constructor
  · intro hsame
    injection hsame with hsame
    injection hsame with hsame
    exact congrArg Config.resources hsame
  · intro hpaths
    rw [hpaths]
    rfl

/-! ## Words that no element can be made of -/

/-- What is said about a word that no element can be made of. -/
def ArgumentError.about (word : String) : ArgumentError :=
  if word = "--resources" then .missingFile
  else if NamesInput word then .unexpected word
  else .unknownOption word

/-- The message shows the word. -/
theorem toList_infix_message (word : String) :
    word.toList <:+: (ArgumentError.about word).message.toList := by
  rw [ArgumentError.about]
  by_cases hword : word = "--resources"
  · subst hword
    exact ⟨[], " requires a file argument".toList, by decide⟩
  rw [if_neg hword]
  by_cases hinput : NamesInput word
  · have hmessage : (ArgumentError.unexpected word).message.toList =
        "Unexpected argument: ".toList ++ word.toList := String.toList_append
    rw [if_pos hinput, hmessage]
    exact (List.suffix_append _ _).isInfix
  · have hmessage : (ArgumentError.unknownOption word).message.toList =
        "Unknown option: ".toList ++ word.toList := String.toList_append
    rw [if_neg hinput, hmessage]
    exact (List.suffix_append _ _).isInfix

/-- No element starts with a word in front of the words `after`: nothing follows the option for the
resources, the word is unknown, or it would give the input for the second time. -/
inductive Stuck (placed : Bool) : String → List String → Prop
  | alone : Stuck placed "--resources" []
  | unknown {word : String} (after : List String) : Unknown word → Stuck placed word after
  | second {word : String} (after : List String) : placed = true → NamesInput word →
      Stuck placed word after

namespace Stuck

variable {placed : Bool} {word : String} {after : List String}

theorem parseFrom_eq (h : Stuck placed word after) (config : Config) :
    parseFrom config placed (word :: after) = .error (.about word) := by
  cases h with
  | alone => exact parseFrom_resources_alone config placed
  | unknown after hunknown =>
    obtain ⟨hoption, hinput⟩ := hunknown
    rw [parseFrom_of_notMem_options config placed after hoption, if_neg hinput,
      ArgumentError.about, if_neg (ne_resources_of_notMem_options hoption), if_neg hinput]
  | second after hplaced hinput =>
    have hoption := hinput.notMem_options
    rw [parseFrom_of_notMem_options config placed after hoption, if_pos hinput, if_pos hplaced,
      ArgumentError.about, if_neg (ne_resources_of_notMem_options hoption), if_pos hinput]

theorem ne_words_append (h : Stuck placed word after) {element : Element}
    (hfits : placed = false ∨ element.input? = none) (rest : List String) :
    word :: after ≠ element.words ++ rest := by
  intro heq
  cases h <;> cases element <;>
    simp only [Element.words, List.cons_append, List.nil_append, List.cons.injEq] at heq
  case alone.flag spelled => exact Flag.ne_resources _ spelled heq.1.symm
  case alone.resources => cases heq.2
  case alone.input named => exact not_namesInput_resources (heq.1 ▸ named)
  case unknown.flag hunknown _ _ spelled =>
    exact hunknown.notMem_options (heq.1 ▸ Flag.mem_options _ spelled)
  case unknown.resources hunknown _ =>
    exact ne_resources_of_notMem_options hunknown.notMem_options heq.1
  case unknown.input hunknown _ named => exact hunknown.not_namesInput (heq.1 ▸ named)
  case second.flag named _ _ spelled => exact Flag.not_namesInput _ spelled (heq.1 ▸ named)
  case second.resources named _ => exact not_namesInput_resources (heq.1 ▸ named)
  case second.input hplaced _ _ _ => simp [hplaced, Element.input?] at hfits

/-- What can be read of some words does not reach beyond a word that no element starts with. Two
readings of the same words go together as long as both go on, and one of them stops there. -/
theorem length_le {elements other : List Element} {rest : List String}
    (h : Stuck (placedBy placed elements) word after) (hother : Fits placed other)
    (heq : wordsOf elements ++ word :: after = wordsOf other ++ rest) :
    (wordsOf other).length ≤ (wordsOf elements).length := by
  induction elements generalizing placed other with
  | nil =>
    cases other with
    | nil => exact Nat.le_refl _
    | cons element other =>
      rw [wordsOf_cons, List.append_assoc] at heq
      have hstuck : Stuck placed word after := by simpa [placedBy] using h
      exact absurd heq (hstuck.ne_words_append (fits_cons.mp hother).1 _)
  | cons element elements ih =>
    cases other with
    | nil => exact Nat.zero_le _
    | cons element' other =>
      rw [wordsOf_cons, wordsOf_cons, List.append_assoc, List.append_assoc] at heq
      obtain ⟨rfl, hrest⟩ := Element.words_append_inj heq
      rw [placedBy_cons] at h
      have hlength := ih h (fits_cons.mp hother).2 hrest
      simpa using hlength

end Stuck

/-- Words are elements up to a word that no element starts with, if there is one. -/
def SplitsUp (placed : Bool) (words : List String) : Prop :=
  ∃ elements, Fits placed elements ∧
    (words = wordsOf elements ∨ ∃ word after, words = wordsOf elements ++ word :: after ∧
      Stuck (placedBy placed elements) word after)

theorem SplitsUp.cons {placed : Bool} {rest : List String} (element : Element)
    (helement : placed = false ∨ element.input? = none)
    (h : SplitsUp (placed || element.input?.isSome) rest) :
    SplitsUp placed (element.words ++ rest) := by
  obtain ⟨elements, hfits, hwords⟩ := h
  refine ⟨element :: elements, fits_cons.mpr ⟨helement, hfits⟩, ?_⟩
  rw [wordsOf_cons, placedBy_cons]
  rcases hwords with rfl | ⟨word, after, rfl, hstuck⟩
  · exact .inl rfl
  · exact .inr ⟨word, after, (List.append_assoc ..).symm, hstuck⟩

theorem Stuck.splitsUp {placed : Bool} {word : String} {after : List String}
    (h : Stuck placed word after) : SplitsUp placed (word :: after) :=
  ⟨[], fits_nil placed, .inr ⟨word, after, rfl, by simpa [placedBy] using h⟩⟩

theorem mem_options_cases {word : String} (h : word ∈ options) :
    word ∈ inquiries ∨ (∃ kind : Flag, word ∈ kind.spellings) ∨ word = "--resources" := by
  simp only [options, List.mem_append, List.mem_flatMap, List.mem_singleton] at h
  rcases h with (hmem | ⟨kind, -, hmem⟩) | hmem
  · exact .inl hmem
  · exact .inr (.inl ⟨kind, hmem⟩)
  · exact .inr (.inr hmem)

theorem splitsUp (placed : Bool) (words : List String)
    (hasks : ∀ word ∈ inquiries, word ∉ words) : SplitsUp placed words := by
  -- on the length, because the option for the resources takes the word behind it along
  induction hlength : words.length using Nat.strongRecOn generalizing placed words with
  | ind length ih =>
    cases words with
    | nil => exact ⟨[], fits_nil placed, .inl rfl⟩
    | cons word rest =>
      have hword : word ∉ inquiries := fun hmem => hasks word hmem List.mem_cons_self
      have hrest : ∀ asked ∈ inquiries, asked ∉ rest := fun asked hasked hmem =>
        hasks asked hasked (List.mem_cons_of_mem _ hmem)
      have hshorter : rest.length < length := by
        rw [← hlength, List.length_cons]
        exact Nat.lt_succ_self _
      by_cases hinput : NamesInput word
      · cases placed with
        | true => exact (Stuck.second rest rfl hinput).splitsUp
        | false =>
          exact SplitsUp.cons (.input word hinput) (.inl rfl)
            (ih _ hshorter true rest hrest rfl)
      by_cases hoption : word ∈ options
      · rcases mem_options_cases hoption with hmem | ⟨kind, hmem⟩ | rfl
        · exact absurd hmem hword
        · have hafter := ih _ hshorter placed rest hrest rfl
          exact SplitsUp.cons (.flag kind word hmem) (.inr rfl)
            (by simpa [Element.input?] using hafter)
        · cases rest with
          | nil => exact Stuck.alone.splitsUp
          | cons path rest =>
            have hshortest : rest.length < length := by
              rw [List.length_cons] at hshorter
              omega
            have hafter := ih _ hshortest placed rest
              (fun asked hasked hmem => hrest asked hasked (List.mem_cons_of_mem _ hmem)) rfl
            exact SplitsUp.cons (.resources path) (.inr rfl)
              (by simpa [Element.input?] using hafter)
      · exact (Stuck.unknown rest ⟨hoption, hinput⟩).splitsUp

/-! ## The main statement -/

/-- The first of some words that no element can be made of: what is in front of it can be read, and
no longer start of the words can. -/
def FirstFault (words : List String) (word : String) : Prop :=
  ∃ before after, words = before ++ word :: after ∧ Grammatical before ∧
    ∀ start, start <+: words → Grammatical start → start.length ≤ before.length

theorem Stuck.firstFault {elements : List Element} {word : String} {after : List String}
    (hfits : Fits false elements) (h : Stuck (placedBy false elements) word after) :
    FirstFault (wordsOf elements ++ word :: after) word := by
  refine ⟨wordsOf elements, after, rfl, ⟨elements, .of_fits hfits⟩, ?_⟩
  rintro start ⟨rest, hstart⟩ ⟨others, rfl, hothers⟩
  exact h.length_le hothers hstart.symm

theorem Stuck.parse_eq {elements : List Element} {word : String} {after : List String}
    (hfits : Fits false elements) (h : Stuck (placedBy false elements) word after) :
    parse (wordsOf elements ++ word :: after) = .error (.about word) := by
  rw [parse, parseFrom_wordsOf hfits, h.parseFrom_eq]

theorem grammatical_or_firstFault {words : List String}
    (hasks : ∀ word ∈ inquiries, word ∉ words) :
    Grammatical words ∨ ∃ word, FirstFault words word ∧ parse words = .error (.about word) := by
  obtain ⟨elements, hfits, rfl | ⟨word, after, rfl, hstuck⟩⟩ := splitsUp false words hasks
  · exact .inl ⟨elements, .of_fits hfits⟩
  · exact .inr ⟨word, hstuck.firstFault hfits, hstuck.parse_eq hfits⟩

/-- Arguments among which there is no inquiry are compiled exactly if they are elements in a row, at
most one of which gives the input. The settings are those that the elements stand for, and two
neighbours may change places, unless they are two different paths that no other path follows. Other
arguments are refused, and the message shows the first word that no element can be made of. -/
theorem parse_exact {words : List String} (hasks : ∀ word ∈ inquiries, word ∉ words) :
    ((∃ config, parse words = .ok (.compile config)) ↔ Grammatical words) ∧
    (∀ elements, Reads words elements →
      parse words = .ok (.compile (.ofElements elements))) ∧
    (∀ before after first second, Reads words (before ++ first :: second :: after) →
      (parse (wordsOf (before ++ second :: first :: after)) = parse words ↔
        ∀ path other, first = .resources path → second = .resources other →
          path = other ∨ ∃ element ∈ after, element.path?.isSome)) ∧
    (¬ Grammatical words → ∃ word, FirstFault words word ∧
      parse words = .error (.about word) ∧
      word.toList <:+: (ArgumentError.about word).message.toList) := by
  refine ⟨⟨?_, ?_⟩, fun _ h => h.parse_eq, fun _ _ _ _ h => h.parse_swap_iff, ?_⟩
  · rintro ⟨config, hconfig⟩
    rcases grammatical_or_firstFault hasks with hread | ⟨word, -, herror⟩
    · exact hread
    · rw [hconfig] at herror
      cases herror
  · rintro ⟨elements, hreads⟩
    exact ⟨_, hreads.parse_eq⟩
  · intro hnone
    obtain ⟨word, hfault, herror⟩ := (grammatical_or_firstFault hasks).resolve_left hnone
    exact ⟨word, hfault, herror, toList_infix_message word⟩

/-- A flag that is taken for the path behind the option for the resources. -/
theorem parse_exact_flag_as_path :
    let words := ["--resources", "--stream", "flow.yaml", "-v"]
    (∀ word ∈ inquiries, word ∉ words) ∧ Grammatical words ∧
      parse words = .ok (.compile
        { input := "flow.yaml", resources := some "--stream", verbose := true }) ∧
      parse ["flow.yaml", "--resources", "--stream", "-v"] = parse words := by
  intro words
  have hasks : ∀ word ∈ inquiries, word ∉ words := by decide
  have hreads : Reads words [.resources "--stream", .input "flow.yaml" (by decide),
      .flag .verbose "-v" (by decide)] := ⟨rfl, by decide⟩
  obtain ⟨hgrammatical, hparsed, hswap, -⟩ := parse_exact hasks
  exact ⟨hasks, hgrammatical.mp ⟨_, hparsed _ hreads⟩, hparsed _ hreads,
    (hswap [] _ _ _ hreads).mpr fun _ _ _ hsecond => nomatch hsecond⟩

example : parse ["a.yaml", "--pretty", "b.yaml", "--frobnicate"] =
    .error (.unexpected "b.yaml") := by decide

end Flowscript.CommandLine
