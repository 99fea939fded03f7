import Flowscript.Proofs.NormalForm

/-!
# Keys that are spelled in full

What a key that spells its property in full is worth. While keys are read, nothing overrides such a
key but another one that spells the same property. Behind that two values move, and there the
spelling counts no more: a value that arrives takes the place of the one that it finds. The main
statement tells the value of every property that some key spells in full.
-/

namespace Flowscript

/-! ## Spelled keys mean their property -/

namespace Text

/-- A character is ASCII if its lower-case form is. -/
theorem lowerChar_of_toLower {c : Char} (h : c.toLower.toNat < 0x80) :
    lowerChar c = [c.toLower] := by
  have hascii : c.toNat < 0x80 := by
    by_contra hlarge
    have hupper : ¬ (c.val ≥ 'A'.val ∧ c.val ≤ 'Z'.val) := by
      rintro ⟨-, hle⟩
      exact hlarge (Nat.lt_of_le_of_lt (UInt32.le_iff_toNat_le.mp hle) (by decide))
    have hsame : c.toLower = c := by
      unfold Char.toLower
      rw [dif_neg hupper]
    exact hlarge (hsame ▸ h)
  rw [lowerChar, if_pos hascii]

theorem lowerAfter_of_toLower {cs : List Char} (h : ∀ c ∈ cs, c.toLower.toNat < 0x80)
    (before : List Char) : lowerAfter before cs = cs.map Char.toLower := by
  induction cs generalizing before with
  | nil => rfl
  | cons c rest ih =>
    have hc := h c List.mem_cons_self
    have hsigma : c.toNat ≠ 0x3A3 := by
      intro heq
      obtain rfl : c = 'Σ' := Char.toNat_inj.mp heq
      exact absurd hc (by decide)
    rw [lowerAfter, if_neg hsigma, lowerChar_of_toLower hc,
      ih fun d hd => h d (List.mem_cons_of_mem _ hd)]
    rfl

end Text

namespace Property

/-- A key that spells a property in full means that property. -/
theorem ofKey?_of_isSpelledBy {p : Property} (hp : p ∈ canonical) {key : String}
    (h : p.isSpelledBy key = true) : ofKey? key = some p := by
  have hsame : p.text.toList.map Char.toLower = key.toList.map Char.toLower := by
    simpa [isSpelledBy] using h
  have hascii : ∀ q ∈ canonical, q.text.toList.all (fun c => c.toLower.toNat < 0x80) = true := by
    decide +kernel
  have htext : ∀ c ∈ p.text.toList, c.toLower.toNat < 0x80 := fun c hc =>
    of_decide_eq_true (List.all_eq_true.mp (hascii p hp) c hc)
  have hkey : ∀ c ∈ key.toList, c.toLower.toNat < 0x80 := by
    intro c hc
    have hlower : c.toLower ∈ p.text.toList.map Char.toLower := hsame ▸ List.mem_map_of_mem hc
    obtain ⟨d, hd, heq⟩ := List.mem_map.mp hlower
    exact heq ▸ htext d hd
  have hlower : Text.lowerCase key.toList = Text.lowerCase p.text.toList := by
    unfold Text.lowerCase
    rw [Text.lowerAfter_of_toLower hkey, Text.lowerAfter_of_toLower htext, hsame]
  -- what a word means depends on its lower-case form alone
  calc ofKey? key = ofKey? p.text := by simp only [ofKey?, bestMatch?, hlower]
    _ = some p := ofKey?_text hp

end Property

namespace Properties

/-! ## Values of properties -/

/-- The value about which the entries of a property decide. -/
def decided? (p : Property) (entries : Entries String Node) : Option Node :=
  (deciding? p (group p entries)).map Prod.snd

/-- The value of the last entry whose key spells a property in full. -/
def spelled? (p : Property) (entries : Entries String Node) : Option Node :=
  (entries.filter fun entry => p.isSpelledBy entry.1).getLast?.map Prod.snd

/-- The property to which a value moves. -/
def destination? : Property → Node → Option Property
  | .result, node => if isPath node then some .resultPath else none
  | .resource, node => if isLiteral node then some .result else none
  | _, _ => none

/-- The value that moves to a property from the one where it was written. -/
def arriving? : Property → Entries String Node → Option Node
  | .resultPath, entries => (decided? .result entries).filter isPath
  | .result, entries => (decided? .resource entries).filter isLiteral
  | _, _ => none

/-- The value that stays where it was written. -/
def staying? (p : Property) (entries : Entries String Node) : Option Node :=
  (decided? p entries).filter fun node => (destination? p node).isNone

theorem get?_named (entries : Entries String Node) (p : Property) :
    (named entries).properties.get? p = decided? p entries := (groups_named entries).value p

/-- While keys are read, nothing overrides one that is spelled in full but another such key. -/
theorem decided?_of_spelled? {entries : Entries String Node} {p : Property}
    (hp : p ∈ Property.canonical) {node : Node} (h : spelled? p entries = some node) :
    decided? p entries = some node := by
  have hgroup : (group p entries).filter (fun entry => p.isSpelledBy entry.1) =
      entries.filter fun entry => p.isSpelledBy entry.1 := by
    rw [group, List.filter_filter]
    apply List.filter_congr
    intro entry _
    cases hspelled : p.isSpelledBy entry.1 with
    | true => simp [Property.ofKey?_of_isSpelledBy hp hspelled]
    | false => rfl
  obtain ⟨entry, hentry, rfl⟩ := Option.map_eq_some_iff.mp h
  rw [decided?, deciding?, hgroup, hentry]
  rfl

/-! ## Values behind the moves -/

/-- A move takes a value of the given kind away from its property and puts it in the place of the
other one's. -/
theorem get?_move {source target : Property} {kind : Node → Bool} {properties : Properties}
    (h : properties.Distinct) (p : Property) :
    (move source target kind properties).get? p =
      match (properties.get? source).filter kind with
      | none => properties.get? p
      | some node =>
        if p = target then some node else if p = source then none else properties.get? p := by
  unfold move
  cases hvalue : properties.get? source with
  | none => rfl
  | some node =>
    cases hkind : kind node with
    | false => simp [Option.filter, hkind]
    | true =>
      simp only [Option.filter, hkind, if_true]
      by_cases htarget : p = target
      · rw [if_pos htarget, htarget, Entries.get?_insert_self]
      · rw [if_neg htarget, Entries.get?_insert_ne htarget]
        by_cases hsource : p = source
        · rw [if_pos hsource, hsource, Entries.get?_erase_self h]
        · rw [if_neg hsource, Entries.get?_erase_ne hsource]

theorem staying?_result (entries : Entries String Node) :
    staying? .result entries =
      match (decided? .result entries).filter isPath with
      | none => decided? .result entries
      | some _ => none := by
  unfold staying?
  cases decided? .result entries with
  | none => rfl
  | some node => cases hpath : isPath node <;> simp [destination?, Option.filter, hpath]

theorem staying?_resource (entries : Entries String Node) :
    staying? .resource entries =
      match (decided? .resource entries).filter isLiteral with
      | none => decided? .resource entries
      | some _ => none := by
  unfold staying?
  cases decided? .resource entries with
  | none => rfl
  | some node => cases hliteral : isLiteral node <;> simp [destination?, Option.filter, hliteral]

/-- Only results and resources move. -/
theorem staying?_of_ne {p : Property} (hresult : p ≠ .result) (hresource : p ≠ .resource)
    (entries : Entries String Node) : staying? p entries = decided? p entries := by
  have hfixed (node : Node) : destination? p node = none := by
    cases p <;> first | rfl | contradiction
  unfold staying?
  cases decided? p entries with
  | none => rfl
  | some node => simp [Option.filter, hfixed]

/-- The value of a property is the one that arrives there, or else the one that stays. -/
theorem get?_ofEntries (entries : Entries String Node) (p : Property) :
    (ofEntries entries).get? p = (arriving? p entries).or (staying? p entries) := by
  have hdistinct := distinct_named entries
  have hliteral : (move .result .resultPath isPath (named entries).properties).get? .resource =
      decided? .resource entries := by
    rw [get?_move hdistinct, ← get?_named]
    split <;> rfl
  unfold ofEntries relocate
  rw [get?_move (distinct_move hdistinct), hliteral, get?_move hdistinct, get?_named, get?_named]
  by_cases hresult : p = .result
  · subst hresult
    rw [staying?_result, arriving?]
    cases (decided? .resource entries).filter isLiteral with
    | some node => rfl
    | none => cases (decided? .result entries).filter isPath <;> rfl
  by_cases hresource : p = .resource
  · subst hresource
    rw [staying?_resource]
    cases (decided? .resource entries).filter isLiteral with
    | some node => rfl
    | none => cases (decided? .result entries).filter isPath <;> rfl
  simp only [staying?_of_ne hresult hresource, if_neg hresult, if_neg hresource]
  by_cases hpath : p = .resultPath
  · subst hpath
    rw [arriving?]
    cases (decided? .resource entries).filter isLiteral <;>
      cases (decided? .result entries).filter isPath <;> rfl
  · have harriving : arriving? p entries = none := by
      cases p <;> first | rfl | contradiction
    rw [harriving]
    simp only [if_neg hpath]
    cases (decided? .resource entries).filter isLiteral <;>
      cases (decided? .result entries).filter isPath <;> rfl

/-! ## Spelled properties -/

/-- A property that some key spells in full has the value of the last such key, whatever else the
mapping says, with two exceptions: that value moves away if it is a result that is a path, or a
resource that is data, and is then the value of the property to which it moves; and a value that
arrives from another property takes the place of the one that was written. -/
theorem get?_ofEntries_spelled {entries : Entries String Node} {p : Property}
    (hp : p ∈ Property.canonical) {node : Node} (h : spelled? p entries = some node) :
    (ofEntries entries).get? p =
        (arriving? p entries).or (if destination? p node = none then some node else none) ∧
      ∀ target, destination? p node = some target →
        (ofEntries entries).get? target = some node := by
  have hdecided := decided?_of_spelled? hp h
  constructor
  · rw [get?_ofEntries, staying?, hdecided]
    cases hmoves : destination? p node <;> simp [Option.filter, hmoves]
  · intro target hmoves
    have harriving : arriving? target entries = some node := by
      unfold destination? at hmoves
      split at hmoves
      · split at hmoves
        · cases hmoves
          rename_i hpath
          simp [arriving?, hdecided, Option.filter, hpath]
        · cases hmoves
      · split at hmoves
        · cases hmoves
          rename_i hliteral
          simp [arriving?, hdecided, Option.filter, hliteral]
        · cases hmoves
      · cases hmoves
    rw [get?_ofEntries, harriving]
    rfl

/-- A result that is spelled in full and moves away, where a resource moves to. -/
theorem get?_ofEntries_spelled_result :
    let entries : Entries String Node :=
      [("ResultPath", .string "$.kept"), ("RESULT", .string "$.out"), ("res", .sequence [])]
    Property.result ∈ Property.canonical ∧ spelled? .result entries = some (.string "$.out") ∧
      (ofEntries entries).get? .result = (arriving? .result entries).or
        (if destination? .result (.string "$.out") = none then some (.string "$.out") else none) ∧
      ∀ target, destination? .result (.string "$.out") = some target →
        (ofEntries entries).get? target = some (.string "$.out") := by
  intro entries
  have hspelled : spelled? .result entries = some (.string "$.out") := rfl
  exact ⟨by decide, hspelled, get?_ofEntries_spelled (by decide) hspelled⟩

/-- A result path that is spelled in full gives way to an abbreviated result, and a result to an
abbreviated resource. -/
theorem spelled_value_replaced :
    let paths : Entries String Node :=
      [("ResultPath", .string "$.kept"), ("resul", .string "$.other")]
    let results : Entries String Node := [("Result", .string "kept"), ("res", .sequence [])]
    (spelled? .resultPath paths = some (.string "$.kept") ∧
        destination? .resultPath (.string "$.kept") = none ∧
        (ofEntries paths).get? .resultPath = some (.string "$.other")) ∧
      spelled? .result results = some (.string "kept") ∧
        destination? .result (.string "kept") = none ∧
        (ofEntries results).get? .result = some (.sequence []) := by
  intro paths results
  have hkeys : Property.ofKey? "ResultPath" = some .resultPath ∧
      Property.ofKey? "resul" = some .result ∧ Property.ofKey? "Result" = some .result ∧
      Property.ofKey? "res" = some .resource := by decide +kernel
  obtain ⟨hpath, hresult, hfull, hresource⟩ := hkeys
  have harriving : isPath (.string "$.other") = true := by decide +kernel
  have hstaying : isPath (.string "kept") = false := by decide +kernel
  refine ⟨⟨rfl, rfl, ?_⟩, rfl, ?_, ?_⟩
  · simp [paths, ofEntries, relocate, named, Draft.add, hpath, hresult, move, harriving,
      Entries.insert, Entries.get?, Entries.erase, Entries.has]
  · simp [destination?, hstaying]
  · simp [results, ofEntries, relocate, named, Draft.add, hfull, hresource, move, hstaying,
      isLiteral, Entries.insert, Entries.get?, Entries.erase, Entries.has]

end Properties
end Flowscript
