import Flowscript.Proofs.Kept

/-!
# Choice rules as JSON

A choice rule is an object of exactly three fields: its variable, its target, and the operand under
the name of a predicate. The fields may stand in any order. Decoding takes these objects and no
others, and the rule that it gives back is written with the same fields again.
-/

namespace Flowscript.ChoiceClause

/-! ## The fields of a rule -/

/-- The fields that a rule is written with. -/
def written (c : ChoiceClause) : Entries String Json :=
  [("Variable", .string c.variablePath), (c.predicate.name, c.value), ("Next", .string c.next)]

theorem toJson_eq (c : ChoiceClause) : c.toJson = .object c.written := rfl

/-- No predicate has the name of the variable's field. -/
theorem name_ne_variable (p : Predicate) : p.name ≠ "Variable" := by
  obtain ⟨type, relation⟩ := p
  cases type <;> cases relation <;> decide

theorem distinct_written (c : ChoiceClause) : c.written.Distinct := by
  have hvariable : "Variable" ≠ c.predicate.name := (name_ne_variable c.predicate).symm
  have hnext : c.predicate.name ≠ "Next" := c.predicate.name_ne
  simp [written, Entries.Distinct, Entries.keys, hvariable, hnext]

/-! ## Decoding by fields -/

/-- The rule of a variable and a target, and of what is left besides them. -/
def ofOthers (variablePath next : String) : Entries String Json → Except DecodeError ChoiceClause
  | [(name, value)] =>
    match Predicate.ofName? name with
    | some predicate => .ok { variablePath, predicate, value, next }
    | none => .error (.unknownPredicate name)
  | others => .error (.predicateCount others.length)

theorem ofJson_object (fields : Entries String Json) :
    ofJson (.object fields) = (do
      let variablePath ← textField "Variable" fields
      let next ← textField "Next" fields
      ofOthers variablePath next ((fields.erase "Variable").erase "Next")) := rfl

/-- If nothing is left, or several fields, only their number is reported. -/
theorem ofOthers_perm {others rest : Entries String Json} (h : others.Perm rest)
    (variablePath next : String) :
    ofOthers variablePath next others = ofOthers variablePath next rest := by
  match others with
  | [] => rw [h.nil_eq]
  | [entry] => rw [List.singleton_perm.mp h]
  | first :: second :: others =>
    match rest, h.length_eq with
    | [], hlength => simp at hlength
    | [entry], hlength => simp at hlength
    | third :: fourth :: rest, hlength =>
      rw [ofOthers, ofOthers, hlength]
      all_goals simp

/-- The order of the fields does not matter, not even to the failure. -/
theorem ofJson_perm {fields others : Entries String Json} (hperm : fields.Perm others)
    (hdistinct : fields.Distinct) : ofJson (.object fields) = ofJson (.object others) := by
  have hget := Entries.get?_perm hperm hdistinct
  have hleft : ((fields.erase "Variable").erase "Next").Perm
      ((others.erase "Variable").erase "Next") :=
    Entries.erase_perm (Entries.erase_perm hperm hdistinct _)
      (Entries.distinct_erase hdistinct _) _
  rw [ofJson_object, ofJson_object]
  simp only [textField, hget, ofOthers_perm hleft]

/-- A rule is decoded from an object of the fields that it is written with, in any order, and from
nothing else. -/
theorem ofJson_eq_ok_iff {value : Json} {c : ChoiceClause} :
    ofJson value = .ok c ↔ ∃ fields, value = .object fields ∧ fields.Perm c.written := by
  constructor
  · intro h
    cases value with
    | object fields =>
      -- put in front one after the other, the fields that are taken out and the one that is left
      refine ⟨fields, rfl, ?_⟩
      rw [ofJson_object] at h
      obtain ⟨variablePath, hvariable, h⟩ := ok_of_bind h
      obtain ⟨next, hnext, h⟩ := ok_of_bind h
      have hothers :
          Entries.get? "Next" (Entries.erase "Variable" fields) = some (.string next) := by
        rw [Entries.get?_erase_ne (by decide)]
        exact get?_of_textField hnext
      have hfirst := Entries.perm_cons_erase (get?_of_textField hvariable)
      have hlast := Entries.perm_cons_erase hothers
      unfold ofOthers at h
      split at h
      · rename_i name operand hleft
        split at h
        · rename_i predicate hpredicate
          cases h
          rw [hleft, ← Predicate.name_of_ofName? hpredicate] at hlast
          exact hfirst.trans ((hlast.trans (List.Perm.swap _ _ _)).cons _)
        · cases h
      · cases h
    | _ => cases h
  · rintro ⟨fields, rfl, hperm⟩
    rw [ofJson_perm hperm (c.distinct_written.perm hperm.symm)]
    exact ofJson_toJson c

/-! ## The main statement -/

/-- Decoding takes exactly the objects of three fields, in any order: a variable and a target that
are strings, and any operand under the name of a type followed by the name of a relation. The order
of the fields does not matter to what is decoded, nor to the failure. A rule is decoded from its own
JSON form as it was, and what a rule is decoded from is that form, its order apart. -/
theorem ofJson_exact :
    (∀ value : Json, (∃ c, ofJson value = .ok c) ↔
      ∃ fields variablePath next operand, ∃ type : ValueType, ∃ relation : Relation,
        value = .object fields ∧
          fields.Perm [("Variable", .string variablePath), (type.name ++ relation.name, operand),
            ("Next", .string next)]) ∧
    (∀ fields others : Entries String Json, fields.Perm others → fields.Distinct →
      ofJson (.object fields) = ofJson (.object others)) ∧
    (∀ c : ChoiceClause, ofJson c.toJson = .ok c) ∧
    ∀ (value : Json) (c : ChoiceClause), ofJson value = .ok c →
      ∃ fields others, value = .object fields ∧ c.toJson = .object others ∧
        others.Perm fields := by
  refine ⟨fun value => ⟨?_, ?_⟩, ?_, ofJson_toJson, ?_⟩
  · rintro ⟨⟨variablePath, ⟨type, relation⟩, operand, next⟩, h⟩
    obtain ⟨fields, rfl, hperm⟩ := ofJson_eq_ok_iff.mp h
    exact ⟨fields, variablePath, next, operand, type, relation, rfl, hperm⟩
  · rintro ⟨fields, variablePath, next, operand, type, relation, rfl, hperm⟩
    exact ⟨⟨variablePath, ⟨type, relation⟩, operand, next⟩, ofJson_eq_ok_iff.mpr ⟨fields, rfl, hperm⟩⟩
  · intro fields others hperm hdistinct
    exact ofJson_perm hperm hdistinct
  · intro value c h
    obtain ⟨fields, rfl, hperm⟩ := ofJson_eq_ok_iff.mp h
    exact ⟨fields, c.written, rfl, c.toJson_eq, hperm.symm⟩

/-- A rule with its fields in the reverse order, and with null for its operand. -/
theorem ofJson_exact_reversed :
    let fields : Entries String Json := [("Next", .string "done"),
      ("TimestampGreaterThanEquals", .null), ("Variable", .string "$.at")]
    fields.Distinct ∧ ofJson (.object fields) = ofJson (.object fields.reverse) ∧
      ∃ c, ofJson (.object fields) = .ok c ∧
        ∃ others, c.toJson = .object others ∧ others.Perm fields := by
  intro fields
  have hdistinct : fields.Distinct := by
    simp [fields, Entries.Distinct, Entries.keys]
  have haccepted : ∃ c, ofJson (.object fields) = .ok c :=
    (ofJson_exact.1 (.object fields)).mpr ⟨fields, "$.at", "done", .null, .timestamp,
      .greaterThanEquals, rfl, fields.reverse_perm.symm⟩
  refine ⟨hdistinct, ofJson_exact.2.1 _ _ fields.reverse_perm.symm hdistinct, ?_⟩
  obtain ⟨c, hc⟩ := haccepted
  obtain ⟨written, others, hwritten, hothers, hperm⟩ := ofJson_exact.2.2.2 _ c hc
  cases hwritten
  exact ⟨c, hc, others, hothers, hperm⟩

end Flowscript.ChoiceClause
